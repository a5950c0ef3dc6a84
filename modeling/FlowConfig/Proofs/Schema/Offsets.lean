import FlowConfig.Proofs.Element.Offsets
import FlowConfig.Proofs.Schema.Change

/-!
# Conformance does not depend on offsets
-/

namespace FlowConfig

theorem Element.keepsNames_withoutOffsets : KeepsNames withoutOffsets :=
  ⟨name_withoutOffsets, uri_withoutOffsets⟩

theorem Element.isChangeOf_withoutOffsets (e : Element) :
    IsChangeOf withoutOffsets e.withoutOffsets e :=
  ⟨e.attributes_withoutOffsets, e.text_withoutOffsets, e.children_withoutOffsets⟩

namespace Schema

variable {s : Schema}

theorem conforms_withoutOffsets_iff {e : Element} {typeName : String} :
    s.Conforms e.withoutOffsets typeName <-> s.Conforms e typeName := by
  induction e using Element.treeInduction generalizing typeName with
  | step e ih =>
      apply conforms_change_iff Element.keepsNames_withoutOffsets e.isChangeOf_withoutOffsets
      intro t _ c n hc
      exact ih c (Element.mem_children_of_mem_governedChildren hc)

theorem admits_withoutOffsets_iff {root : Element} :
    s.Admits root.withoutOffsets <-> s.Admits root :=
  admits_congr root.name_withoutOffsets root.uri_withoutOffsets conforms_withoutOffsets_iff

end Schema
end FlowConfig
