import FlowConfig.Proofs.Flow.GroupDecoding
import Mathlib.Tactic.SplitIfs

/-!
# Layouts of growing versions

A layout decides which declarations of a group are decoded, and a later version never
takes one away.  Decoding the same element for an earlier version gives the same groups
in the same order at every depth; they only lack what the earlier layout does not have.
-/

namespace FlowConfig

/-!
# The order of versions
-/

namespace Version

/-- One declaration of a version is at most another one.  No version is at most every
version. -/
def AtMost : Option Version -> Option Version -> Prop
  | none, _ => True
  | some _, none => False
  | some v, some w => v.compare w ≠ .gt

theorem compare_ne_gt_iff (v w : Version) :
    v.compare w ≠ .gt <->
      v.major < w.major ∨ v.major = w.major ∧ v.minor ≤ w.minor := by
  have hmajor := Nat.lt_trichotomy v.major.toNat w.major.toNat
  rw [UInt32.lt_iff_toNat_lt, UInt32.le_iff_toNat_le, ← UInt32.toNat_inj]
  unfold compare
  rcases hmajor with hlt | heq | hgt
  · rw [Nat.compare_eq_lt.mpr hlt]
    simp [hlt]
  · rw [Nat.compare_eq_eq.mpr heq, Ordering.then, Nat.compare_ne_gt, heq]
    simp
  · rw [Nat.compare_eq_gt.mpr hgt]
    simp
    omega

end Version

namespace Layout

open Version

theorem rank_ofVersion_some (v : Version) :
    (ofVersion (some v)).rank =
      if v.major.toNat = 0 then 0
      else if v.major.toNat = 1 ∧ v.minor.toNat = 0 then 1 else 2 := by
  have hzero : forall n : UInt32, n = 0 <-> n.toNat = 0 := fun n => UInt32.toNat_inj.symm
  have hone : forall n : UInt32, n = 1 <-> n.toNat = 1 := fun n => UInt32.toNat_inj.symm
  unfold ofVersion
  rw [apply_ite rank, apply_ite rank]
  simp only [hzero, hone]
  rfl

theorem rank_ofVersion_mono {v w : Option Version} (h : AtMost v w) :
    (ofVersion v).rank ≤ (ofVersion w).rank := by
  cases v with
  | none => exact Nat.zero_le _
  | some v =>
      cases w with
      | none => cases h
      | some w =>
          have horder := (compare_ne_gt_iff v w).mp h
          rw [UInt32.lt_iff_toNat_lt, UInt32.le_iff_toNat_le, ← UInt32.toNat_inj] at horder
          rw [rank_ofVersion_some, rank_ofVersion_some]
          split_ifs <;> omega

end Layout

/-!
# Forgetting declarations
-/

namespace ProcessGroup

mutual

/-- The group as the layout allows it, and so all groups inside it: without services
in the oldest layout, and without variables in all but the newest. -/
def cutTo (layout : Layout) : ProcessGroup -> ProcessGroup
  | ⟨id, name, comments, position, declared, contents⟩ =>
      ⟨id, name, comments, position,
        if layout.rank < Layout.v1Variables.rank then .empty else declared,
        cutWithin layout contents⟩

def cutWithin (layout : Layout) : Option Contents -> Option Contents
  | none => none
  | some ⟨processors, connections, funnels, labels, inputs, outputs, groups, remotes,
      services⟩ =>
      some ⟨processors, connections, funnels, labels, inputs, outputs, cutAll layout groups,
        remotes, if layout = .legacy then [] else services⟩

def cutAll (layout : Layout) : List ProcessGroup -> List ProcessGroup
  | [] => []
  | g :: rest => cutTo layout g :: cutAll layout rest

end

theorem cutAll_eq_map (layout : Layout) (gs : List ProcessGroup) :
    cutAll layout gs = gs.map (cutTo layout) := by
  induction gs with
  | nil => rfl
  | cons g rest ih => rw [cutAll, List.map_cons, ih]

theorem cutTo_assemble {layout later : Layout} (h : layout.rank ≤ later.rank) (e : Element)
    (nested : List ProcessGroup) :
    (assemble later e nested).cutTo layout =
      assemble layout e (nested.map (cutTo layout)) := by
  unfold assemble
  rw [cutTo, cutWithin, cutAll_eq_map]
  cases layout with
  | legacy => rfl
  | v1 =>
      cases later with
      | legacy => cases Nat.not_succ_le_zero _ h
      | v1 => rfl
      | v1Variables => rfl
  | v1Variables =>
      cases later with
      | legacy => cases Nat.not_succ_le_zero _ h
      | v1 => cases Nat.not_succ_le_self _ h
      | v1Variables => rfl

/-- The two runs of the decoder, group by group down to any depth. -/
theorem cutTo_decodeTree {layout later : Layout} (h : layout.rank ≤ later.rank)
    (e : Element) : (decodeTree later e).cutTo layout = decodeTree layout e := by
  induction e using Element.treeInduction with
  | step e ih =>
      have hnested : ((nestedElements e).map (decodeTree later)).map (cutTo layout) =
          (nestedElements e).map (decodeTree layout) := by
        rw [List.map_map]
        exact List.map_congr_left fun c hc => ih c (List.mem_filter.mp hc).left
      rw [decodeTree_eq, cutTo_assemble h, hnested, ← decodeTree_eq]

/-- As versions grow, layouts grow with them, and what an element decodes to only gains
declarations: for an earlier version it is what it is for a later one without the
services and variables that the earlier layout lacks, in the group and in all groups
inside it, and with nothing else changed. -/
theorem ofElement_cutTo_earlier {v w : Option Version} (h : Version.AtMost v w)
    (e : Element) :
    (Layout.ofVersion v).rank ≤ (Layout.ofVersion w).rank ∧
      ofElement (Layout.ofVersion v) e =
        (ofElement (Layout.ofVersion w) e).cutTo (Layout.ofVersion v) := by
  have hrank := Layout.rank_ofVersion_mono h
  constructor
  · exact hrank
  · rw [ofElement_eq_decodeTree, ofElement_eq_decodeTree, cutTo_decodeTree hrank]

/-- A group around another one, each with a service and a variable. -/
def layeredGroup : Element :=
  let leaf (name : String) (attributes : List (String × String)) : Element :=
    ⟨⟨name, none, attributes, "", ⟨0, 0⟩⟩, []⟩
  let parts := [leaf "controllerService" [], leaf "variable" [("name", "stage")]]
  let inner : Element := ⟨⟨"processGroup", none, [], "", ⟨0, 0⟩⟩, parts⟩
  ⟨⟨"rootGroup", none, [], "", ⟨0, 0⟩⟩, inner :: parts⟩

def nestedDeclarations (g : ProcessGroup) : List (Nat × Nat) :=
  g.nested.map fun inner =>
    ((inner.contents.getD {}).controllerServices.length, inner.declaredVariables.keys.length)

theorem ofElement_cutTo_earlier_layeredGroup :
    Version.AtMost (some ⟨1, 0⟩) (some ⟨1, 1⟩) ∧
      ofElement .v1 layeredGroup = (ofElement .v1Variables layeredGroup).cutTo .v1 ∧
        nestedDeclarations (ofElement .v1Variables layeredGroup) = [(1, 1)] ∧
          nestedDeclarations (ofElement .v1 layeredGroup) = [(1, 0)] := by
  have horder : Version.AtMost (some ⟨1, 0⟩) (some ⟨1, 1⟩) := by
    show Version.compare ⟨1, 0⟩ ⟨1, 1⟩ ≠ .gt
    decide
  refine ⟨horder, (ofElement_cutTo_earlier horder layeredGroup).right, ?_, ?_⟩
  · decide +kernel
  · decide +kernel

end ProcessGroup
end FlowConfig
