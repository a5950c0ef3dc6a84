import FlowConfig.Bundle.Compatibility
import FlowConfig.Proofs.Document.Table

/-!
# The scope of templates

Whether an element is in a template is asked in two ways: by the way up from
its place, and by marks that one pass over the table leaves at every place.  Both
give the same answer, since the table has parents before their children.
-/

namespace FlowConfig
namespace Document

variable (d : Document)

/-!
# The way up
-/

theorem isWithin_of_entry (name : String) {place : Nat} {e : Element} {parent : Option Nat}
    (hentry : d.entries[place]? = some ⟨e, parent⟩) :
    d.isWithin name place = (e.name == name || parent.any (d.isWithin name)) := by
  rw [isWithin, hentry]
  cases parent with
  | none => by_cases hname : e.name = name <;> simp [hname]
  | some p =>
      have hlt : p < place := d.parent_lt hentry
      by_cases hname : e.name = name <;> simp [hname, hlt]

theorem isWithin_eq_false_of_no_entry (name : String) {place : Nat}
    (hentry : d.entries[place]? = none) : d.isWithin name place = false := by
  rw [isWithin, hentry]

/-- Being within an element of a name is asking the place and its ancestors. -/
theorem isWithin_eq_any_hasName (name : String) (place : Nat) :
    d.isWithin name place = (place :: d.ancestors place).any (d.hasName name) := by
  induction place using Nat.strongRecOn with
  | ind place ih =>
      cases hentry : d.entries[place]? with
      | none =>
          have hup : d.parent? place = none := by
            rw [parent?, hentry]
            rfl
          have helement : d.element? place = none := by
            rw [element?, hentry]
            rfl
          rw [d.isWithin_eq_false_of_no_entry name hentry, ancestors, hup]
          simp [hasName, helement]
      | some entry =>
          obtain ⟨e, parent⟩ := entry
          have helement : d.element? place = some e := by
            rw [element?, hentry]
            rfl
          have hself : d.hasName name place = (e.name == name) := by
            rw [hasName, helement]
          rw [d.isWithin_of_entry name hentry, d.ancestors_of_entry hentry, List.any_cons, hself]
          cases parent with
          | none => rfl
          | some p => rw [Option.any_some, ih p (d.parent_lt hentry)]

/-!
# The marks
-/

/-- The marks say of every place before `n` whether it is in a template. -/
def MarksUpTo (n : Nat) (marks : Array Bool) : Prop :=
  marks.toList = (List.range n).map d.withinTemplate

theorem getD_of_marksUpTo {n p : Nat} {marks : Array Bool} (h : d.MarksUpTo n marks)
    (hp : p < n) : marks[p]?.getD false = d.withinTemplate p := by
  rw [← Array.getElem?_toList, h, List.getElem?_map, List.getElem?_range hp]
  rfl

theorem marksUpTo_push {n : Nat} {marks : Array Bool} {entry : Entry}
    (h : d.MarksUpTo n marks) (hentry : d.entries[n]? = some entry) :
    d.MarksUpTo (n + 1) (marks.push (templateMark marks entry)) := by
  obtain ⟨e, parent⟩ := entry
  have hmark : templateMark marks ⟨e, parent⟩ = d.withinTemplate n := by
    rw [withinTemplate, d.isWithin_of_entry templateName hentry, templateMark]
    cases parent with
    | none => rfl
    | some p =>
        show (e.name == templateName || marks[p]?.getD false) = _
        rw [d.getD_of_marksUpTo h (d.parent_lt hentry), withinTemplate, Option.any_some]
  rw [MarksUpTo, Array.toList_push, h, hmark, List.range_succ, List.map_append]
  rfl

theorem marksUpTo_foldl {before rest : List Entry} {marks : Array Bool}
    (hentries : d.entries.toList = before ++ rest) (h : d.MarksUpTo before.length marks) :
    d.MarksUpTo (before ++ rest).length
      (rest.foldl (fun marks entry => marks.push (templateMark marks entry)) marks) := by
  induction rest generalizing before marks with
  | nil => simpa using h
  | cons entry rest ih =>
      have hentry : d.entries[before.length]? = some entry := by
        rw [← Array.getElem?_toList, hentries]
        simp
      have hstep := d.marksUpTo_push h hentry
      have hsplit : before ++ entry :: rest = (before ++ [entry]) ++ rest := by simp
      rw [List.foldl_cons, hsplit]
      apply ih (hentries.trans hsplit)
      rw [List.length_append]
      exact hstep

theorem toList_templateMarks : d.templateMarks.toList = d.places.map d.withinTemplate := by
  have hstart : d.MarksUpTo ([] : List Entry).length #[] := rfl
  have hmarks := d.marksUpTo_foldl (List.nil_append d.entries.toList).symm hstart
  rw [List.nil_append, Array.foldl_toList, Array.length_toList] at hmarks
  exact hmarks

theorem getD_templateMarks (place : Nat) :
    d.templateMarks[place]?.getD false = d.withinTemplate place := by
  by_cases hplace : place < d.size
  · exact d.getD_of_marksUpTo d.toList_templateMarks hplace
  · have hle : d.size ≤ place := Nat.le_of_not_lt hplace
    have hmarks : d.templateMarks[place]? = none := by
      rw [← Array.getElem?_toList, toList_templateMarks]
      simpa [places] using hle
    have hentry : d.entries[place]? = none := Array.getElem?_eq_none hle
    rw [hmarks, withinTemplate, d.isWithin_eq_false_of_no_entry templateName hentry]
    rfl

end Document
end FlowConfig
