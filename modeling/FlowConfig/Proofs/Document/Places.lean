import FlowConfig.Proofs.Document.Table
import Mathlib.Data.List.Nodup
import Mathlib.Logic.Relation

/-!
# Places

Places are given out in document order, to an element before those inside it and to
siblings one after the other.  Three walks rest on this: to the children, over the range
of places behind an element, and up from parent to parent.  All three walk on one tree.
-/

namespace FlowConfig

theorem Element.size_eq_descendantCount (e : Element) : e.size = 1 + e.descendantCount := by
  rw [descendantCount_eq, size_eq, Nat.add_comm]

namespace Document

/-!
# Siblings
-/

/-- Consecutive siblings with their places, the first of which is at `place`. -/
def placed (place : Nat) : List Element -> List (Nat × Element)
  | [] => []
  | e :: rest => (place, e) :: placed (place + e.size) rest

theorem map_fst_placed (place : Nat) (es : List Element) :
    (placed place es).map Prod.fst = siblingPlaces place es := by
  induction es generalizing place with
  | nil => rfl
  | cons e rest ih =>
      rw [placed, List.map_cons, ih, siblingPlaces, Element.size_eq_descendantCount,
        Nat.add_assoc]

theorem map_snd_placed (place : Nat) (es : List Element) :
    (placed place es).map Prod.snd = es := by
  induction es generalizing place with
  | nil => rfl
  | cons e rest ih => rw [placed, List.map_cons, ih]

theorem mem_of_mem_placed {place q : Nat} {c : Element} {es : List Element}
    (h : (q, c) ∈ placed place es) : c ∈ es := by
  rw [← map_snd_placed place es]
  exact List.mem_map_of_mem h

theorem le_of_mem_siblingPlaces {place q : Nat} {es : List Element}
    (h : q ∈ siblingPlaces place es) : place ≤ q := by
  induction es generalizing place with
  | nil => cases h
  | cons e rest ih =>
      rcases List.mem_cons.mp h with heq | hrest
      · exact Nat.le_of_eq heq.symm
      · have hle := ih hrest
        rw [Nat.add_assoc] at hle
        exact Nat.le_trans (Nat.le_add_right _ _) hle

theorem pairwise_siblingPlaces (place : Nat) (es : List Element) :
    (siblingPlaces place es).Pairwise (· < ·) := by
  induction es generalizing place with
  | nil => exact List.Pairwise.nil
  | cons e rest ih =>
      apply List.Pairwise.cons
      · intro q hq
        have hle := le_of_mem_siblingPlaces hq
        rw [Nat.add_assoc] at hle
        exact Nat.lt_of_lt_of_le (Nat.lt_add_of_pos_right (Nat.add_pos_left Nat.one_pos _)) hle
      · exact ih _

theorem range'_totalSize (place : Nat) (es : List Element) :
    List.range' place (Element.totalSize es) =
      (placed place es).flatMap fun sibling => List.range' sibling.1 sibling.2.size := by
  induction es generalizing place with
  | nil => rfl
  | cons e rest ih =>
      rw [Element.totalSize_cons, ← List.range'_append_1, ih, placed, List.flatMap_cons]

theorem entriesIn_of_mem_placed {place q : Nat} {c : Element} {es : List Element}
    (h : (q, c) ∈ placed place es) (parent : Nat) :
    exists before after, place + before.length = q ∧
      entriesIn place parent es = before ++ entriesAt q (some parent) c ++ after := by
  induction es generalizing place with
  | nil => cases h
  | cons e rest ih =>
      rw [entriesIn]
      rcases List.mem_cons.mp h with heq | hrest
      · cases heq
        exact ⟨[], _, rfl, rfl⟩
      · rcases ih hrest with ⟨before, after, hplace, hentries⟩
        refine ⟨entriesAt place (some parent) e ++ before, after, ?_, ?_⟩
        · rw [List.length_append, length_entriesAt, ← Nat.add_assoc, hplace]
        · rw [hentries]
          simp only [List.append_assoc]

/-!
# Where elements stand
-/

/-- The element stands at the place, inside the one at the place `parent`. -/
inductive Stands (d : Document) : Nat -> Option Nat -> Element -> Prop where
  | root : Stands d 0 none d.root
  | child {place q : Nat} {parent : Option Nat} {e c : Element}
      (houter : Stands d place parent e) (hplaced : (q, c) ∈ placed (place + 1) e.children) :
      Stands d q (some place) c

variable {d : Document}

theorem entries_of_stands {place : Nat} {parent : Option Nat} {e : Element}
    (h : d.Stands place parent e) :
    exists before after, before.length = place ∧
      d.entries.toList = before ++ entriesAt place parent e ++ after := by
  induction h with
  | root =>
      refine ⟨[], [], rfl, ?_⟩
      rw [toList_entries, List.nil_append, List.append_nil]
  | @child place q parent e c _ hplaced ih =>
      rcases ih with ⟨before, after, hlength, hentries⟩
      rcases entriesIn_of_mem_placed hplaced place with ⟨left, right, hplace, hchildren⟩
      refine ⟨before ++ ⟨e, parent⟩ :: left, right ++ after, ?_, ?_⟩
      · rw [List.length_append, List.length_cons, hlength, ← hplace, Nat.add_assoc,
          Nat.add_comm 1]
      · rw [hentries, entriesAt_eq, hchildren]
        simp only [List.append_assoc, List.cons_append]

theorem entry_of_stands {place : Nat} {parent : Option Nat} {e : Element}
    (h : d.Stands place parent e) : d.entries[place]? = some ⟨e, parent⟩ := by
  rcases entries_of_stands h with ⟨before, after, hlength, hentries⟩
  rw [← Array.getElem?_toList, hentries, entriesAt_eq, ← hlength]
  simp

theorem eq_zero_of_stands_none {place : Nat} {e : Element} (h : d.Stands place none e) :
    place = 0 := by
  cases h with
  | root => rfl

theorem exists_stands_inside {e : Element} {place : Nat} {parent : Option Nat}
    (h : d.Stands place parent e) {i : Nat} (hi : i ∈ List.range' place e.size) :
    exists up x, d.Stands i up x := by
  induction e using Element.treeInduction generalizing place parent with
  | step e ih =>
      rw [Element.size_eq, List.range'_succ] at hi
      rcases List.mem_cons.mp hi with heq | hinside
      · rw [heq]
        exact ⟨parent, e, h⟩
      · rw [range'_totalSize, List.mem_flatMap] at hinside
        rcases hinside with ⟨⟨q, c⟩, hplaced, hrange⟩
        exact ih c (mem_of_mem_placed hplaced) (.child h hplaced) hrange

theorem stands_iff {place : Nat} {parent : Option Nat} {e : Element} :
    d.Stands place parent e <-> d.entries[place]? = some ⟨e, parent⟩ := by
  constructor
  · exact entry_of_stands
  · intro hentry
    have hlt : place < d.size := (Array.getElem?_eq_some_iff.mp hentry).choose
    have hmem : place ∈ List.range' 0 d.root.size := by
      rw [← d.size_eq_root_size, ← List.range_eq_range', List.mem_range]
      exact hlt
    rcases exists_stands_inside .root hmem with ⟨up, x, hstands⟩
    cases (entry_of_stands hstands).symm.trans hentry
    exact hstands

theorem exists_stands_of_element? {place : Nat} {e : Element} (h : d.element? place = some e) :
    exists parent, d.Stands place parent e := by
  rw [element?, Option.map_eq_some_iff] at h
  rcases h with ⟨⟨found, parent⟩, hentry, heq⟩
  cases heq
  exact ⟨parent, stands_iff.mpr hentry⟩

theorem element?_of_stands {place : Nat} {parent : Option Nat} {e : Element}
    (h : d.Stands place parent e) : d.element? place = some e := by
  rw [element?, entry_of_stands h]
  rfl

theorem lt_size_of_element? {place : Nat} {e : Element} (h : d.element? place = some e) :
    place < d.size := by
  rcases exists_stands_of_element? h with ⟨parent, hstands⟩
  exact (Array.getElem?_eq_some_iff.mp (entry_of_stands hstands)).choose

theorem parent?_eq_some_iff {place p : Nat} :
    d.parent? place = some p <-> exists e, d.Stands place (some p) e := by
  rw [parent?, Option.bind_eq_some_iff]
  constructor
  · intro h
    rcases h with ⟨⟨e, parent⟩, hentry, heq⟩
    cases heq
    exact ⟨e, stands_iff.mpr hentry⟩
  · intro h
    rcases h with ⟨e, hstands⟩
    exact ⟨⟨e, some p⟩, entry_of_stands hstands, rfl⟩

theorem mem_elements_iff {x : Element} :
    x ∈ d.root.elements <-> exists place, d.element? place = some x := by
  rw [← Element.map_fst_lineages [], List.mem_map]
  constructor
  · intro h
    rcases h with ⟨⟨e, above⟩, hlineage, heq⟩
    cases heq
    rcases d.exists_place_of_mem_lineages hlineage with ⟨place, _, hplace⟩
    exact ⟨place, d.element?_of_lineage? hplace⟩
  · intro h
    rcases h with ⟨place, helement⟩
    have hlineage : d.lineage? place = some (x, d.around place) := by
      rw [lineage?, helement]
      rfl
    have hplace : place ∈ d.places := List.mem_range.mpr (lt_size_of_element? helement)
    exact ⟨(x, d.around place), d.mem_lineages_of_lineage? hplace hlineage, rfl⟩

/-!
# Children
-/

theorem childPlaces_of_stands {place : Nat} {parent : Option Nat} {e : Element}
    (h : d.Stands place parent e) :
    d.childPlaces place = (placed (place + 1) e.children).map Prod.fst := by
  rw [childPlaces, element?_of_stands h, map_fst_placed]

theorem pairwise_childPlaces (place : Nat) : (d.childPlaces place).Pairwise (· < ·) := by
  rw [childPlaces]
  cases d.element? place with
  | none => exact List.Pairwise.nil
  | some e => exact pairwise_siblingPlaces (place + 1) e.children

theorem mem_childPlaces_iff {p q : Nat} : q ∈ d.childPlaces p <-> d.parent? q = some p := by
  rw [parent?_eq_some_iff]
  constructor
  · intro h
    cases helement : d.element? p with
    | none =>
        rw [childPlaces, helement] at h
        cases h
    | some e =>
        rcases exists_stands_of_element? helement with ⟨parent, hstands⟩
        rw [childPlaces_of_stands hstands, List.mem_map] at h
        rcases h with ⟨⟨place, c⟩, hplaced, heq⟩
        cases heq
        exact ⟨c, .child hstands hplaced⟩
  · intro h
    rcases h with ⟨c, hstands⟩
    cases hstands with
    | child houter hplaced =>
        rw [childPlaces_of_stands houter]
        exact List.mem_map_of_mem hplaced

theorem mem_childPlacesNamed_iff {name : String} {p q : Nat} :
    q ∈ d.childPlacesNamed name p <-> d.parent? q = some p ∧ d.hasName name q = true := by
  rw [childPlacesNamed, List.mem_filter, mem_childPlaces_iff]

theorem lt_of_mem_childPlaces {p q : Nat} (h : q ∈ d.childPlaces p) : p < q := by
  rcases parent?_eq_some_iff.mp (mem_childPlaces_iff.mp h) with ⟨e, hstands⟩
  exact d.parent_lt (entry_of_stands hstands)

theorem count_childPlaces {p q : Nat} (h : d.parent? q = some p) :
    (d.childPlaces p).count q = 1 :=
  List.count_eq_one_of_mem ((pairwise_childPlaces p).imp Nat.ne_of_lt)
    (mem_childPlaces_iff.mpr h)

/-!
# All inside
-/

theorem descendantPlaces_of_stands {place : Nat} {parent : Option Nat} {e : Element}
    (h : d.Stands place parent e) :
    d.descendantPlaces place = List.range' (place + 1) (Element.totalSize e.children) := by
  rw [descendantPlaces, element?_of_stands h, ← Element.descendantCount_eq]

/-- Inside an element are its children, each followed by what is inside it. -/
theorem descendantPlaces_eq_flatMap (place : Nat) :
    d.descendantPlaces place =
      (d.childPlaces place).flatMap fun c => c :: d.descendantPlaces c := by
  cases helement : d.element? place with
  | none => rw [descendantPlaces, childPlaces, helement, List.flatMap_nil]
  | some e =>
      rcases exists_stands_of_element? helement with ⟨parent, hstands⟩
      rw [descendantPlaces_of_stands hstands, childPlaces_of_stands hstands, range'_totalSize,
        List.flatMap_map]
      apply List.flatMap_congr
      intro sibling hsibling
      have hchild : d.Stands sibling.1 (some place) sibling.2 := .child hstands hsibling
      rw [descendantPlaces_of_stands hchild, Element.size_eq, List.range'_succ]

theorem places_eq : d.places = 0 :: d.descendantPlaces 0 := by
  rw [places, size_eq_root_size, descendantPlaces_of_stands .root, List.range_eq_range',
    Element.size_eq, List.range'_succ]

/-- One element is reached from another by going from parent to child, at least
once. -/
def Reaches (d : Document) : Nat -> Nat -> Prop :=
  Relation.TransGen fun p q => q ∈ d.childPlaces p

theorem reaches_of_stands {place : Nat} {parent : Option Nat} {e : Element}
    (h : d.Stands place parent e) {i : Nat} (hi : i ∈ d.descendantPlaces place) :
    d.Reaches place i := by
  induction e using Element.treeInduction generalizing place parent with
  | step e ih =>
      rw [descendantPlaces_eq_flatMap, List.mem_flatMap] at hi
      rcases hi with ⟨q, hq, hmem⟩
      rcases List.mem_cons.mp hmem with heq | hinside
      · rw [heq]
        exact .single hq
      · have hplaces := hq
        rw [childPlaces_of_stands h, List.mem_map] at hplaces
        rcases hplaces with ⟨⟨place', c⟩, hplaced, heq⟩
        cases heq
        exact .head hq (ih c (mem_of_mem_placed hplaced) (.child h hplaced) hinside)

theorem reaches_of_mem_descendantPlaces {a e : Nat} (h : e ∈ d.descendantPlaces a) :
    d.Reaches a e := by
  cases helement : d.element? a with
  | none =>
      rw [descendantPlaces, helement] at h
      cases h
  | some x =>
      rcases exists_stands_of_element? helement with ⟨parent, hstands⟩
      exact reaches_of_stands hstands h

theorem mem_descendantPlaces_of_reaches {a e : Nat} (h : d.Reaches a e) :
    e ∈ d.descendantPlaces a := by
  induction h using Relation.TransGen.head_induction_on with
  | single hchild =>
      rw [descendantPlaces_eq_flatMap, List.mem_flatMap]
      exact ⟨e, hchild, List.mem_cons_self⟩
  | head hchild _ ih =>
      rw [descendantPlaces_eq_flatMap, List.mem_flatMap]
      exact ⟨_, hchild, List.mem_cons_of_mem _ ih⟩

theorem mem_descendantPlaces_iff {a e : Nat} : e ∈ d.descendantPlaces a <-> d.Reaches a e :=
  ⟨reaches_of_mem_descendantPlaces, mem_descendantPlaces_of_reaches⟩

theorem mem_descendantPlacesNamed_iff {name : String} {a e : Nat} :
    e ∈ d.descendantPlacesNamed name a <-> d.Reaches a e ∧ d.hasName name e = true := by
  rw [descendantPlacesNamed, List.mem_filter, mem_descendantPlaces_iff]

/-!
# The way up
-/

theorem parent?_lt {place p : Nat} (h : d.parent? place = some p) : p < place :=
  lt_of_mem_childPlaces (mem_childPlaces_iff.mpr h)

theorem ancestors_of_parent? {place p : Nat} (h : d.parent? place = some p) :
    d.ancestors place = p :: d.ancestors p := by
  rcases parent?_eq_some_iff.mp h with ⟨e, hstands⟩
  exact d.ancestors_of_entry (entry_of_stands hstands)

theorem reaches_of_mem_ancestors {a e : Nat} (h : a ∈ d.ancestors e) : d.Reaches a e := by
  induction e using Nat.strongRecOn with
  | ind e ih =>
      cases hparent : d.parent? e with
      | none =>
          rw [ancestors, hparent] at h
          cases h
      | some p =>
          have hchild := mem_childPlaces_iff.mpr hparent
          rw [ancestors_of_parent? hparent] at h
          rcases List.mem_cons.mp h with heq | hup
          · rw [heq]
            exact .single hchild
          · exact .tail (ih p (parent?_lt hparent) hup) hchild

theorem mem_ancestors_of_reaches {a e : Nat} (h : d.Reaches a e) : a ∈ d.ancestors e := by
  induction h with
  | single hchild =>
      rw [ancestors_of_parent? (mem_childPlaces_iff.mp hchild)]
      exact List.mem_cons_self
  | tail _ hchild ih =>
      rw [ancestors_of_parent? (mem_childPlaces_iff.mp hchild)]
      exact List.mem_cons_of_mem _ ih

theorem mem_ancestors_iff {a e : Nat} : a ∈ d.ancestors e <-> e ∈ d.descendantPlaces a := by
  rw [mem_descendantPlaces_iff]
  exact ⟨reaches_of_mem_ancestors, mem_ancestors_of_reaches⟩

theorem parent?_eq_none_iff {place : Nat} (h : place < d.size) :
    d.parent? place = none <-> place = 0 := by
  constructor
  · intro hparent
    have hentry : d.entries[place]? = some d.entries[place] := Array.getElem?_eq_getElem h
    rw [parent?, hentry, Option.bind_some] at hparent
    apply eq_zero_of_stands_none (e := d.entries[place].element)
    rw [stands_iff, hentry, ← hparent]
  · intro hzero
    rw [hzero, parent?, entry_of_stands .root]
    rfl

theorem getLast?_ancestors {place : Nat} (h : place < d.size) :
    (place :: d.ancestors place).getLast? = some 0 := by
  induction place using Nat.strongRecOn with
  | ind place ih =>
      cases hparent : d.parent? place with
      | none =>
          have hzero := (parent?_eq_none_iff h).mp hparent
          rw [ancestors, hparent, hzero]
          rfl
      | some p =>
          have hlt := parent?_lt hparent
          rw [ancestors_of_parent? hparent, List.getLast?_cons_cons]
          exact ih p hlt (Nat.lt_trans hlt h)

/-!
# All walks
-/

/-- Places are in document order, and the walks down, over the range of places behind an
element and up are walks on one tree. -/
structure Preordered (d : Document) : Prop where
  places : d.places = 0 :: d.descendantPlaces 0
  inside : forall e, d.descendantPlaces e =
    (d.childPlaces e).flatMap fun c => c :: d.descendantPlaces c
  parentless : forall e, e < d.size -> (d.parent? e = none <-> e = 0)
  parent : forall e p, d.parent? e = some p -> p < e ∧ (d.childPlaces p).count e = 1
  child : forall e p, e ∈ d.childPlaces p <-> d.parent? e = some p
  childrenIncrease : forall e, (d.childPlaces e).Pairwise (· < ·)
  range : forall e, exists count, d.descendantPlaces e = List.range' (e + 1) count
  reached : forall a e, e ∈ d.descendantPlaces a <-> d.Reaches a e
  ancestor : forall a e, a ∈ d.ancestors e <-> e ∈ d.descendantPlaces a
  climb : forall e p, d.parent? e = some p -> d.ancestors e = p :: d.ancestors p
  ends : forall e, e < d.size -> (e :: d.ancestors e).getLast? = some 0

theorem exists_range' (place : Nat) :
    exists count, d.descendantPlaces place = List.range' (place + 1) count := by
  rw [descendantPlaces]
  cases d.element? place with
  | none => exact ⟨0, rfl⟩
  | some e => exact ⟨e.descendantCount, rfl⟩

theorem preordered (d : Document) : d.Preordered where
  places := places_eq
  inside := descendantPlaces_eq_flatMap
  parentless _ := parent?_eq_none_iff
  parent _ _ h := ⟨parent?_lt h, count_childPlaces h⟩
  child _ _ := mem_childPlaces_iff
  childrenIncrease := pairwise_childPlaces
  range := exists_range'
  reached _ _ := mem_descendantPlaces_iff
  ancestor _ _ := mem_ancestors_iff
  climb _ _ := ancestors_of_parent?
  ends _ := getLast?_ancestors

end Document
end FlowConfig
