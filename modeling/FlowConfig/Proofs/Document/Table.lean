import FlowConfig.Document
import FlowConfig.Proofs.Element.Tree

/-!
# The table of a document

The table lists the elements of the tree in document order, and its way up
leads from every place through the elements around the element there.  So
whatever is said of places, their elements and their ancestors can be said of
the lineages of the tree.
-/

namespace FlowConfig

mutual

/-- The entries of an element and of all inside it when the first of them gets
the given place. -/
def entriesAt (place : Nat) (parent : Option Nat) : Element -> List Entry
  | ⟨node, children⟩ => ⟨⟨node, children⟩, parent⟩ :: entriesIn (place + 1) place children

def entriesIn (place parent : Nat) : List Element -> List Entry
  | [] => []
  | c :: rest => entriesAt place (some parent) c ++ entriesIn (place + c.size) parent rest

end

theorem entriesAt_eq (place : Nat) (parent : Option Nat) (e : Element) :
    entriesAt place parent e = ⟨e, parent⟩ :: entriesIn (place + 1) place e.children := by
  cases e with
  | mk node children => rw [entriesAt]

theorem length_entriesIn {es : List Element} {place parent : Nat}
    (h : forall e, e ∈ es -> forall place parent, (entriesAt place parent e).length = e.size) :
    (entriesIn place parent es).length = Element.totalSize es := by
  induction es generalizing place with
  | nil => rfl
  | cons e rest ih =>
      rw [entriesIn, List.length_append, Element.totalSize_cons, h e List.mem_cons_self,
        ih fun c hc => h c (List.mem_cons_of_mem e hc)]

theorem length_entriesAt (place : Nat) (parent : Option Nat) (e : Element) :
    (entriesAt place parent e).length = e.size := by
  induction e using Element.treeInduction generalizing place parent with
  | step e ih =>
      rw [entriesAt_eq, List.length_cons, length_entriesIn ih, Element.size_eq]

/-- The entries of pending elements, the first of which gets the given place. -/
def pendingEntries (place : Nat) : List (Option Nat × Element) -> List Entry
  | [] => []
  | (parent, e) :: rest => entriesAt place parent e ++ pendingEntries (place + e.size) rest

theorem pendingEntries_pendingIn_append (place parent : Nat) (children : List Element)
    (rest : List (Option Nat × Element)) :
    pendingEntries place (pendingIn parent children ++ rest) =
      entriesIn place parent children ++
        pendingEntries (place + Element.totalSize children) rest := by
  induction children generalizing place with
  | nil => rfl
  | cons c more ih =>
      show entriesAt place (some parent) c ++
          pendingEntries (place + c.size) (pendingIn parent more ++ rest) = _
      rw [ih, entriesIn, Element.totalSize_cons, List.append_assoc, Nat.add_assoc]

theorem toList_tableFrom (entered : Array Entry) (pending : List (Option Nat × Element)) :
    (tableFrom entered pending).toList =
      entered.toList ++ pendingEntries entered.size pending := by
  fun_induction tableFrom entered pending with
  | case1 entered => simp [pendingEntries]
  | case2 entered parent e rest place ih =>
      have hsize : place + 1 + Element.totalSize e.children = place + e.size := by
        rw [Element.size_eq]
        omega
      rw [ih, Array.toList_push, Array.size_push, pendingEntries_pendingIn_append, hsize,
        pendingEntries, entriesAt_eq]
      simp [place]

theorem toList_table (root : Element) : (table root).toList = entriesAt 0 none root := by
  rw [table, toList_tableFrom]
  simp [pendingEntries]

namespace Document

variable (d : Document)

theorem toList_entries : d.entries.toList = entriesAt 0 none d.root := by
  rw [d.entries_eq, toList_table]

theorem size_eq_root_size : d.size = d.root.size := by
  rw [size, ← Array.length_toList, toList_entries, length_entriesAt]

/-- The elements around the element at a place, the nearest first. -/
def around (place : Nat) : List Element :=
  (d.ancestors place).filterMap d.element?

/-- The element at a place with the elements around it. -/
def lineage? (place : Nat) : Option (Element × List Element) :=
  (d.element? place).map fun e => (e, d.around place)

/-- The elements around whatever has the given parent. -/
def aroundChildOf : Option Nat -> List Element
  | none => []
  | some p => (d.element? p).toList ++ d.around p

theorem around_eq {place : Nat} {e : Element} {parent : Option Nat}
    (hentry : d.entries[place]? = some ⟨e, parent⟩)
    (hparent : forall p, parent = some p -> p < place) :
    d.around place = d.aroundChildOf parent := by
  have hup : d.parent? place = parent := by
    simp [parent?, hentry]
  rw [around, ancestors, hup]
  cases parent with
  | none => rfl
  | some p =>
      have hlt : p < place := hparent p rfl
      simp only [hlt, if_true]
      rw [List.filterMap_cons, aroundChildOf, around]
      cases d.element? p with
      | none => rfl
      | some e => rfl

theorem lineage?_eq {place : Nat} {e : Element} {parent : Option Nat}
    (hentry : d.entries[place]? = some ⟨e, parent⟩)
    (hparent : forall p, parent = some p -> p < place) :
    d.lineage? place = some (e, d.aroundChildOf parent) := by
  have he : d.element? place = some e := by
    simp [element?, hentry]
  rw [lineage?, he, d.around_eq hentry hparent]
  rfl

/-- A stretch of the table holds the lineages of an element. -/
def HoldsLineages (place size : Nat) (lineages : List (Element × List Element)) : Prop :=
  (List.range' place size).map d.lineage? = lineages.map some

theorem holdsLineages_of_entriesIn {es : List Element} {parent : Nat}
    (before after : List Entry)
    (hes : forall c, c ∈ es -> forall before after : List Entry, parent < before.length ->
      d.entries.toList = before ++ entriesAt before.length (some parent) c ++ after ->
      d.HoldsLineages before.length c.size (c.lineages (d.aroundChildOf (some parent))))
    (hparent : parent < before.length)
    (hentries : d.entries.toList = before ++ entriesIn before.length parent es ++ after) :
    d.HoldsLineages before.length (Element.totalSize es)
      (es.flatMap (Element.lineages (d.aroundChildOf (some parent)))) := by
  induction es generalizing before with
  | nil => rfl
  | cons c rest ih =>
      have hlen : (before ++ entriesAt before.length (some parent) c).length =
          before.length + c.size := by
        rw [List.length_append, length_entriesAt]
      have hhead : d.HoldsLineages before.length c.size
          (c.lineages (d.aroundChildOf (some parent))) := by
        apply hes c List.mem_cons_self before
          (entriesIn (before.length + c.size) parent rest ++ after) hparent
        rw [hentries, entriesIn]
        simp only [List.append_assoc]
      have htail := ih (before ++ entriesAt before.length (some parent) c)
        (fun e he => hes e (List.mem_cons_of_mem c he))
        (by omega)
        (by rw [hentries, entriesIn, hlen]; simp only [List.append_assoc])
      rw [hlen] at htail
      unfold HoldsLineages at hhead htail ⊢
      rw [Element.totalSize_cons, ← List.range'_append_1, List.map_append, hhead, htail,
        List.flatMap_cons, List.map_append]

theorem holdsLineages_of_entriesAt {e : Element} {parent : Option Nat}
    (before after : List Entry)
    (hparent : forall p, parent = some p -> p < before.length)
    (hentries : d.entries.toList = before ++ entriesAt before.length parent e ++ after) :
    d.HoldsLineages before.length e.size (e.lineages (d.aroundChildOf parent)) := by
  induction e using Element.treeInduction generalizing parent before after with
  | step e ih =>
      rw [entriesAt_eq] at hentries
      have hentry : d.entries[before.length]? = some ⟨e, parent⟩ := by
        rw [← Array.getElem?_toList, hentries]
        simp
      have haround : d.aroundChildOf (some before.length) = e :: d.aroundChildOf parent := by
        rw [aroundChildOf, d.around_eq hentry hparent]
        simp [element?, hentry]
      have hchildren : d.HoldsLineages (before.length + 1) (Element.totalSize e.children)
          (e.children.flatMap (Element.lineages (d.aroundChildOf (some before.length)))) := by
        have hlen : (before ++ [Entry.mk e parent]).length = before.length + 1 := by simp
        rw [← hlen]
        refine d.holdsLineages_of_entriesIn _ after ?_ (by omega) ?_
        · intro c hc before' after' hlt hentries'
          refine ih c hc before' after' ?_ hentries'
          intro p hp
          cases hp
          exact hlt
        · rw [hentries, hlen]
          simp
      unfold HoldsLineages at hchildren ⊢
      rw [Element.size_eq, List.range'_succ, List.map_cons, d.lineage?_eq hentry hparent,
        hchildren, Element.lineages_eq, haround]
      rfl

theorem map_lineage?_places : d.places.map d.lineage? = (d.root.lineages []).map some := by
  have hentries : d.entries.toList = [] ++ entriesAt 0 none d.root ++ [] := by
    simp [toList_entries]
  have hroot : forall p, (none : Option Nat) = some p -> p < 0 := by
    intro p hp
    cases hp
  rw [places, size_eq_root_size, List.range_eq_range']
  exact d.holdsLineages_of_entriesAt [] [] hroot hentries

/-!
# Places and lineages

Every lineage of the tree stands at a place, and every place holds one.
-/

theorem exists_place_of_mem_lineages {e : Element} {above : List Element}
    (h : (e, above) ∈ d.root.lineages []) :
    exists place, place ∈ d.places ∧ d.lineage? place = some (e, above) := by
  have hmem : some (e, above) ∈ (d.root.lineages []).map some := List.mem_map_of_mem h
  rw [← map_lineage?_places] at hmem
  exact List.mem_map.mp hmem

theorem mem_lineages_of_lineage? {place : Nat} {e : Element} {above : List Element}
    (hplace : place ∈ d.places) (h : d.lineage? place = some (e, above)) :
    (e, above) ∈ d.root.lineages [] := by
  have hmem : some (e, above) ∈ d.places.map d.lineage? := List.mem_map.mpr ⟨place, hplace, h⟩
  rw [map_lineage?_places, List.mem_map] at hmem
  rcases hmem with ⟨lineage, hlineage, heq⟩
  cases heq
  exact hlineage

theorem length_filter_places (f : Element × List Element -> Bool) :
    (d.places.filter fun place => (d.lineage? place).any f).length =
      (d.root.lineages []).countP f := by
  have hcount : (d.places.map d.lineage?).countP (Option.any f) =
      ((d.root.lineages []).map some).countP (Option.any f) := by
    rw [map_lineage?_places]
  rw [List.countP_map, List.countP_map] at hcount
  rw [← List.countP_eq_length_filter]
  exact hcount

theorem exists_entry_of_lineage? {place : Nat} {e : Element} {above : List Element}
    (h : d.lineage? place = some (e, above)) :
    exists parent, d.entries[place]? = some ⟨e, parent⟩ ∧ d.around place = above := by
  rw [lineage?, element?, Option.map_map, Option.map_eq_some_iff] at h
  rcases h with ⟨⟨found, parent⟩, hentry, heq⟩
  cases heq
  exact ⟨parent, hentry, rfl⟩

theorem element?_of_lineage? {place : Nat} {e : Element} {above : List Element}
    (h : d.lineage? place = some (e, above)) : d.element? place = some e := by
  rcases d.exists_entry_of_lineage? h with ⟨parent, hentry, _⟩
  rw [element?, hentry]
  rfl

/-!
Parents come before their children, so the way up from a place in the table
never leaves the table.
-/

/-- In entries that start at a place every parent comes before its child. -/
def ParentsBefore (place : Nat) (entries : List Entry) : Prop :=
  forall (i : Nat) (entry : Entry), entries[i]? = some entry ->
    forall p, entry.parent = some p -> p < place + i

theorem parentsBefore_append {place : Nat} {before after : List Entry}
    (hbefore : ParentsBefore place before)
    (hafter : ParentsBefore (place + before.length) after) :
    ParentsBefore place (before ++ after) := by
  intro i entry hentry p hp
  by_cases hlt : i < before.length
  · rw [List.getElem?_append_left hlt] at hentry
    exact hbefore i entry hentry p hp
  · rw [List.getElem?_append_right (Nat.le_of_not_lt hlt)] at hentry
    have hless := hafter _ entry hentry p hp
    omega

theorem parentsBefore_entriesIn {es : List Element} {place parent : Nat}
    (hes : forall c, c ∈ es -> forall place, parent < place ->
      ParentsBefore place (entriesAt place (some parent) c))
    (hparent : parent < place) : ParentsBefore place (entriesIn place parent es) := by
  induction es generalizing place with
  | nil =>
      intro i entry hentry
      cases hentry
  | cons c rest ih =>
      rw [entriesIn]
      apply parentsBefore_append (hes c List.mem_cons_self place hparent)
      rw [length_entriesAt]
      exact ih (fun e he => hes e (List.mem_cons_of_mem c he)) (by omega)

theorem parentsBefore_entriesAt {e : Element} {place : Nat} {parent : Option Nat}
    (hparent : forall p, parent = some p -> p < place) :
    ParentsBefore place (entriesAt place parent e) := by
  induction e using Element.treeInduction generalizing place parent with
  | step e ih =>
      have hfirst : ParentsBefore place [Entry.mk e parent] := by
        intro i entry hentry p hp
        cases i with
        | zero =>
            cases hentry
            exact hparent p hp
        | succ i => cases hentry
      rw [entriesAt_eq]
      apply parentsBefore_append hfirst
      apply parentsBefore_entriesIn
      · intro c hc place' hlt
        apply ih c hc
        intro p hp
        cases hp
        exact hlt
      · exact Nat.lt_succ_self place

theorem parent_lt {place p : Nat} {e : Element}
    (hentry : d.entries[place]? = some ⟨e, some p⟩) : p < place := by
  have hall : ParentsBefore 0 d.entries.toList := by
    rw [toList_entries]
    apply parentsBefore_entriesAt
    intro p hp
    cases hp
  rw [← Array.getElem?_toList] at hentry
  have hlt := hall place _ hentry p rfl
  omega

theorem ancestors_of_entry {place : Nat} {e : Element} {parent : Option Nat}
    (hentry : d.entries[place]? = some ⟨e, parent⟩) :
    d.ancestors place = match parent with
      | none => []
      | some p => p :: d.ancestors p := by
  have hup : d.parent? place = parent := by
    rw [parent?, hentry]
    rfl
  rw [ancestors, hup]
  cases parent with
  | none => rfl
  | some p => exact if_pos (d.parent_lt hentry)

theorem around_eq_aroundChildOf {place : Nat} {e : Element} {parent : Option Nat}
    (hentry : d.entries[place]? = some ⟨e, parent⟩) :
    d.around place = d.aroundChildOf parent := by
  apply d.around_eq hentry
  intro p hp
  subst hp
  exact d.parent_lt hentry

/-- The parent of a place in the table is in the table, and the elements around
the place are the one at the parent and those around it. -/
theorem exists_around_parent {place p : Nat} {e : Element}
    (hentry : d.entries[place]? = some ⟨e, some p⟩) :
    exists outer above, d.lineage? p = some (outer, above) ∧
      d.around place = outer :: above := by
  have hlt := d.parent_lt hentry
  have hsize : place < d.entries.size := (Array.getElem?_eq_some_iff.mp hentry).choose
  have helement : d.element? p = some d.entries[p].element := by
    rw [element?, Array.getElem?_eq_getElem (Nat.lt_trans hlt hsize)]
    rfl
  refine ⟨d.entries[p].element, d.around p, ?_, ?_⟩
  · rw [lineage?, helement]
    rfl
  · rw [d.around_eq_aroundChildOf hentry, aroundChildOf, helement]
    rfl

theorem exists_parent_of_lineage? {place : Nat} {e outer : Element} {above : List Element}
    (h : d.lineage? place = some (e, outer :: above)) :
    exists p, d.parent? place = some p ∧ d.lineage? p = some (outer, above) := by
  rcases d.exists_entry_of_lineage? h with ⟨parent, hentry, haround⟩
  cases parent with
  | none =>
      rw [d.around_eq_aroundChildOf hentry] at haround
      cases haround
  | some p =>
      rcases d.exists_around_parent hentry with ⟨other, upper, hp, hup⟩
      rw [haround] at hup
      cases hup
      refine ⟨p, ?_, hp⟩
      rw [parent?, hentry]
      rfl

theorem exists_lineage?_of_parent? {place p : Nat} (h : d.parent? place = some p) :
    exists e outer above, d.lineage? place = some (e, outer :: above) ∧
      d.lineage? p = some (outer, above) := by
  rw [parent?, Option.bind_eq_some_iff] at h
  rcases h with ⟨⟨e, parent⟩, hentry, heq⟩
  cases heq
  rcases d.exists_around_parent hentry with ⟨outer, above, hp, haround⟩
  refine ⟨e, outer, above, ?_, hp⟩
  rw [lineage?, element?, hentry, haround]
  rfl

/-- Being within an element of a name is asking the element and those around
it. -/
theorem isWithin_eq_any (name : String) {place : Nat} {e : Element} {above : List Element}
    (h : d.lineage? place = some (e, above)) :
    d.isWithin name place = (e :: above).any fun a => a.name == name := by
  induction place using Nat.strongRecOn generalizing e above with
  | ind place ih =>
      rcases d.exists_entry_of_lineage? h with ⟨parent, hentry, haround⟩
      rw [isWithin, hentry, List.any_cons]
      cases parent with
      | none =>
          rw [d.around_eq_aroundChildOf hentry] at haround
          cases haround
          by_cases hname : e.name = name <;> simp [hname, aroundChildOf]
      | some p =>
          rcases d.exists_around_parent hentry with ⟨outer, upper, hp, hup⟩
          rw [haround] at hup
          have hlt := d.parent_lt hentry
          simp only [hlt, if_true]
          rw [ih p hlt hp, hup]
          by_cases hname : e.name = name <;> simp [hname]

end Document
end FlowConfig
