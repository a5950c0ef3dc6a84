import FlowConfig.Flow.Model
import FlowConfig.Proofs.Element.Tree

/-!
# Decoding nested groups

Groups are gathered level by level and put together from the last to the first.
The outcome is what the recursion over the tree gives: a group with what it
declares itself, and in it the decoded groups of its group children, in document
order.  No index is ever out of range.
-/

namespace FlowConfig
namespace ProcessGroup

/-!
# Decoding by recursion
-/

mutual

/-- A group element decoded by recursion over the tree. -/
def decodeTree (layout : Layout) : Element -> ProcessGroup
  | ⟨node, children⟩ =>
      assemble layout ⟨node, children⟩ (decodeTreesIn layout children)

def decodeTreesIn (layout : Layout) : List Element -> List ProcessGroup
  | [] => []
  | c :: rest =>
      if c.name = "processGroup" then decodeTree layout c :: decodeTreesIn layout rest
      else decodeTreesIn layout rest

end

theorem decodeTreesIn_eq (layout : Layout) (es : List Element) :
    decodeTreesIn layout es =
      (es.filter fun c => c.name == "processGroup").map (decodeTree layout) := by
  induction es with
  | nil => rfl
  | cons c rest ih =>
      rw [decodeTreesIn, ih]
      by_cases h : c.name = "processGroup"
      · simp [h]
      · simp [h]

theorem decodeTree_eq (layout : Layout) (e : Element) :
    decodeTree layout e =
      assemble layout e ((nestedElements e).map (decodeTree layout)) := by
  cases e with
  | mk node children =>
      rw [decodeTree, decodeTreesIn_eq]
      rfl

theorem nested_decodeTree (layout : Layout) (e : Element) :
    (decodeTree layout e).nested = (nestedElements e).map (decodeTree layout) := by
  rw [decodeTree_eq]
  rfl

/-!
# Gathering

While groups are gathered, those before the index `next` have all their nested
groups on the array and the others have none there.
-/

def inside (index : Nat) (groups : List Gathered) : List Element :=
  (groups.filter fun g => g.parent = some index).map Gathered.element

theorem inside_cons_self (index : Nat) (e : Element) (rest : List Gathered) :
    inside index (⟨e, some index⟩ :: rest) = e :: inside index rest := by
  simp [inside]

theorem inside_cons_of_ne {index : Nat} {g : Gathered} (rest : List Gathered)
    (h : g.parent ≠ some index) : inside index (g :: rest) = inside index rest := by
  simp [inside, h]

theorem inside_append (index : Nat) (groups more : List Gathered) :
    inside index (groups ++ more) = inside index groups ++ inside index more := by
  rw [inside, List.filter_append, List.map_append]
  rfl

theorem inside_gatheredIn_self (index : Nat) (e : Element) :
    inside index (gatheredIn index e) = nestedElements e := by
  rw [gatheredIn]
  induction nestedElements e with
  | nil => rfl
  | cons c rest ih => rw [List.map_cons, inside_cons_self, ih]

theorem inside_eq_nil_of_forall {index : Nat} {groups : List Gathered}
    (h : forall g, g ∈ groups -> g.parent ≠ some index) : inside index groups = [] := by
  induction groups with
  | nil => rfl
  | cons g rest ih =>
      rw [inside_cons_of_ne rest (h g List.mem_cons_self)]
      exact ih fun other hmem => h other (List.mem_cons_of_mem g hmem)

theorem inside_gatheredIn_of_ne {index other : Nat} (e : Element) (h : index ≠ other) :
    inside index (gatheredIn other e) = [] := by
  apply inside_eq_nil_of_forall
  intro g hmem
  rcases List.mem_map.mp hmem with ⟨c, _, rfl⟩
  intro heq
  exact h (Option.some.inj heq).symm

/-- The gathered groups when those before `next` have been read: the first is
the outermost one, every other one comes after its parent, and each has all its
nested groups after it or, when it is still to be read, none. -/
structure GatheredUpTo (e : Element) (groups : List Gathered) (next : Nat) : Prop where
  first : groups[0]? = some ⟨e, none⟩
  parent_lt : forall (i : Nat) (g : Gathered), groups[i]? = some g -> i ≠ 0 ->
    exists p, g.parent = some p ∧ p < i ∧ p < next
  complete : forall (i : Nat) (g : Gathered), groups[i]? = some g -> i < next ->
    inside i groups = nestedElements g.element
  le_length : next ≤ groups.length

theorem gatheredUpTo_start (e : Element) : GatheredUpTo e [⟨e, none⟩] 0 where
  first := rfl
  parent_lt := by
    intro i g hg hi
    cases i with
    | zero => exact absurd rfl hi
    | succ i => cases hg
  complete := by
    intro i g _ hlt
    cases hlt
  le_length := Nat.zero_le _

theorem inside_eq_nil_of_not_read {e : Element} {groups : List Gathered} {next : Nat}
    (h : GatheredUpTo e groups next) : inside next groups = [] := by
  apply inside_eq_nil_of_forall
  intro g hmem heq
  rcases List.mem_iff_getElem?.mp hmem with ⟨i, hi⟩
  by_cases hzero : i = 0
  · subst hzero
    rw [h.first] at hi
    cases hi
    cases heq
  · rcases h.parent_lt i g hi hzero with ⟨p, hp, _, hlt⟩
    rw [heq] at hp
    cases hp
    exact Nat.lt_irrefl _ hlt

theorem gatheredUpTo_step {e : Element} {groups : List Gathered} {next : Nat}
    {g : Gathered} (h : GatheredUpTo e groups next) (hg : groups[next]? = some g) :
    GatheredUpTo e (groups ++ gatheredIn next g.element) (next + 1) := by
  have hlt : next < groups.length := (List.getElem?_eq_some_iff.mp hg).choose
  refine ⟨?_, ?_, ?_, ?_⟩
  · rw [List.getElem?_append_left (by omega)]
    exact h.first
  · intro i other hother hi
    by_cases hold : i < groups.length
    · rw [List.getElem?_append_left hold] at hother
      rcases h.parent_lt i other hother hi with ⟨p, hp, hpi, hpnext⟩
      exact ⟨p, hp, hpi, Nat.lt_succ_of_lt hpnext⟩
    · rw [List.getElem?_append_right (Nat.le_of_not_lt hold)] at hother
      rcases List.mem_map.mp (List.mem_of_getElem? hother) with ⟨c, _, rfl⟩
      exact ⟨next, rfl, by omega, Nat.lt_succ_self next⟩
  · intro i other hother hi
    rw [inside_append]
    by_cases hnext : i = next
    · subst hnext
      rw [List.getElem?_append_left hlt, hg] at hother
      cases hother
      rw [inside_eq_nil_of_not_read h, inside_gatheredIn_self, List.nil_append]
    · have hbefore : i < next := by omega
      rw [List.getElem?_append_left (by omega)] at hother
      rw [inside_gatheredIn_of_ne g.element hnext, List.append_nil]
      exact h.complete i other hother hbefore
  · rw [List.length_append]
    omega

/-- A run of gathering keeps what a step keeps, so in the end every group has all
its nested groups on the array. -/
theorem gatheredUpTo_gatherFrom {e : Element} {groups : Array Gathered} {next : Nat}
    (h : GatheredUpTo e groups.toList next) :
    GatheredUpTo e (gatherFrom groups next).toList (gatherFrom groups next).size := by
  fun_induction gatherFrom groups next with
  | case1 groups next hlt ih =>
      apply ih
      rw [Array.toList_appendList]
      apply gatheredUpTo_step h
      rw [Array.getElem?_toList, Array.getElem?_eq_getElem hlt]
  | case2 groups next hge =>
      have hsize : next = groups.size := by
        have hle := h.le_length
        rw [Array.length_toList] at hle
        omega
      rw [← hsize]
      exact h

theorem gatheredUpTo_gather (e : Element) :
    GatheredUpTo e (gather e).toList (gather e).size :=
  gatheredUpTo_gatherFrom (gatheredUpTo_start e)

/-!
# Attaching

While groups are attached, the records that are left hold the decoded groups of
exactly those nested groups whose records are gone.
-/

theorem putInside_assemble (layout : Layout) (e : Element) (inner : ProcessGroup)
    (nested : List ProcessGroup) :
    putInside inner (assemble layout e nested) = assemble layout e (inner :: nested) := rfl

theorem inside_drop_eq_nestedElements {e : Element} {groups : List Gathered} {index : Nat}
    {g : Gathered} (h : GatheredUpTo e groups groups.length)
    (hg : groups[index]? = some g) :
    inside index (groups.drop (index + 1)) = nestedElements g.element := by
  have hlt : index < groups.length := (List.getElem?_eq_some_iff.mp hg).choose
  have hbefore : inside index (groups.take (index + 1)) = [] := by
    apply inside_eq_nil_of_forall
    intro other hmem heq
    rcases List.mem_iff_getElem?.mp hmem with ⟨i, hi⟩
    rw [List.getElem?_take] at hi
    split at hi
    · next hle =>
        by_cases hzero : i = 0
        · subst hzero
          rw [h.first] at hi
          cases hi
          cases heq
        · rcases h.parent_lt i other hi hzero with ⟨p, hp, hpi, _⟩
          rw [heq] at hp
          cases hp
          omega
    · cases hi
  have hall := h.complete index g hg hlt
  rw [← List.take_append_drop (index + 1) groups, inside_append, hbefore,
    List.nil_append] at hall
  exact hall

/-- The records left over hold what has been attached to them. -/
structure AttachedDownTo (layout : Layout) (groups : List Gathered)
    (records : Array ProcessGroup) : Prop where
  size_le : records.size ≤ groups.length
  record : forall (i : Nat) (g : Gathered), groups[i]? = some g -> i < records.size ->
    records[i]? = some (assemble layout g.element
      ((inside i (groups.drop records.size)).map (decodeTree layout)))

theorem attachedDownTo_start (layout : Layout) (groups : Array Gathered) :
    AttachedDownTo layout groups.toList
      (groups.map fun g => assemble layout g.element []) where
  size_le := by simp
  record := by
    intro i g hg _
    have hnone : groups.toList.drop groups.size = [] :=
      List.drop_eq_nil_of_le (Nat.le_of_eq Array.length_toList)
    rw [Array.getElem?_toList] at hg
    rw [Array.size_map, hnone, Array.getElem?_map, hg]
    rfl

/-- The last record holds its group with everything inside it. -/
theorem back?_eq_decodeTree {layout : Layout} {e : Element} {groups : List Gathered}
    {records : Array ProcessGroup} {g : Gathered}
    (hgroups : GatheredUpTo e groups groups.length)
    (h : AttachedDownTo layout groups records) (hpos : 0 < records.size)
    (hg : groups[records.size - 1]? = some g) :
    records.back? = some (decodeTree layout g.element) := by
  have hlast := h.record (records.size - 1) g hg (by omega)
  have hsize : records.size = records.size - 1 + 1 := by omega
  have hinside := inside_drop_eq_nestedElements hgroups hg
  rw [← hsize] at hinside
  rw [Array.back?, hlast, hinside, decodeTree_eq]

theorem attachedDownTo_step {layout : Layout} {groups : List Gathered}
    {records : Array ProcessGroup} {g : Gathered} {parent : Nat}
    (h : AttachedDownTo layout groups records) (hpos : 0 < records.size)
    (hg : groups[records.size - 1]? = some g) (hparent : g.parent = some parent) :
    AttachedDownTo layout groups
      (records.pop.modify parent (putInside (decodeTree layout g.element))) := by
  have hlt : records.size - 1 < groups.length := (List.getElem?_eq_some_iff.mp hg).choose
  have hsize : records.size - 1 + 1 = records.size := by omega
  have hdrop : groups.drop (records.size - 1) = g :: groups.drop records.size := by
    rw [List.drop_eq_getElem_cons hlt, hsize, (List.getElem?_eq_some_iff.mp hg).choose_spec]
  have hg' : g = ⟨g.element, some parent⟩ := by
    rw [← hparent]
  constructor
  · rw [Array.size_modify, Array.size_pop]
    omega
  · intro i other hother hi
    rw [Array.size_modify, Array.size_pop] at hi ⊢
    have hold := h.record i other hother (by omega)
    rw [Array.getElem?_modify, Array.getElem?_pop, if_pos hi, hold, hdrop]
    by_cases heq : parent = i
    · subst heq
      rw [if_pos rfl, hg', inside_cons_self, List.map_cons, ← putInside_assemble]
      rfl
    · rw [if_neg heq, inside_cons_of_ne]
      rw [hparent]
      intro hsome
      exact heq (Option.some.inj hsome)

theorem size_pos_of_back?_eq_some {A : Type} {as : Array A} {a : A}
    (h : as.back? = some a) : 0 < as.size :=
  Nat.lt_of_le_of_lt (Nat.zero_le _) (size_pop_lt_of_back?_eq_some h)

/-- From records that hold what is attached to them, the rest of the way up ends
with the outermost group, and every index on it is in range. -/
theorem attachFrom_eq_some_decodeTree {layout : Layout} {e : Element}
    {groups : Array Gathered} {records : Array ProcessGroup} {root : Option ProcessGroup}
    (hgroups : GatheredUpTo e groups.toList groups.toList.length)
    (h : AttachedDownTo layout groups.toList records)
    (hroot : records.size = 0 -> root = some (decodeTree layout e)) :
    attachFrom groups records root = some (decodeTree layout e) := by
  fun_induction attachFrom groups records root with
  | case1 records root hback =>
      have hempty : records.size = 0 := by
        have hsize := Array.back?_eq_none_iff.mp hback
        rw [hsize]
        rfl
      rw [hroot hempty, Option.getD_some]
  | case2 records root record hback records' hnone =>
      -- The index is in range: there is a gathered group for every record.
      have hpos := size_pos_of_back?_eq_some hback
      have hle := h.size_le
      rw [Array.getElem?_eq_none_iff, Array.size_pop] at hnone
      rw [Array.length_toList] at hle
      omega
  | case3 records root record hback records' element hgroup ih =>
      have hpos := size_pos_of_back?_eq_some hback
      rw [Array.size_pop, ← Array.getElem?_toList] at hgroup
      have hindex : records.size - 1 = 0 := by
        apply Classical.byContradiction
        intro hne
        rcases hgroups.parent_lt _ _ hgroup hne with ⟨p, hp, _⟩
        cases hp
      have hzero : records'.size = 0 := by
        rw [Array.size_pop, hindex]
      apply ih
      · constructor
        · rw [hzero]
          exact Nat.zero_le _
        · intro i g _ hi
          rw [hzero] at hi
          cases hi
      · intro _
        have hrecord := back?_eq_decodeTree hgroups h hpos hgroup
        rw [hback] at hrecord
        rw [hindex, hgroups.first] at hgroup
        cases hgroup
        exact hrecord
  | case4 records root record hback records' element parent hgroup hparent ih =>
      have hpos := size_pos_of_back?_eq_some hback
      rw [Array.size_pop, ← Array.getElem?_toList] at hgroup
      have hrecord := back?_eq_decodeTree hgroups h hpos hgroup
      rw [hback] at hrecord
      cases hrecord
      apply ih
      · exact attachedDownTo_step h hpos hgroup rfl
      · intro hempty
        rw [Array.size_modify] at hempty
        omega
  | case5 records root record hback records' element parent hgroup hparent =>
      -- The index is in range: a group comes after its parent.
      have hpos := size_pos_of_back?_eq_some hback
      rw [Array.size_pop, ← Array.getElem?_toList] at hgroup
      rw [Array.size_pop] at hparent
      have hne : records.size - 1 ≠ 0 := by
        intro hzero
        rw [hzero, hgroups.first] at hgroup
        cases hgroup
      rcases hgroups.parent_lt _ _ hgroup hne with ⟨p, hp, hlt, _⟩
      cases hp
      exact absurd hlt hparent

theorem decode?_eq_some_decodeTree (layout : Layout) (e : Element) :
    decode? layout e = some (decodeTree layout e) := by
  have hgroups := gatheredUpTo_gather e
  rw [← Array.length_toList] at hgroups
  apply attachFrom_eq_some_decodeTree hgroups (attachedDownTo_start layout (gather e))
  intro hempty
  have hfirst := (List.getElem?_eq_some_iff.mp hgroups.first).choose
  rw [Array.length_toList] at hfirst
  rw [Array.size_map] at hempty
  omega

theorem ofElement_eq_decodeTree (layout : Layout) (e : Element) :
    ofElement layout e = decodeTree layout e := by
  rw [ofElement, decode?_eq_some_decodeTree, Option.getD_some]

/-!
# Own declarations

What a group declares itself is read from the children that are not groups.
-/

def withoutGroups (e : Element) : Element :=
  ⟨e.node, e.children.filter fun c => c.name != "processGroup"⟩

theorem childrenNamed_withoutGroups (e : Element) {name : String}
    (h : name ≠ "processGroup") :
    (withoutGroups e).childrenNamed name = e.childrenNamed name := by
  rw [Element.childrenNamed, withoutGroups, Element.childrenNamed, List.filter_filter]
  apply List.filter_congr
  intro c _
  by_cases hname : c.name = name
  · simp [hname, h]
  · simp [hname]

theorem child?_withoutGroups (e : Element) {name : String} (h : name ≠ "processGroup") :
    (withoutGroups e).child? name = e.child? name := by
  rw [Element.child?_eq_head?, Element.child?_eq_head?, childrenNamed_withoutGroups e h]

theorem childText?_withoutGroups (e : Element) {name : String} (h : name ≠ "processGroup") :
    (withoutGroups e).childText? name = e.childText? name := by
  rw [Element.childText?, child?_withoutGroups e h, Element.childText?]

theorem fieldText_withoutGroups (e : Element) {name : String} (h : name ≠ "processGroup") :
    (withoutGroups e).fieldText name = e.fieldText name := by
  rw [Element.fieldText, childText?_withoutGroups e h, Element.fieldText]

theorem assemble_withoutGroups (layout : Layout) (e : Element) (nested : List ProcessGroup) :
    assemble layout (withoutGroups e) nested = assemble layout e nested := by
  simp only [assemble, Element.position?, Element.declaredVariables]
  simp (disch := decide) only [fieldText_withoutGroups, childText?_withoutGroups,
    child?_withoutGroups, childrenNamed_withoutGroups]

/-- Decoding any element as a group gives an answer, so no index is out of
range, and the answer is the one of the recursion over the tree: what the
element declares itself, with the decoded groups inside it in document order. -/
theorem ofElement_follows_tree (layout : Layout) (e : Element) :
    decode? layout e = some (ofElement layout e) ∧
      ofElement layout e = decodeTree layout e ∧
      ofElement layout e = assemble layout (withoutGroups e)
        ((e.childrenNamed "processGroup").map (ofElement layout)) := by
  have hfun : ofElement layout = decodeTree layout :=
    funext fun c => ofElement_eq_decodeTree layout c
  refine ⟨?_, ?_, ?_⟩
  · rw [decode?_eq_some_decodeTree, ofElement_eq_decodeTree]
  · exact ofElement_eq_decodeTree layout e
  · rw [hfun, assemble_withoutGroups]
    exact decodeTree_eq layout e

end ProcessGroup

/-- The root group of a model is decoded from the first element of that name. -/
theorem Model.rootGroup_eq_decodeTree {d : Document} {g : Element}
    (h : d.root.descendant? "rootGroup" = some g) :
    (ofDocument d).rootGroup = some (ProcessGroup.decodeTree (ofDocument d).layout g) := by
  show (d.root.descendant? "rootGroup").map
    (ProcessGroup.ofElement (ofDocument d).layout) = _
  rw [h, Option.map_some, ProcessGroup.ofElement_eq_decodeTree]

end FlowConfig
