import FlowConfig.Proofs.Flow.LiveGroups
import Mathlib.Data.List.Induction
import Mathlib.Data.List.Nodup

/-!
# Properties and variables

Properties of components and variables of groups are decoded into dictionaries.  Every
name that occurs has one entry, at the place where it occurs first and with the value it
has last.
-/

namespace FlowConfig

/-!
# Dictionaries made from entries
-/

namespace Dictionary

variable {A : Type} {d : Dictionary A} {entries : List (String × A)} {key : String} {value : A}

/-- The entry is in the list, and no later one has its key. -/
def IsLast (entries : List (String × A)) (key : String) (value : A) : Prop :=
  exists before after, entries = before ++ (key, value) :: after ∧ key ∉ after.map Prod.fst

/-- The dictionary has each key of the entries once, in the order in which the keys first
occur, and under each key the value of its last entry. -/
structure Collects (d : Dictionary A) (entries : List (String × A)) : Prop where
  nodup : d.keys.Nodup
  keys_eq : d.keys = (entries.map Prod.fst).eraseDups
  mem_iff : forall key value, (key, value) ∈ d.entries <-> IsLast entries key value

theorem isLast_concat {other : String × A} :
    IsLast (entries ++ [other]) key value <->
      (key, value) = other ∨ key ≠ other.1 ∧ IsLast entries key value := by
  constructor
  · rintro ⟨before, after, happend, hnot⟩
    cases after using List.reverseRecOn with
    | nil => exact Or.inl (List.append_singleton_inj.mp happend).right.symm
    | append_singleton init last =>
        rw [← List.cons_append, ← List.append_assoc, List.append_singleton_inj] at happend
        rcases happend with ⟨hentries, rfl⟩
        rw [List.map_append, List.mem_append, not_or] at hnot
        exact Or.inr ⟨fun heq => hnot.right (List.mem_singleton.mpr heq), before, init,
          hentries, hnot.left⟩
  · rintro (rfl | ⟨hne, before, after, rfl, hnot⟩)
    · exact ⟨entries, [], rfl, List.not_mem_nil⟩
    · refine ⟨before, after ++ [other], ?_, ?_⟩
      · rw [List.append_assoc, List.cons_append]
      · rw [List.map_append, List.mem_append, not_or]
        exact ⟨hnot, fun hmem => hne (List.mem_singleton.mp hmem)⟩

theorem mem_insertEntry {es : List (String × A)} {newKey : String} {newValue : A}
    (h : (es.map Prod.fst).Nodup) :
    (key, value) ∈ insertEntry newKey newValue es <->
      (key, value) = (newKey, newValue) ∨ key ≠ newKey ∧ (key, value) ∈ es := by
  induction es with
  | nil => simp [insertEntry]
  | cons entry rest ih =>
      rw [List.map_cons, List.nodup_cons] at h
      rcases h with ⟨hnot, hrest⟩
      by_cases hkey : entry.1 = newKey
      · -- The keys behind are others, so nothing else is lost.
        have hother : (key, value) ∈ rest -> key ≠ newKey := by
          rintro hmem rfl
          exact hnot (hkey ▸ List.mem_map_of_mem hmem)
        have hfirst : (key, value) = entry -> key = newKey := by
          rintro rfl
          exact hkey
        rw [insertEntry, if_pos hkey, List.mem_cons, List.mem_cons]
        tauto
      · have hfirst : (key, value) = entry -> key ≠ newKey := by
          rintro rfl
          exact hkey
        rw [insertEntry, if_neg hkey, List.mem_cons, List.mem_cons, ih hrest]
        tauto

theorem ofList_concat (entries : List (String × A)) (entry : String × A) :
    ofList (entries ++ [entry]) = (ofList entries).insert entry.1 entry.2 := by
  rw [ofList, List.foldl_append]
  rfl

theorem eraseDups_concat (names : List String) (name : String) :
    (names ++ [name]).eraseDups =
      if name ∈ names.eraseDups then names.eraseDups else names.eraseDups ++ [name] := by
  rw [List.eraseDups_append]
  by_cases h : name ∈ names
  · simp [h, List.removeAll]
  · simp [h, List.removeAll, List.eraseDups_cons]

theorem Collects.insert (h : d.Collects entries) (entry : String × A) :
    (d.insert entry.1 entry.2).Collects (entries ++ [entry]) where
  nodup := by
    rw [keys_insert]
    split
    · exact h.nodup
    · next hnot =>
        exact List.nodup_append'.mpr ⟨h.nodup, List.nodup_singleton _,
          List.disjoint_singleton.mpr hnot⟩
  keys_eq := by
    rw [keys_insert, List.map_append, List.map_singleton, eraseDups_concat, h.keys_eq]
  mem_iff := by
    intro key value
    rw [isLast_concat, ← h.mem_iff]
    exact mem_insertEntry h.nodup

theorem collects_ofList (entries : List (String × A)) : (ofList entries).Collects entries := by
  induction entries using List.reverseRecOn with
  | nil =>
      constructor
      · exact List.nodup_nil
      · rfl
      · intro key value
        refine ⟨fun h => absurd h List.not_mem_nil, ?_⟩
        rintro ⟨before, after, hnil, _⟩
        cases before <;> cases hnil
  | append_singleton init entry ih =>
      rw [ofList_concat]
      exact ih.insert entry

example : (ofList [("a", 1), ("b", 2), ("a", 3)]).entries = [("a", 3), ("b", 2)] := by
  decide

end Dictionary

/-!
# Entries of elements
-/

namespace Element

inductive HasFirstText (e : Element) (name : String) : Option String -> Prop where
  | missing : e.childrenNamed name = [] -> HasFirstText e name none
  | first {c : Element} {rest : List Element} :
      e.childrenNamed name = c :: rest -> HasFirstText e name (some c.text)

/-- What a property element declares: the texts of its name and value children.  Without a
name child the name is empty, and without a value child the value is unset. -/
structure IsProperty (p : Element) (entry : String × Option String) : Prop where
  name : exists label, p.HasFirstText "name" label ∧ label.getD "" = entry.1
  value : p.HasFirstText "value" entry.2

structure IsVariable (v : Element) (entry : String × Option String) : Prop where
  name : v.attribute? "name" = some entry.1
  value : v.attribute? "value" = entry.2

/-- The properties are those that the property children declare. -/
def HasProperties (e : Element) (properties : Properties) : Prop :=
  exists entries, List.Forall₂ IsProperty (e.childrenNamed "property") entries ∧
    properties.Collects entries

def HasVariables (e : Element) (declared : Properties) : Prop :=
  exists entries,
    List.Forall₂ IsVariable
      ((e.childrenNamed "variable").filter fun v => (v.attribute? "name").isSome) entries ∧
    declared.Collects entries

theorem hasFirstText_childText? (e : Element) (name : String) :
    e.HasFirstText name (e.childText? name) := by
  rw [childText?, child?_eq_head?]
  cases h : e.childrenNamed name with
  | nil => exact .missing h
  | cons c rest => exact .first h

theorem isProperty_of_texts (p : Element) :
    p.IsProperty (p.fieldText "name", p.childText? "value") where
  name := ⟨p.childText? "name", hasFirstText_childText? p "name", rfl⟩
  value := hasFirstText_childText? p "value"

theorem hasProperties_properties (e : Element) : e.HasProperties e.properties := by
  refine ⟨_, ?_, Dictionary.collects_ofList _⟩
  rw [List.forall₂_map_right_iff, List.forall₂_same]
  exact fun p _ => isProperty_of_texts p

theorem forall₂_variables (vs : List Element) :
    List.Forall₂ IsVariable (vs.filter fun v => (v.attribute? "name").isSome)
      (vs.filterMap fun v =>
        (v.attribute? "name").map fun name => (name, v.attribute? "value")) := by
  induction vs with
  | nil => exact .nil
  | cons v rest ih =>
      cases hname : v.attribute? "name" with
      | none =>
          rw [List.filter_cons_of_neg (by simp [hname]),
            List.filterMap_cons_none (by rw [hname]; rfl)]
          exact ih
      | some name =>
          rw [List.filter_cons_of_pos (by simp [hname]),
            List.filterMap_cons_some (by rw [hname]; rfl)]
          exact .cons ⟨hname, rfl⟩ ih

theorem hasVariables_declaredVariables (e : Element) :
    e.HasVariables e.declaredVariables :=
  ⟨_, forall₂_variables _, Dictionary.collects_ofList _⟩

end Element

/-!
# Records
-/

structure Contents.HasMaps (e : Element) (c : Contents) : Prop where
  processors : List.Forall₂ (fun x (p : Processor) => x.HasProperties p.properties)
    (e.childrenNamed "processor") c.processors
  controllerServices :
    List.Forall₂ (fun x (s : ControllerService) => x.HasProperties s.properties)
      (e.childrenNamed "controllerService") c.controllerServices

structure ProcessGroup.HasMaps (e : Element) (g : ProcessGroup) : Prop where
  declaredVariables : e.HasVariables g.declaredVariables
  contents : exists c, g.contents = some c ∧ c.HasMaps e

theorem ProcessGroup.hasMaps_decodeTree (e : Element) :
    (decodeTree .v1Variables e).HasMaps e := by
  have hproperties : forall es : List Element, forall x, x ∈ es -> x.HasProperties x.properties :=
    fun _ x _ => x.hasProperties_properties
  rw [decodeTree_eq]
  constructor
  · exact Element.hasVariables_declaredVariables e
  · refine ⟨_, rfl, ?_, ?_⟩
    · rw [List.forall₂_map_right_iff, List.forall₂_same]
      exact hproperties _
    · show List.Forall₂ _ _
        ((e.childrenNamed "controllerService").map ControllerService.ofElement)
      rw [List.forall₂_map_right_iff, List.forall₂_same]
      exact hproperties _

/-- Whatever component an element is decoded as, and whatever group in the layout that has
variables: the record has each declared name once, in the order in which the names first
occur, with the value that was declared last.  The same holds in all groups inside, to any
depth. -/
theorem decoded_maps_keep_first_places (e : Element) :
    e.HasProperties (Processor.ofElement e).properties ∧
      e.HasProperties (ReportingTask.ofElement e).properties ∧
      e.HasProperties (ControllerService.ofElement e).properties ∧
      (ProcessGroup.ofElement .v1Variables e).Mirrors ProcessGroup.HasMaps e := by
  have hproperties := Element.hasProperties_properties e
  refine ⟨hproperties, hproperties, hproperties, ?_⟩
  rw [ProcessGroup.ofElement_eq_decodeTree]
  exact ProcessGroup.decodeTree_mirrors (P := fun _ => True) (fun _ _ _ _ => trivial)
    (fun x _ => ProcessGroup.hasMaps_decodeTree x) trivial

end FlowConfig
