import FlowConfig.Flow.Emptiness
import FlowConfig.Proofs.Flow.Approval
import FlowConfig.Proofs.Flow.Templates

/-!
# What an empty verdict says

The verdict that a flow is empty looks at all components of the root group, but
only at the first reporting task and the first controller service of the whole
document.  A named one that comes later goes unseen.
-/

namespace FlowConfig

def Element.isUnnamed (e : Element) : Bool :=
  Text.allBlank (e.fieldText "name")

namespace ProcessGroup

/-- The children that make a group count as not empty. -/
def countedNames : List String :=
  ["processor", "connection", "funnel", "label", "outputPort", "processGroup",
   "remoteProcessGroup"]

theorem isEmpty_decodeTree_iff (layout : Layout) (g : Element) :
    (decodeTree layout g).isEmpty = true <->
      forall name, name ∈ countedNames -> g.childrenNamed name = [] := by
  rw [decodeTree_eq]
  simp [isEmpty, assemble, Contents.isEmpty, countedNames, nestedElements, and_assoc]

end ProcessGroup

namespace Document

variable (d : Document)

/-- The names of what an empty flow may hold only without a name. -/
def configuredNames : List String :=
  ["reportingTask", "controllerService"]

def isNamedAt (place : Nat) : Bool :=
  (d.element? place).any fun e => !e.isUnnamed

/-- The elements with the given element name that are in no template and have a
name of their own. -/
def namedOutside (name : String) : List Nat :=
  (d.placesNamed name).filter fun place => !d.withinTemplate place && d.isNamedAt place

theorem rootGroupEmpty_iff {g : Element} (h : d.root.descendant? "rootGroup" = some g) :
    (Model.ofDocument d).rootGroupEmpty = true <->
      forall name, name ∈ ProcessGroup.countedNames -> g.childrenNamed name = [] := by
  rw [Model.rootGroupEmpty, Model.rootGroup_eq_decodeTree h, Option.all_some,
    ProcessGroup.isEmpty_decodeTree_iff]

theorem all_map_descendant?_iff {A : Type} {f : Element -> A} {p : A -> Bool} {name : String}
    (hp : forall e : Element, p (f e) = e.isUnnamed) (hroot : d.root.name ≠ name) :
    ((d.root.descendant? name).map f).all p = true <->
      forall place, d.first? name = some place -> d.isNamedAt place = false := by
  rw [← d.bind_first?_element? hroot]
  cases d.first? name with
  | none => simp
  | some place =>
      rw [Option.bind_some]
      cases he : d.element? place with
      | none => simp [isNamedAt, he]
      | some e => simp [isNamedAt, he, hp]

/-- A valid flow is empty exactly if its root group has no component that counts,
and the first reporting task and the first controller service, wherever they are,
have no name. -/
theorem isEmpty_ofDocument_iff (h : flowSchema.Admits d.root) :
    (Model.ofDocument d).isEmpty = true <->
      (forall g, g ∈ d.root.childrenNamed "rootGroup" ->
        forall name, name ∈ ProcessGroup.countedNames -> g.childrenNamed name = []) ∧
      forall name, name ∈ configuredNames ->
        forall place, d.first? name = some place -> d.isNamedAt place = false := by
  rcases FlowSchema.exists_rootGroup h with ⟨g, hg, hfirst, _⟩
  have htask : (Model.ofDocument d).reportingTaskEmpty = true <-> _ :=
    d.all_map_descendant?_iff (fun _ => rfl)
      (d.root_name_ne h (show "flowController" ≠ "reportingTask" by decide))
  have hservice : (Model.ofDocument d).controllerServiceEmpty = true <-> _ :=
    d.all_map_descendant?_iff (fun _ => rfl)
      (d.root_name_ne h (show "flowController" ≠ "controllerService" by decide))
  rw [Model.isEmpty, Bool.and_eq_true, Bool.and_eq_true, d.rootGroupEmpty_iff hfirst, htask,
    hservice, hg, List.forall_mem_singleton, configuredNames, List.forall_mem_cons,
    List.forall_mem_singleton, and_assoc]

theorem isEmptyFlow_eq_ok_true_iff {input : Bytes} {d : Document}
    (h : Document.parse input = .ok (some d)) :
    isEmptyFlow input = .ok true <-> (Model.ofDocument d).isEmpty = true := by
  rw [isEmptyFlow, h, Except.ok.injEq]

theorem namedOutside_eq_nil {name : String}
    (honly : forall place, place ∈ d.placesNamed name -> d.withinTemplate place = false ->
      d.first? name = some place)
    (hunnamed : forall place, d.first? name = some place -> d.isNamedAt place = false) :
    d.namedOutside name = [] := by
  rw [namedOutside, List.filter_eq_nil_iff]
  intro place hplace hboth
  rw [Bool.and_eq_true, Bool.not_eq_true'] at hboth
  have hfalse := hunnamed place (honly place hplace hboth.left)
  rw [hboth.right] at hfalse
  cases hfalse

/-- A document is taken for empty exactly if its root group has no component that
counts, and the first reporting task and the first controller service have no
name.  So no named one outside of templates is missed, as long as there is none
after the first of the document. -/
theorem isEmptyFlow_sees_first {input : Bytes} {d : Document}
    (h : Document.parse input = .ok (some d)) :
    (isEmptyFlow input = .ok true <->
      (forall g, g ∈ d.root.childrenNamed "rootGroup" ->
        forall name, name ∈ ProcessGroup.countedNames -> g.childrenNamed name = []) ∧
      forall name, name ∈ configuredNames ->
        forall place, d.first? name = some place -> d.isNamedAt place = false) ∧
    (isEmptyFlow input = .ok true ->
      forall name, name ∈ configuredNames ->
        (forall place, place ∈ d.placesNamed name -> d.withinTemplate place = false ->
          d.first? name = some place) ->
            d.namedOutside name = []) := by
  have hiff := (isEmptyFlow_eq_ok_true_iff h).trans (d.isEmpty_ofDocument_iff (admits_of_parse h))
  refine ⟨hiff, ?_⟩
  intro hempty name hname honly
  exact d.namedOutside_eq_nil honly ((hiff.mp hempty).right name hname)

def flowWithTasks (names : List String) : Bytes :=
  let task (name : String) :=
    "<reportingTask><id/><name>" ++ name ++ "</name><class/></reportingTask>"
  Utf8.encode ("<flowController><rootGroup><id/><name/></rootGroup><reportingTasks>" ++
    String.join (names.map task) ++ "</reportingTasks></flowController>").toList

theorem exists_parsed_of_any {input : Bytes} {p : Document -> Bool}
    (h : (parse input).toOption.join.any p = true) :
    exists d, parse input = .ok (some d) ∧ p d = true := by
  rcases (Option.any_eq_true _ _).mp h with ⟨d, hd, hp⟩
  refine ⟨d, ?_, hp⟩
  cases hparse : parse input with
  | error issue =>
      rw [hparse] at hd
      cases hd
  | ok parsed =>
      rw [hparse] at hd
      exact congrArg Except.ok hd

theorem isEmptyFlow_sees_first_flowWithTasks :
    exists d, parse (flowWithTasks [" "]) = .ok (some d) ∧
      isEmptyFlow (flowWithTasks [" "]) = .ok true ∧
      d.placesNamed "reportingTask" ≠ [] ∧ d.namedOutside "reportingTask" = [] := by
  have hparsed : (parse (flowWithTasks [" "])).toOption.join.any (fun d =>
      decide ((Model.ofDocument d).isEmpty = true ∧ d.placesNamed "reportingTask" ≠ [] ∧
        forall place, place ∈ d.placesNamed "reportingTask" ->
          d.withinTemplate place = false -> d.first? "reportingTask" = some place)) = true := by
    decide +kernel
  rcases exists_parsed_of_any hparsed with ⟨d, hd, hdecided⟩
  rcases of_decide_eq_true hdecided with ⟨hmodel, hnonempty, honly⟩
  have hempty := (isEmptyFlow_eq_ok_true_iff hd).mpr hmodel
  exact ⟨d, hd, hempty, hnonempty,
    (isEmptyFlow_sees_first hd).right hempty "reportingTask" (by decide) honly⟩

/-- A named task that comes after one without a name does not count. -/
theorem isEmptyFlow_misses_second_task :
    exists d, parse (flowWithTasks ["", "Monitor"]) = .ok (some d) ∧
      isEmptyFlow (flowWithTasks ["", "Monitor"]) = .ok true ∧
      d.namedOutside "reportingTask" ≠ [] := by
  have hparsed : (parse (flowWithTasks ["", "Monitor"])).toOption.join.any (fun d =>
      decide ((Model.ofDocument d).isEmpty = true ∧
        d.namedOutside "reportingTask" ≠ [])) = true := by
    decide +kernel
  rcases exists_parsed_of_any hparsed with ⟨d, hd, hdecided⟩
  rcases of_decide_eq_true hdecided with ⟨hmodel, hnamed⟩
  exact ⟨d, hd, (isEmptyFlow_eq_ok_true_iff hd).mpr hmodel, hnamed⟩

end Document
end FlowConfig
