import FlowConfig.Proofs.Schema.Typing

/-!
# Which violation is reported

Validation checks an element when it comes to it, and reports the first element
that fails.  The types of its children it looks up right then, the last child
first, so a child whose type is not defined is reported before anything in front
of it among its siblings has been looked at.
-/

namespace FlowConfig
namespace Schema

variable {s : Schema} {e : Element} {v : Violation}

/-!
# Rows of typed elements
-/

theorem forall_typed_cons {P : Element -> String -> Prop} {p : Element} {m : String}
    {typed : List (Element × String)} (hfirst : P p m)
    (hrest : forall x k, (x, k) ∈ typed -> P x k) :
    forall x k, (x, k) ∈ (p, m) :: typed -> P x k := by
  intro x k hmem
  rcases List.mem_cons.mp hmem with heq | hbehind
  · cases heq
    exact hfirst
  · exact hrest x k hbehind

theorem forall_typed_append {P : Element -> String -> Prop}
    {front behind : List (Element × String)} (hfront : forall x k, (x, k) ∈ front -> P x k)
    (hbehind : forall x k, (x, k) ∈ behind -> P x k) :
    forall x k, (x, k) ∈ front ++ behind -> P x k := by
  intro x k hmem
  rcases List.mem_append.mp hmem with hmem | hmem
  · exact hfront x k hmem
  · exact hbehind x k hmem

/-!
# Looking up the types of children
-/

theorem exists_of_resolveFrom_eq_error {done : List (Element × ElementType)}
    {typed : List (Element × String)} (h : s.resolveFrom done typed = .error (e, v)) :
    exists later n earlier, typed = later ++ (e, n) :: earlier ∧ s.type? n = none ∧
      v = .unknownType n ∧ forall x k, (x, k) ∈ later -> exists t, s.type? k = some t := by
  induction typed generalizing done with
  | nil => cases h
  | cons entry rest ih =>
      obtain ⟨c, childType⟩ := entry
      rw [resolveFrom] at h
      split at h
      · next hnone =>
          cases h
          exact ⟨[], childType, rest, rfl, hnone, rfl, fun _ _ hmem => by cases hmem⟩
      · next t htype =>
          rcases ih h with ⟨later, n, earlier, rfl, hnone, hv, hlater⟩
          exact ⟨(c, childType) :: later, n, earlier, rfl, hnone, hv,
            forall_typed_cons ⟨t, htype⟩ hlater⟩

theorem exists_of_resolveTypes_eq_error {typed : List (Element × String)}
    (h : s.resolveTypes typed = .error (e, v)) :
    exists earlier n later, typed = earlier ++ (e, n) :: later ∧ s.type? n = none ∧
      v = .unknownType n ∧ forall x k, (x, k) ∈ later -> exists t, s.type? k = some t := by
  rcases exists_of_resolveFrom_eq_error h with ⟨later, n, earlier, hsplit, hnone, hv, hlater⟩
  refine ⟨earlier.reverse, n, later.reverse, ?_, hnone, hv, ?_⟩
  · rw [← List.reverse_reverse typed, hsplit]
    simp
  · intro x k hmem
    exact hlater x k (List.mem_reverse.mp hmem)

/-!
# Reports out of order
-/

/-- A child whose type is not defined.  The element around it suits its type, as do
all elements listed before that one, and the children behind it have defined
types.  In front of it stand the children in `passed`, and what is reached inside
of them. -/
inductive UndefinedChild (s : Schema) :
    List (Element × String) -> List (Element × String) -> Element -> Violation -> Prop where
  | intro (before : List (Element × String)) {after earlier later : List (Element × String)}
      {p c : Element} {m n : String} :
      (forall x k, (x, k) ∈ before -> s.Suits x k) -> s.Suits p m ->
      s.assignedChildren p m = earlier ++ (c, n) :: later -> s.type? n = none ->
      (forall x k, (x, k) ∈ later -> exists t, s.type? k = some t) ->
      UndefinedChild s (before ++ (p, m) :: (s.typingsIn earlier ++ (c, n) :: after)) earlier c
        (.unknownType n)

theorem firstFault_cons {listed : List (Element × String)} {p : Element} {m : String}
    (hp : s.Suits p m) (h : s.FirstFault listed e v) : s.FirstFault ((p, m) :: listed) e v := by
  rcases h with ⟨before, n, after, rfl, hfault, hbefore⟩
  exact ⟨(p, m) :: before, n, after, rfl, hfault, forall_typed_cons hp hbefore⟩

theorem undefinedChild_cons {listed passed : List (Element × String)} {p : Element}
    {m : String} (hp : s.Suits p m) (h : s.UndefinedChild listed passed e v) :
    s.UndefinedChild ((p, m) :: listed) passed e v := by
  cases h with
  | intro before hbefore hparent hassigned hnone hlater =>
      exact UndefinedChild.intro ((p, m) :: before) (forall_typed_cons hp hbefore) hparent
        hassigned hnone hlater

theorem firstFault_of_undefinedChild {listed passed : List (Element × String)}
    (h : s.UndefinedChild listed passed e v)
    (hpassed : forall x k, (x, k) ∈ s.typingsIn passed -> s.Suits x k) :
    s.FirstFault listed e v := by
  cases h with
  | intro before hbefore hparent hassigned hnone hlater =>
      rename_i after later p m n
      refine ⟨before ++ (p, m) :: s.typingsIn passed, n, after, ?_, Fault.undefined hnone, ?_⟩
      · rw [List.append_assoc, List.cons_append]
      · exact forall_typed_append hbefore (forall_typed_cons hparent hpassed)

theorem unknownType_of_undefinedChild {listed passed : List (Element × String)}
    (h : s.UndefinedChild listed passed e v) : exists n, v = .unknownType n := by
  cases h with
  | intro => exact ⟨_, rfl⟩

theorem not_closed_of_undefinedChild {listed passed : List (Element × String)}
    (h : s.UndefinedChild listed passed e v) : ¬ s.Closed := by
  intro hclosed
  cases h with
  | intro _ _ _ hassigned hnone _ =>
      have hmem : (e, _) ∈ s.assignedChildren _ _ :=
        hassigned ▸ List.mem_append_right _ List.mem_cons_self
      rcases defined_of_mem_assignedChildren hclosed hmem with ⟨t, ht⟩
      rw [hnone] at ht
      cases ht

/-!
# The walk
-/

theorem exists_of_resolved_eq_cons {names : List (Element × String)} {t : ElementType}
    {rest : List (Element × ElementType)}
    (hdefined : forall x k, (x, k) ∈ names -> exists u, s.type? k = some u)
    (h : s.resolved names = (e, t) :: rest) :
    exists n behind, names = (e, n) :: behind ∧ s.type? n = some t ∧
      rest = s.resolved behind := by
  cases names with
  | nil => cases h
  | cons entry behind =>
      obtain ⟨c, n⟩ := entry
      rcases hdefined c n List.mem_cons_self with ⟨u, hu⟩
      simp only [resolved, List.filterMap_cons, hu, Option.map_some, List.cons.injEq] at h
      rcases h with ⟨heq, hrest⟩
      cases heq
      exact ⟨n, behind, rfl, hu, hrest.symm⟩

/-- What validation reports of elements whose types are defined: the first violation
in document order, unless it meets a child without a defined type before. -/
theorem fault_of_validateFrom {names : List (Element × String)}
    {pending : List (Element × ElementType)} (hpending : s.resolved names = pending)
    (hdefined : forall x k, (x, k) ∈ names -> exists t, s.type? k = some t)
    (h : s.validateFrom pending = .error (e, v)) :
    s.FirstFault (s.typingsIn names) e v ∨
      exists passed, s.UndefinedChild (s.typingsIn names) passed e v := by
  fun_induction validateFrom s pending generalizing names with
  | case1 => cases h
  | case2 p t rest w hcheck =>
      cases h
      rcases exists_of_resolved_eq_cons hdefined hpending with ⟨n, behind, rfl, htype, _⟩
      rw [typingsIn_cons]
      exact Or.inl ⟨[], n, _, rfl, Fault.unfit htype hcheck, fun _ _ hmem => by cases hmem⟩
  | case3 p t rest typed hcheck fault hresolve =>
      cases h
      rcases exists_of_resolved_eq_cons hdefined hpending with ⟨m, behind, rfl, htype, _⟩
      rcases Element.check_eq_ok_iff.mp hcheck with ⟨hfits, rfl⟩
      rcases exists_of_resolveTypes_eq_error hresolve with
        ⟨earlier, n, later, hsplit, hnone, rfl, hlater⟩
      have hassigned := (assignedChildren_eq p htype).trans hsplit
      rw [typingsIn_cons, hassigned, typingsIn_append, typingsIn_cons]
      simp only [List.append_assoc, List.cons_append]
      exact Or.inr ⟨earlier, UndefinedChild.intro [] (fun _ _ hmem => by cases hmem)
        ⟨t, htype, hfits⟩ hassigned hnone hlater⟩
  | case4 p t rest typed hcheck tasks hresolve ih =>
      rcases exists_of_resolved_eq_cons hdefined hpending with ⟨m, behind, rfl, htype, rfl⟩
      rcases Element.check_eq_ok_iff.mp hcheck with ⟨hfits, rfl⟩
      rcases resolveTypes_eq_ok_iff.mp hresolve with ⟨hchildren, rfl⟩
      have hsuits : s.Suits p m := ⟨t, htype, hfits⟩
      have hnames : s.resolved (p.governedChildren t ++ behind) =
          s.resolved (p.governedChildren t) ++ s.resolved behind := List.filterMap_append
      have hall : forall x k, (x, k) ∈ p.governedChildren t ++ behind ->
          exists u, s.type? k = some u :=
        forall_typed_append hchildren fun x k hmem => hdefined x k (List.mem_cons_of_mem _ hmem)
      have htail := ih hnames hall h
      rw [typingsIn_append] at htail
      rw [typingsIn_cons, assignedChildren_eq p htype]
      rcases htail with hfirst | ⟨passed, hundefined⟩
      · exact Or.inl (firstFault_cons hsuits hfirst)
      · exact Or.inr ⟨passed, undefinedChild_cons hsuits hundefined⟩

theorem typingsIn_singleton (s : Schema) (e : Element) (typeName : String) :
    s.typingsIn [(e, typeName)] = s.typings e typeName := by
  rw [typingsIn, List.flatMap_cons, List.flatMap_nil, List.append_nil]

/-- What validation reports of a document. -/
theorem violation_of_validate {root : Element} (h : s.validate root = .error (e, v)) :
    s.FirstViolation root e v ∨
      root.name = s.rootName ∧ root.uri = none ∧
        exists passed, s.UndefinedChild (s.typings root s.rootType) passed e v := by
  rw [validate] at h
  split at h
  · next hroot =>
      rcases hroot with ⟨hname, huri⟩
      split at h
      · next hnone =>
          cases h
          refine Or.inl (.inside hname huri ?_)
          rw [typings_eq]
          exact ⟨[], s.rootType, _, rfl, Fault.undefined hnone, fun _ _ hmem => by cases hmem⟩
      · next t htype =>
          have hpending : s.resolved [(root, s.rootType)] = [(root, t)] := by
            simp [resolved, htype]
          have hreport := fault_of_validateFrom hpending
            (fun x k hmem => by cases List.mem_singleton.mp hmem; exact ⟨t, htype⟩) h
          rw [typingsIn_singleton] at hreport
          rcases hreport with hfirst | hundefined
          · exact Or.inl (.inside hname huri hfirst)
          · exact Or.inr ⟨hname, huri, hundefined⟩
  · next hother =>
      cases h
      exact Or.inl (.unexpectedRoot hother)

theorem firstViolation_of_closed {root : Element} (hclosed : s.Closed)
    (h : s.validate root = .error (e, v)) : s.FirstViolation root e v := by
  rcases violation_of_validate h with hfirst | ⟨_, _, _, hundefined⟩
  · exact hfirst
  · exact absurd hclosed (not_closed_of_undefinedChild hundefined)

/-- What validation reports of a document, for any schema.  It is the first
violation in document order, or a child whose type is not defined although
something in front of it among its siblings, or inside of one of these, is in
violation too.  The second is not possible where every type that is named is
defined, and not for any other violation than an undefined type. -/
theorem validate_reports_first_violation {root : Element} (h : s.validate root = .error (e, v)) :
    List.Sublist ((s.typings root s.rootType).map Prod.fst) root.elements ∧
      (s.FirstViolation root e v ∨
        exists passed, s.UndefinedChild (s.typings root s.rootType) passed e v ∧
          exists x k, (x, k) ∈ s.typingsIn passed ∧ ¬ s.Suits x k) ∧
      (s.Closed -> s.FirstViolation root e v) ∧
      ((forall n, v ≠ .unknownType n) -> s.FirstViolation root e v) := by
  refine ⟨s.map_fst_typings_sublist root s.rootType, ?_, ?_, ?_⟩
  · rcases violation_of_validate h with hfirst | ⟨hname, huri, passed, hundefined⟩
    · exact Or.inl hfirst
    · by_cases hpassed : forall x k, (x, k) ∈ s.typingsIn passed -> s.Suits x k
      · exact Or.inl (.inside hname huri (firstFault_of_undefinedChild hundefined hpassed))
      · rcases Classical.not_forall.mp hpassed with ⟨x, hx⟩
        rcases Classical.not_forall.mp hx with ⟨k, hk⟩
        rcases Classical.not_forall.mp hk with ⟨hmem, hnot⟩
        exact Or.inr ⟨passed, hundefined, x, k, hmem, hnot⟩
  · intro hclosed
    exact firstViolation_of_closed hclosed h
  · intro hother
    rcases violation_of_validate h with hfirst | ⟨_, _, passed, hundefined⟩
    · exact hfirst
    · rcases unknownType_of_undefinedChild hundefined with ⟨n, hn⟩
      exact absurd hn (hother n)

/-!
A group with an identifier and a name, under a schema that does not define the types
of these two, and under one that does.
-/

theorem validateFrom_cons {t : ElementType} {rest tasks : List (Element × ElementType)}
    {typed : List (Element × String)} (hcheck : e.check t = .ok typed)
    (hresolve : s.resolveTypes typed = .ok tasks) :
    s.validateFrom ((e, t) :: rest) = s.validateFrom (tasks ++ rest) := by
  rw [validateFrom]
  split
  · next herror =>
      rw [hcheck] at herror
      cases herror
  · next hok =>
      rw [hcheck] at hok
      cases hok
      split
      · next herror =>
          rw [hresolve] at herror
          cases herror
      · next hok =>
          rw [hresolve] at hok
          cases hok
          rfl

def draftId : Element :=
  ⟨⟨"id", none, [], "r", ⟨2, 52⟩⟩, []⟩

def draftName : Element :=
  ⟨⟨"name", none, [], "n", ⟨3, 62⟩⟩, []⟩

def draftGroup : Element :=
  ⟨⟨"rootGroup", none, [], "", ⟨1, 41⟩⟩, [draftId, draftName]⟩

def draftControllerType : ElementType :=
  ⟨"ControllerType", [AttributeDeclaration.allowed "encoding-version" .string],
    .elements [ChildDeclaration.one "rootGroup" "GroupType"]⟩

def draftGroupType : ElementType :=
  ⟨"GroupType", [],
    .elements [ChildDeclaration.one "id" "IdType", ChildDeclaration.one "name" "NameType"]⟩

def unfinished : Schema :=
  (new "1" "flowController" "ControllerType").withTypes [draftControllerType, draftGroupType]

def finished : Schema :=
  unfinished.withTypes [⟨"IdType", [], .text .integer⟩, ⟨"NameType", [], .text .string⟩]

theorem validate_reports_first_violation_finished :
    finished.validate draftController = .error (draftId, .invalidText "id" .integer "r") ∧
      finished.FirstViolation draftController draftId (.invalidText "id" .integer "r") := by
  have hvalidate : finished.validate draftController =
      .error (draftId, .invalidText "id" .integer "r") := by
    have hgroup : finished.resolveTypes [(draftGroup, "GroupType")] =
        .ok [(draftGroup, draftGroupType)] := rfl
    have hleaves : finished.resolveTypes [(draftId, "IdType"), (draftName, "NameType")] =
        .ok [(draftId, ⟨"IdType", [], .text .integer⟩),
          (draftName, ⟨"NameType", [], .text .string⟩)] := rfl
    calc finished.validate draftController
        = finished.validateFrom [(draftController, draftControllerType)] := rfl
      _ = finished.validateFrom [(draftGroup, draftGroupType)] := validateFrom_cons rfl hgroup
      _ = finished.validateFrom [(draftId, ⟨"IdType", [], .text .integer⟩),
            (draftName, ⟨"NameType", [], .text .string⟩)] := validateFrom_cons rfl hleaves
      _ = .error (draftId, .invalidText "id" .integer "r") := by
          rw [validateFrom]
          rfl
  have hother : forall n, Violation.invalidText "id" .integer "r" ≠ .unknownType n := by
    intro n h
    cases h
  exact ⟨hvalidate, (validate_reports_first_violation hvalidate).right.right.right hother⟩

/-- The name of the group is reported, and the identifier in front of it has no
defined type either. -/
theorem validate_passes_over_undefined_sibling :
    unfinished.validate draftController = .error (draftName, .unknownType "NameType") ∧
      unfinished.typings draftController unfinished.rootType =
        [(draftController, "ControllerType"), (draftGroup, "GroupType"),
          (draftId, "IdType"), (draftName, "NameType")] ∧
      unfinished.Fault draftId "IdType" (.unknownType "IdType") ∧
      ¬ unfinished.Suits draftId "IdType" := by
  have hnone : unfinished.type? "IdType" = none := by decide
  refine ⟨?_, ?_, Fault.undefined hnone, not_suits_of_undefined hnone⟩
  · have hgroup : unfinished.resolveTypes [(draftGroup, "GroupType")] =
        .ok [(draftGroup, draftGroupType)] := rfl
    calc unfinished.validate draftController
        = unfinished.validateFrom [(draftController, draftControllerType)] := rfl
      _ = unfinished.validateFrom [(draftGroup, draftGroupType)] := validateFrom_cons rfl hgroup
      _ = .error (draftName, .unknownType "NameType") := by
          rw [validateFrom]
          rfl
  · have hroot : unfinished.assignedChildren draftController unfinished.rootType =
        [(draftGroup, "GroupType")] := rfl
    have hgroup : unfinished.assignedChildren draftGroup "GroupType" =
        [(draftId, "IdType"), (draftName, "NameType")] := rfl
    have hid : unfinished.assignedChildren draftId "IdType" = [] := rfl
    have hdraftName : unfinished.assignedChildren draftName "NameType" = [] := rfl
    rw [← typingsIn_singleton]
    simp only [typingsIn_cons, hroot, hgroup, hid, hdraftName]
    rfl

end Schema
end FlowConfig
