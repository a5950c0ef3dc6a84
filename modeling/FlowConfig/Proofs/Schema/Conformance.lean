import FlowConfig.Proofs.Schema.Fitting

/-!
# Conformance to a schema

An element conforms to a type when it fits the type and its governed children
conform to theirs.  Validation, which keeps its work on a list, accepts exactly
the documents that conform.
-/

namespace FlowConfig
namespace Schema

/-- An element conforms to the type of a name.  Children in open content are not
asked about. -/
inductive Conforms (s : Schema) : Element -> String -> Prop where
  | intro {e : Element} {typeName : String} {t : ElementType} :
      s.type? typeName = some t ->
      e.Fits t ->
      (forall declarations, t.content = .elements declarations ->
        forall c, c ∈ e.children ->
          forall (i : Nat) (d : ChildDeclaration), Element.BelongsTo declarations i c ->
            declarations[i]? = some d -> Conforms s c d.typeName) ->
      Conforms s e typeName

structure Admits (s : Schema) (root : Element) : Prop where
  name_eq : root.name = s.rootName
  uri_eq : root.uri = none
  conforms : s.Conforms root s.rootType

/-- Conformance to a type that is at hand. -/
def ConformsTo (s : Schema) (e : Element) (t : ElementType) : Prop :=
  e.Fits t ∧ forall c typeName, (c, typeName) ∈ e.governedChildren t -> s.Conforms c typeName

theorem conforms_iff {s : Schema} {e : Element} {typeName : String} :
    s.Conforms e typeName <-> exists t, s.type? typeName = some t ∧ s.ConformsTo e t := by
  constructor
  · intro h
    cases h with
    | intro htype hfits hchildren =>
        rename_i t
        refine ⟨t, htype, hfits, ?_⟩
        intro c childType hmem
        rw [Element.governedChildren] at hmem
        split at hmem
        · next declarations hcontent =>
            rcases Element.mem_typedBy_iff.mp hmem with ⟨hc, i, d, hi, hd, rfl⟩
            exact hchildren declarations hcontent c hc i d hi hd
        · cases hmem
  · rintro ⟨t, htype, hfits, hchildren⟩
    apply Conforms.intro htype hfits
    intro declarations hcontent c hc i d hi hd
    apply hchildren
    rw [Element.governedChildren, hcontent]
    exact Element.mem_typedBy_iff.mpr ⟨hc, i, d, hi, hd, rfl⟩

/-!
# Types by name
-/

def resolved (s : Schema) (typed : List (Element × String)) : List (Element × ElementType) :=
  typed.filterMap fun entry => (s.type? entry.2).map fun t => (entry.1, t)

theorem mem_resolved_iff {s : Schema} {typed : List (Element × String)} {e : Element}
    {t : ElementType} :
    (e, t) ∈ s.resolved typed <->
      exists typeName, (e, typeName) ∈ typed ∧ s.type? typeName = some t := by
  simp only [resolved, List.mem_filterMap, Option.map_eq_some_iff]
  constructor
  · rintro ⟨⟨other, typeName⟩, hmem, u, htype, heq⟩
    cases heq
    exact ⟨typeName, hmem, htype⟩
  · rintro ⟨typeName, hmem, htype⟩
    exact ⟨(e, typeName), hmem, t, htype, rfl⟩

theorem resolveFrom_eq_ok_iff {s : Schema} {done tasks : List (Element × ElementType)}
    {typed : List (Element × String)} :
    s.resolveFrom done typed = .ok tasks <->
      (forall e typeName, (e, typeName) ∈ typed -> exists t, s.type? typeName = some t) ∧
        tasks = s.resolved typed.reverse ++ done := by
  induction typed generalizing done with
  | nil => simp [resolveFrom, resolved, eq_comm]
  | cons entry before ih =>
      obtain ⟨e, typeName⟩ := entry
      rw [resolveFrom]
      cases htype : s.type? typeName with
      | none =>
          constructor
          · intro h
            cases h
          · rintro ⟨hall, _⟩
            rcases hall e typeName List.mem_cons_self with ⟨t, ht⟩
            rw [htype] at ht
            cases ht
      | some t =>
          have hlast : s.resolved [(e, typeName)] = [(e, t)] := by
            simp [resolved, htype]
          have hsplit : s.resolved (before.reverse ++ [(e, typeName)]) =
              s.resolved before.reverse ++ s.resolved [(e, typeName)] :=
            List.filterMap_append
          rw [ih, List.reverse_cons, hsplit, hlast, List.append_assoc, List.singleton_append]
          constructor
          · rintro ⟨hall, htasks⟩
            refine ⟨?_, htasks⟩
            intro other name hmem
            rcases List.mem_cons.mp hmem with heq | hbefore
            · cases heq
              exact ⟨t, htype⟩
            · exact hall other name hbefore
          · rintro ⟨hall, htasks⟩
            exact ⟨fun other name hmem => hall other name (List.mem_cons_of_mem _ hmem), htasks⟩

theorem resolveTypes_eq_ok_iff {s : Schema} {tasks : List (Element × ElementType)}
    {typed : List (Element × String)} :
    s.resolveTypes typed = .ok tasks <->
      (forall e typeName, (e, typeName) ∈ typed -> exists t, s.type? typeName = some t) ∧
        tasks = s.resolved typed := by
  rw [resolveTypes, resolveFrom_eq_ok_iff]
  simp

theorem conforms_of_resolved {s : Schema} {typed : List (Element × String)}
    (hdefined : forall e typeName, (e, typeName) ∈ typed ->
      exists t, s.type? typeName = some t) :
    (forall e typeName, (e, typeName) ∈ typed -> s.Conforms e typeName) <->
      forall e t, (e, t) ∈ s.resolved typed -> s.ConformsTo e t := by
  constructor
  · intro h e t hmem
    rcases mem_resolved_iff.mp hmem with ⟨typeName, htyped, htype⟩
    rcases conforms_iff.mp (h e typeName htyped) with ⟨u, hu, hconforms⟩
    rw [htype] at hu
    cases hu
    exact hconforms
  · intro h e typeName htyped
    rcases hdefined e typeName htyped with ⟨t, htype⟩
    exact conforms_iff.mpr ⟨t, htype, h e t (mem_resolved_iff.mpr ⟨typeName, htyped, htype⟩)⟩

/-!
# Validation
-/

theorem validateFrom_eq_ok_iff {s : Schema} {pending : List (Element × ElementType)} :
    s.validateFrom pending = .ok () <-> forall e t, (e, t) ∈ pending -> s.ConformsTo e t := by
  fun_induction validateFrom s pending with
  | case1 => simp
  | case2 e t rest v hcheck =>
      constructor
      · intro h
        cases h
      · intro h
        exact absurd (h e t List.mem_cons_self).left (Element.not_fits_of_check_eq_error hcheck)
  | case3 e t rest typed hcheck fault hresolve =>
      constructor
      · intro h
        cases h
      · intro h
        rcases Element.check_eq_ok_iff.mp hcheck with ⟨_, rfl⟩
        have hchildren := (h e t List.mem_cons_self).right
        have hok : s.resolveTypes (e.governedChildren t) =
            .ok (s.resolved (e.governedChildren t)) := by
          refine resolveTypes_eq_ok_iff.mpr ⟨?_, rfl⟩
          intro c typeName hmem
          rcases conforms_iff.mp (hchildren c typeName hmem) with ⟨u, hu, _⟩
          exact ⟨u, hu⟩
        rw [hok] at hresolve
        cases hresolve
  | case4 e t rest typed hcheck tasks hresolve ih =>
      rcases Element.check_eq_ok_iff.mp hcheck with ⟨hfits, rfl⟩
      rcases resolveTypes_eq_ok_iff.mp hresolve with ⟨hdefined, rfl⟩
      rw [ih]
      constructor
      · intro h other u hmem
        rcases List.mem_cons.mp hmem with heq | hrest
        · cases heq
          exact ⟨hfits, (conforms_of_resolved hdefined).mpr fun c w hc =>
            h c w (List.mem_append_left rest hc)⟩
        · exact h other u (List.mem_append_right _ hrest)
      · intro h other u hmem
        rcases List.mem_append.mp hmem with hchild | hrest
        · exact (conforms_of_resolved hdefined).mp (h e t List.mem_cons_self).right other u hchild
        · exact h other u (List.mem_cons_of_mem _ hrest)

theorem validate_eq_ok_iff {s : Schema} {root : Element} :
    s.validate root = .ok () <-> s.Admits root := by
  rw [validate]
  split
  · next hroot =>
      cases htype : s.type? s.rootType with
      | none =>
          constructor
          · intro h
            cases h
          · intro h
            rcases conforms_iff.mp h.conforms with ⟨t, ht, _⟩
            rw [htype] at ht
            cases ht
      | some t =>
          simp only
          rw [validateFrom_eq_ok_iff]
          constructor
          · intro h
            exact ⟨hroot.left, hroot.right,
              conforms_iff.mpr ⟨t, htype, h root t List.mem_cons_self⟩⟩
          · intro h e u hmem
            rcases conforms_iff.mp h.conforms with ⟨w, hw, hconforms⟩
            rw [htype] at hw
            cases hw
            cases List.mem_singleton.mp hmem
            exact hconforms
  · next hother =>
      constructor
      · intro h
        cases h
      · intro h
        exact absurd ⟨h.name_eq, h.uri_eq⟩ hother

theorem validate_eq_ok_of_isOk {s : Schema} {root : Element}
    (h : (s.validate root).isOk = true) : s.validate root = .ok () := by
  cases hresult : s.validate root with
  | ok _ => rfl
  | error fault =>
      rw [hresult] at h
      cases h

end Schema
end FlowConfig
