import FlowConfig.Bundle.Registry
import Mathlib.Data.List.Nodup

/-!
# Runs of a registry

Bundles are registered and unregistered in any order; a registration that is refused
changes nothing.  What is installed in the end is told by the steps that succeeded
alone.  A bundle is there if its registration is the last of these steps about its
coordinate, and the registry lists such registrations in the order in which they were
made.
-/

namespace FlowConfig
namespace Registry

inductive Step where
  | register (b : Bundle)
  | unregister (c : Coordinate)
deriving DecidableEq, Repr

namespace Step

def coordinate : Step -> Coordinate
  | register b => b.coordinate
  | unregister c => c

def bundle? : Step -> Option Bundle
  | register b => some b
  | unregister _ => none

theorem bundle?_eq_some_iff {s : Step} {b : Bundle} :
    s.bundle? = some b <-> s = register b := by
  cases s with
  | register other => rw [bundle?, Option.some.injEq, register.injEq]
  | unregister c =>
      constructor
      · intro h
        cases h
      · intro h
        cases h

end Step

def perform (r : Registry) : Step -> Except RegistryFault Registry
  | .register b => r.register b
  | .unregister c => .ok (r.unregister c)

def run (r : Registry) : List Step -> List Step × Registry
  | [] => ([], r)
  | s :: rest =>
      match r.perform s with
      | .ok next => (s :: (next.run rest).1, (next.run rest).2)
      | .error _ => r.run rest

/-!
# What is installed
-/

section

variable {r : Registry} {b : Bundle} {c : Coordinate}

theorem get?_eq_none_iff : r.get? c = none <-> c ∉ r.list := by
  rw [get?, List.find?_eq_none, list, List.mem_map]
  constructor
  · intro h hmem
    rcases hmem with ⟨b, hb, heq⟩
    exact h b hb (decide_eq_true heq)
  · intro h b hb heq
    exact h ⟨b, hb, of_decide_eq_true heq⟩

theorem contains_iff : r.contains c = true <-> c ∈ r.list := by
  rw [contains, Option.isSome_iff_ne_none, ne_eq, get?_eq_none_iff, not_not]

theorem register_of_mem (h : b.coordinate ∈ r.list) :
    r.register b = .error (.alreadyRegistered b.coordinate) := by
  rw [register, if_pos (contains_iff.mpr h)]

theorem register_of_not_mem (h : b.coordinate ∉ r.list) :
    r.register b = .ok ⟨r.bundles ++ [b]⟩ := by
  rw [register, if_neg fun hcontains => h (contains_iff.mp hcontains)]

theorem register_eq_error_iff :
    r.register b = .error (.alreadyRegistered b.coordinate) <-> b.coordinate ∈ r.list := by
  constructor
  · intro h
    by_contra habsent
    rw [register_of_not_mem habsent] at h
    cases h
  · exact register_of_mem

theorem unregister_of_not_mem (h : c ∉ r.list) : r.unregister c = r := by
  have hall : r.bundles.filter (fun b => b.coordinate ≠ c) = r.bundles := by
    rw [List.filter_eq_self]
    intro b hb
    apply decide_eq_true
    intro heq
    exact h (List.mem_map.mpr ⟨b, hb, heq⟩)
  rw [unregister, hall]

end

/-!
# One step

A step about a coordinate leaves the other bundles in their order; what it registers
comes last.
-/

section

variable {r next : Registry} {s : Step}

theorem bundles_of_perform (h : r.perform s = .ok next) :
    next.bundles = (r.bundles.filter fun b => b.coordinate ≠ s.coordinate) ++
      s.bundle?.toList := by
  cases s with
  | unregister c =>
      cases h
      exact (List.append_nil _).symm
  | register b =>
      by_cases hmem : b.coordinate ∈ r.list
      · rw [perform, register_of_mem hmem] at h
        cases h
      · have hall := congrArg Registry.bundles (unregister_of_not_mem hmem)
        rw [perform, register_of_not_mem hmem] at h
        cases h
        exact congrArg (fun others => others ++ [b]) hall.symm

theorem nodup_list_of_perform (hnodup : r.list.Nodup) (h : r.perform s = .ok next) :
    next.list.Nodup := by
  rw [list, bundles_of_perform h, List.map_append, List.nodup_append]
  refine ⟨?_, ?_, ?_⟩
  · exact hnodup.sublist (List.filter_sublist.map Bundle.coordinate)
  · cases s.bundle? with
    | none => exact List.nodup_nil
    | some b => exact List.nodup_singleton _
  · intro c hc other hother
    rcases List.mem_map.mp hc with ⟨b, hb, rfl⟩
    rcases List.mem_map.mp hother with ⟨a, ha, rfl⟩
    rw [Step.bundle?_eq_some_iff.mp (Option.mem_toList.mp ha)] at hb
    exact of_decide_eq_true (List.mem_filter.mp hb).right

theorem nodup_list_run (hnodup : r.list.Nodup) (steps : List Step) :
    (r.run steps).2.list.Nodup := by
  induction steps generalizing r with
  | nil => exact hnodup
  | cons s rest ih =>
      rw [run]
      cases hperform : r.perform s with
      | error fault => exact ih hnodup
      | ok next => exact ih (nodup_list_of_perform hnodup hperform)

end

/-!
# The last steps

What counts for a coordinate is the last step about it.
-/

def lastAbout? (steps : List Step) (c : Coordinate) : Option Step :=
  steps.reverse.find? fun s => s.coordinate = c

theorem lastAbout?_cons (s : Step) (rest : List Step) (c : Coordinate) :
    lastAbout? (s :: rest) c =
      (lastAbout? rest c).or (if s.coordinate = c then some s else none) := by
  rw [lastAbout?, List.reverse_cons, List.find?_append, List.find?_singleton]
  simp only [decide_eq_true_eq]
  rfl

theorem coordinate_of_lastAbout? {steps : List Step} {c : Coordinate} {s : Step}
    (h : lastAbout? steps c = some s) : s.coordinate = c := by
  rw [lastAbout?] at h
  have hfound := List.find?_some h
  exact of_decide_eq_true hfound

/-- The bundles whose registration is the last step about their coordinate, in the order
of these registrations. -/
def standing : List Step -> List Bundle
  | [] => []
  | s :: rest =>
      (s.bundle?.toList.filter fun b => (lastAbout? rest b.coordinate).isNone) ++ standing rest

theorem mem_standing_iff {steps : List Step} {b : Bundle} :
    b ∈ standing steps <-> lastAbout? steps b.coordinate = some (.register b) := by
  induction steps with
  | nil =>
      constructor
      · intro h
        cases h
      · intro h
        cases h
  | cons s rest ih =>
      rw [standing, List.mem_append, List.mem_filter, Option.mem_toList,
        Step.bundle?_eq_some_iff, Option.isNone_iff_eq_none, ih, lastAbout?_cons,
        Option.or_eq_some_iff, Option.ite_none_right_eq_some, Option.some.injEq]
      constructor
      · intro h
        rcases h with ⟨heq, hnone⟩ | hrest
        · exact Or.inr ⟨hnone, congrArg Step.coordinate heq, heq⟩
        · exact Or.inl hrest
      · intro h
        rcases h with hrest | ⟨hnone, _, heq⟩
        · exact Or.inr hrest
        · exact Or.inl ⟨heq, hnone⟩

/-- After a run there are the bundles that no step was about, and then those that
stand. -/
theorem bundles_run (r : Registry) (steps : List Step) :
    (r.run steps).2.bundles =
      (r.bundles.filter fun b => (lastAbout? (r.run steps).1 b.coordinate).isNone) ++
        standing (r.run steps).1 := by
  induction steps generalizing r with
  | nil =>
      have hall : r.bundles.filter (fun b => (lastAbout? [] b.coordinate).isNone) = r.bundles :=
        List.filter_eq_self.mpr fun _ _ => rfl
      rw [run, hall, standing, List.append_nil]
  | cons s rest ih =>
      rw [run]
      cases hperform : r.perform s with
      | error fault => exact ih r
      | ok next =>
          have huntouched : forall b : Bundle,
              (lastAbout? (s :: (next.run rest).1) b.coordinate).isNone =
                ((lastAbout? (next.run rest).1 b.coordinate).isNone &&
                  decide (b.coordinate ≠ s.coordinate)) := by
            intro b
            rw [lastAbout?_cons, Option.isNone_or]
            by_cases heq : s.coordinate = b.coordinate
            · simp [heq]
            · simp [heq, Ne.symm heq]
          simp only [huntouched]
          rw [ih next, bundles_of_perform hperform, List.filter_append, List.filter_filter,
            standing, List.append_assoc]

theorem bundles_run_empty (steps : List Step) :
    (empty.run steps).2.bundles = standing (empty.run steps).1 :=
  bundles_run empty steps

/-!
# Looking up
-/

theorem get?_eq_some_iff {r : Registry} (hnodup : r.list.Nodup) {c : Coordinate} {b : Bundle} :
    r.get? c = some b <-> b ∈ r.bundles ∧ b.coordinate = c := by
  constructor
  · intro h
    rw [get?] at h
    have hfound := List.find?_some h
    exact ⟨List.mem_of_find?_eq_some h, of_decide_eq_true hfound⟩
  · intro h
    rcases h with ⟨hmem, hc⟩
    cases hget : r.get? c with
    | none => exact (get?_eq_none_iff.mp hget (List.mem_map.mpr ⟨b, hmem, hc⟩)).elim
    | some found =>
        rw [get?] at hget
        have hfound := List.find?_some hget
        have hsame : found.coordinate = b.coordinate := (of_decide_eq_true hfound).trans hc.symm
        rw [List.inj_on_of_nodup_map hnodup (List.mem_of_find?_eq_some hget) hmem hsame]

theorem nodup_list_run_empty (steps : List Step) : (empty.run steps).2.list.Nodup :=
  nodup_list_run (r := empty) List.nodup_nil steps

theorem get?_run_empty_eq_some_iff {steps : List Step} {c : Coordinate} {b : Bundle} :
    (empty.run steps).2.get? c = some b <->
      lastAbout? (empty.run steps).1 c = some (.register b) := by
  rw [get?_eq_some_iff (nodup_list_run_empty steps), bundles_run_empty, mem_standing_iff]
  constructor
  · intro h
    rcases h with ⟨hlast, hc⟩
    rw [hc] at hlast
    exact hlast
  · intro h
    have hc : b.coordinate = c := coordinate_of_lastAbout? h
    rw [hc]
    exact ⟨h, rfl⟩

/-!
# Resolving
-/

section

variable {r : Registry} {b : Bundle} {t : String} {c : Coordinate}

theorem resolve_of_get? (h : r.get? c = some b) :
    r.resolve t c = if t ∈ b.types then .ok b else .error (.notProvided t c) := by
  rw [resolve, h]
  simp only [Bundle.provides, List.contains_eq_mem, decide_eq_true_eq]

theorem resolve_of_not_mem (h : c ∉ r.list) : r.resolve t c = .error (.notInstalled c) := by
  rw [resolve, get?_eq_none_iff.mpr h]

theorem resolve_eq_ok_iff : r.resolve t c = .ok b <-> r.get? c = some b ∧ t ∈ b.types := by
  cases hget : r.get? c with
  | none =>
      rw [resolve_of_not_mem (get?_eq_none_iff.mp hget)]
      constructor
      · intro h
        cases h
      · intro h
        cases h.left
  | some found =>
      rw [resolve_of_get? hget, Option.some.injEq]
      by_cases hprovided : t ∈ found.types
      · rw [if_pos hprovided, Except.ok.injEq]
        constructor
        · intro heq
          rw [← heq]
          exact ⟨rfl, hprovided⟩
        · exact And.left
      · rw [if_neg hprovided]
        constructor
        · intro h
          cases h
        · intro h
          rw [h.left] at hprovided
          exact (hprovided h.right).elim

theorem provides?_eq_some_true_iff :
    r.provides? c t = some true <-> exists b, r.resolve t c = .ok b := by
  rw [provides?, resolve]
  cases r.get? c with
  | none =>
      constructor
      · intro h
        cases h
      · rintro ⟨b, h⟩
        cases h
  | some b =>
      rw [Option.map_some, Option.some_inj]
      constructor
      · intro h
        exact ⟨b, if_pos h⟩
      · rintro ⟨found, h⟩
        by_cases hprovides : b.provides t = true
        · exact hprovides
        · simp only [if_neg hprovides] at h
          cases h

theorem resolve_eq_notInstalled_iff :
    r.resolve t c = .error (.notInstalled c) <-> c ∉ r.list := by
  constructor
  · intro h
    rw [← get?_eq_none_iff]
    cases hget : r.get? c with
    | none => rfl
    | some found =>
        rw [resolve_of_get? hget] at h
        split at h
        · cases h
        · cases h
  · exact resolve_of_not_mem

theorem resolve_eq_notProvided_iff :
    r.resolve t c = .error (.notProvided t c) <->
      exists b, r.get? c = some b ∧ t ∉ b.types := by
  cases hget : r.get? c with
  | none =>
      rw [resolve_of_not_mem (get?_eq_none_iff.mp hget)]
      constructor
      · intro h
        cases h
      · intro h
        rcases h with ⟨b, hnone, _⟩
        cases hnone
  | some found =>
      rw [resolve_of_get? hget]
      by_cases hprovided : t ∈ found.types
      · rw [if_pos hprovided]
        constructor
        · intro h
          cases h
        · intro h
          rcases h with ⟨b, heq, habsent⟩
          cases heq
          exact (habsent hprovided).elim
      · rw [if_neg hprovided]
        exact iff_of_true rfl ⟨found, rfl, hprovided⟩

end

/-- After any run from no bundles at all: no coordinate is listed twice, each bundle is
found at its own coordinate, and the list has the coordinates of the registrations that
stand, in their order.  Just those coordinates are refused to another bundle, which
changes nothing, and only at them there is something to unregister.  A component type
is resolved by the bundle that the last step about the coordinate registered, if this
bundle provides the type. -/
theorem run_installs_standing_registrations (steps : List Step) :
    let taken := (empty.run steps).1
    let r := (empty.run steps).2
    r.list.Nodup ∧
    (forall c b, r.get? c = some b -> b.coordinate = c) ∧
    (forall c, r.contains c = true <-> c ∈ r.list) ∧
    r.list = (standing taken).map Bundle.coordinate ∧
    (forall b, r.register b = .error (.alreadyRegistered b.coordinate) <->
      b.coordinate ∈ r.list) ∧
    (forall b, b.coordinate ∈ r.list -> r.run [.register b] = ([], r)) ∧
    (forall b, b.coordinate ∉ r.list -> exists next, r.register b = .ok next) ∧
    (forall c, c ∉ r.list -> r.unregister c = r) ∧
    forall t c,
      (forall b, r.resolve t c = .ok b <->
        lastAbout? taken c = some (.register b) ∧ t ∈ b.types) ∧
      (r.resolve t c = .error (.notInstalled c) <-> c ∉ r.list) ∧
      (r.resolve t c = .error (.notProvided t c) <->
        exists b, lastAbout? taken c = some (.register b) ∧ t ∉ b.types) := by
  intro taken r
  have hnodup : r.list.Nodup := nodup_list_run_empty steps
  refine ⟨hnodup, ?_, fun _ => contains_iff, ?_, fun _ => register_eq_error_iff, ?_, ?_,
    fun _ => unregister_of_not_mem, ?_⟩
  · intro c b hget
    exact ((get?_eq_some_iff hnodup).mp hget).right
  · exact congrArg (List.map Bundle.coordinate) (bundles_run_empty steps)
  · intro b hmem
    rw [run, perform, register_of_mem hmem]
    rfl
  · intro b habsent
    exact ⟨_, register_of_not_mem habsent⟩
  · intro t c
    refine ⟨?_, resolve_eq_notInstalled_iff, ?_⟩
    · intro b
      rw [resolve_eq_ok_iff, get?_run_empty_eq_some_iff]
    · simp only [resolve_eq_notProvided_iff, r, taken, get?_run_empty_eq_some_iff]

/-- What is registered again comes last, with its new types. -/
example :
    (empty.run [.register ⟨⟨"g", "a", "1"⟩, ["T"]⟩, .register ⟨⟨"g", "b", "1"⟩, []⟩,
      .unregister ⟨"g", "a", "1"⟩, .register ⟨⟨"g", "b", "1"⟩, ["T"]⟩,
      .register ⟨⟨"g", "a", "1"⟩, ["U"]⟩]).2 =
        ⟨[⟨⟨"g", "b", "1"⟩, []⟩, ⟨⟨"g", "a", "1"⟩, ["U"]⟩]⟩ := by
  decide

end Registry
end FlowConfig
