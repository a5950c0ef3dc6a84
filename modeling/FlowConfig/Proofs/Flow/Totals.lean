import FlowConfig.Flow.Emptiness
import FlowConfig.Proofs.Flow.Counting

/-!
# Totals of a model

The summary of a model holds nine totals, and each is a sum over the tree of groups.
The groups still to count wait on a list; which of them is taken next changes
neither the totals nor the number of rounds.  This holds of every model, whether or
not a document decodes to it: a group may have no contents, at any depth.
-/

namespace FlowConfig
namespace ProcessGroup

/-!
# Sums over nested groups
-/

mutual

/-- The sum of a measure of contents over a group and all groups inside it.  A group
without contents adds nothing. -/
def sum (measure : Contents -> Nat) : ProcessGroup -> Nat
  | ⟨_, _, _, _, _, contents⟩ => sumWithin measure contents

def sumWithin (measure : Contents -> Nat) : Option Contents -> Nat
  | none => 0
  | some ⟨processors, connections, funnels, labels, inputs, outputs, groups, remotes,
      services⟩ =>
      measure ⟨processors, connections, funnels, labels, inputs, outputs, groups, remotes,
        services⟩ + sumIn measure groups

def sumIn (measure : Contents -> Nat) : List ProcessGroup -> Nat
  | [] => 0
  | g :: rest => sum measure g + sumIn measure rest

end

variable {g : ProcessGroup}

theorem sum_of_contents (measure : Contents -> Nat) {c : Contents}
    (h : g.contents = some c) : g.sum measure = measure c + sumIn measure c.processGroups := by
  cases g
  cases h
  cases c
  rw [sum, sumWithin]

theorem sum_of_no_contents (measure : Contents -> Nat) (h : g.contents = none) :
    g.sum measure = 0 := by
  cases g
  cases h
  rw [sum, sumWithin]

theorem le_sum_of_contents (measure : Contents -> Nat) {c : Contents}
    (h : g.contents = some c) : measure c ≤ g.sum measure := by
  rw [sum_of_contents measure h]
  exact Nat.le_add_right _ _

/-!
# Nested groups in any order
-/

theorem groupCount_lt_of_mem_nested {inner : ProcessGroup} (h : inner ∈ g.nested) :
    inner.groupCount < g.groupCount := by
  have hle : forall gs : List ProcessGroup, inner ∈ gs -> inner.groupCount ≤ totalCount gs := by
    intro gs hmem
    induction gs with
    | nil => cases hmem
    | cons other rest ih =>
        rw [totalCount_cons]
        cases hmem with
        | head => exact Nat.le_add_right _ _
        | tail _ hrest => exact Nat.le_trans (ih hrest) (Nat.le_add_left _ _)
  rw [groupCount_eq g]
  exact Nat.lt_succ_of_le (hle g.nested h)

theorem nestedInduction {P : ProcessGroup -> Prop}
    (step : forall g : ProcessGroup, (forall inner, inner ∈ g.nested -> P inner) -> P g)
    (g : ProcessGroup) : P g :=
  step g fun inner _hinner => nestedInduction step inner
termination_by g.groupCount
decreasing_by exact groupCount_lt_of_mem_nested _hinner

theorem totalCount_perm {gs hs : List ProcessGroup} (h : gs.Perm hs) :
    totalCount gs = totalCount hs := by
  induction h with
  | nil => rfl
  | cons g _ ih => rw [totalCount_cons, totalCount_cons, ih]
  | swap g g' rest =>
      simp only [totalCount_cons]
      omega
  | trans _ _ ih₁ ih₂ => rw [ih₁, ih₂]

end ProcessGroup

namespace Tally

theorem add_comm (s t : Tally) : s.add t = t.add s := by
  simp [add, Nat.add_comm]

theorem ofAllIn_perm {gs hs : List ProcessGroup} (h : gs.Perm hs) :
    ofAllIn gs = ofAllIn hs := by
  induction h with
  | nil => rfl
  | cons g _ ih => rw [ofAllIn, ofAllIn, ih]
  | swap g g' rest => simp only [ofAllIn, ← add_assoc, add_comm (ofAll g')]
  | trans _ _ ih₁ ih₂ => rw [ih₁, ih₂]

/-!
# Nine sums

Every total is the sum of the length of its own list.
-/

/-- The tally whose totals are what `sum` makes of the lengths of the nine lists. -/
def ofSums (sum : (Contents -> Nat) -> Nat) : Tally where
  processors := sum fun c => c.processors.length
  connections := sum fun c => c.connections.length
  funnels := sum fun c => c.funnels.length
  labels := sum fun c => c.labels.length
  inputPorts := sum fun c => c.inputPorts.length
  outputPorts := sum fun c => c.outputPorts.length
  processGroups := sum fun c => c.processGroups.length
  remoteProcessGroups := sum fun c => c.remoteProcessGroups.length
  controllerServices := sum fun c => c.controllerServices.length

theorem ofSums_add (sum sum' : (Contents -> Nat) -> Nat) :
    ofSums (fun measure => sum measure + sum' measure) = (ofSums sum).add (ofSums sum') := rfl

theorem ofAllIn_eq_ofSums {gs : List ProcessGroup}
    (h : forall g, g ∈ gs -> ofAll g = ofSums fun measure => g.sum measure) :
    ofAllIn gs = ofSums fun measure => ProcessGroup.sumIn measure gs := by
  induction gs with
  | nil =>
      rw [ofAllIn]
      simp only [ProcessGroup.sumIn]
      rfl
  | cons g rest ih =>
      rw [ofAllIn, h g List.mem_cons_self,
        ih fun other hmem => h other (List.mem_cons_of_mem g hmem), ← ofSums_add]
      simp only [ProcessGroup.sumIn]

theorem ofAll_eq_ofSums (g : ProcessGroup) :
    ofAll g = ofSums fun measure => g.sum measure := by
  induction g using ProcessGroup.nestedInduction with
  | step g ih =>
      rw [ofAll_eq, ofAllIn_eq_ofSums ih]
      cases hcontents : g.contents with
      | none =>
          simp only [ProcessGroup.sum_of_no_contents _ hcontents, ofGroup, ProcessGroup.nested,
            hcontents, ProcessGroup.sumIn]
          rfl
      | some c =>
          simp only [ProcessGroup.sum_of_contents _ hcontents, ofGroup, ProcessGroup.nested,
            hcontents]
          rfl

/-!
# Rounds
-/

/-- What has been counted, and the groups still to count. -/
structure Progress where
  counted : Tally
  pending : List ProcessGroup

/-- A round takes some pending group off the list, the last one or any other, and
counts what it holds itself; the groups directly inside it are pending from then
on. -/
inductive Round : Progress -> Progress -> Prop where
  | take {counted : Tally} {g : ProcessGroup} {pending rest after : List ProcessGroup} :
      pending.Perm (g :: rest) -> after.Perm (g.nested ++ rest) ->
        Round ⟨counted, pending⟩ ⟨counted.add (ofGroup g), after⟩

inductive Rounds : Nat -> Progress -> Progress -> Prop where
  | none (p : Progress) : Rounds 0 p p
  | more {n : Nat} {p q r : Progress} : Round p q -> Rounds n q r -> Rounds (n + 1) p r

theorem totalCount_round {p q : Progress} (h : Round p q) :
    ProcessGroup.totalCount q.pending + 1 = ProcessGroup.totalCount p.pending := by
  cases h with
  | take htaken hafter =>
      rename_i counted g pending rest after
      rw [ProcessGroup.totalCount_perm htaken, ProcessGroup.totalCount_perm hafter,
        ProcessGroup.totalCount_append, ProcessGroup.totalCount_cons,
        ProcessGroup.groupCount_eq g]
      omega

theorem counted_round {p q : Progress} (h : Round p q) :
    q.counted.add (ofAllIn q.pending) = p.counted.add (ofAllIn p.pending) := by
  cases h with
  | take htaken hafter =>
      rename_i counted g pending rest after
      show (counted.add (ofGroup g)).add (ofAllIn after) = counted.add (ofAllIn pending)
      rw [ofAllIn_perm htaken, ofAllIn_perm hafter, ofAllIn_append, ofAllIn, ofAll_eq,
        add_assoc, add_assoc]

theorem totalCount_rounds {n : Nat} {p q : Progress} (h : Rounds n p q) :
    n + ProcessGroup.totalCount q.pending = ProcessGroup.totalCount p.pending := by
  induction h with
  | none p => exact Nat.zero_add _
  | more hround _ ih =>
      have hone := totalCount_round hround
      omega

theorem counted_rounds {n : Nat} {p q : Progress} (h : Rounds n p q) :
    q.counted.add (ofAllIn q.pending) = p.counted.add (ofAllIn p.pending) := by
  induction h with
  | none p => rfl
  | more hround _ ih => rw [ih, counted_round hround]

/-- The count of a model is a row of such rounds, until no group is pending. -/
theorem rounds_countFrom (before : Tally) (pending : List ProcessGroup) :
    Rounds (ProcessGroup.totalCount pending) ⟨before, pending⟩
      ⟨countFrom before pending, []⟩ := by
  fun_induction countFrom before pending with
  | case1 before => exact .none _
  | case2 before g rest ih =>
      have hround : Round ⟨before, g :: rest⟩ ⟨before.add (ofGroup g), g.nested ++ rest⟩ :=
        .take (List.Perm.refl _) (List.Perm.refl _)
      rw [← totalCount_round hround]
      exact .more hround ih

end Tally

/-!
# The summary
-/

def Model.sumOfGroups (m : Model) (measure : Contents -> Nat) : Nat :=
  match m.rootGroup with
  | none => 0
  | some g => g.sum measure

namespace Model

variable (m : Model)

theorem tally_summary_eq_ofSums : m.summary.tally = Tally.ofSums m.sumOfGroups := by
  show Tally.countFrom Tally.zero m.rootGroup.toList = _
  rw [Tally.countFrom_eq, Tally.zero_add]
  unfold sumOfGroups
  cases m.rootGroup with
  | none =>
      rw [Option.toList_none, Tally.ofAllIn]
      rfl
  | some g => rw [Option.toList_some, Tally.ofAllIn, Tally.ofAllIn, Tally.add_zero,
      Tally.ofAll_eq_ofSums]

theorem counted_eq_of_rounds {n : Nat} {counted : Tally}
    (h : Tally.Rounds n ⟨Tally.zero, m.rootGroup.toList⟩ ⟨counted, []⟩) :
    counted = m.summary.tally := by
  have hend := Tally.counted_rounds h
  rw [Tally.ofAllIn, Tally.add_zero, ← Tally.countFrom_eq] at hend
  exact hend

/-- The root group is empty exactly when seven of the totals are zero: a component
deeper down stands in a group that is counted at the top. -/
theorem rootGroupEmpty_iff_totals :
    m.rootGroupEmpty = true <->
      m.summary.tally.processors = 0 ∧ m.summary.tally.connections = 0 ∧
        m.summary.tally.funnels = 0 ∧ m.summary.tally.labels = 0 ∧
          m.summary.tally.outputPorts = 0 ∧ m.summary.tally.processGroups = 0 ∧
            m.summary.tally.remoteProcessGroups = 0 := by
  rw [tally_summary_eq_ofSums, rootGroupEmpty]
  unfold Tally.ofSums sumOfGroups
  cases m.rootGroup with
  | none => simp
  | some g =>
      cases hcontents : g.contents with
      | none => simp [ProcessGroup.isEmpty, hcontents, ProcessGroup.sum_of_no_contents]
      | some c =>
          simp only [Option.all_some, ProcessGroup.isEmpty, hcontents, Contents.isEmpty,
            Bool.and_eq_true, List.isEmpty_iff, and_assoc]
          constructor
          · intro hempty
            obtain ⟨hprocessors, hconnections, hfunnels, hlabels, hports, hgroups, hremotes⟩ :=
              hempty
            simp [ProcessGroup.sum_of_contents _ hcontents, ProcessGroup.sumIn, *]
          · intro hzero
            have hnil : forall {A : Type} (list : Contents -> List A),
                (g.sum fun c => (list c).length) = 0 -> list c = [] := by
              intro A list hsum
              have hle := ProcessGroup.le_sum_of_contents (fun c => (list c).length) hcontents
              rw [hsum] at hle
              exact List.eq_nil_of_length_eq_zero (Nat.le_zero.mp hle)
            obtain ⟨hprocessors, hconnections, hfunnels, hlabels, hports, hgroups, hremotes⟩ :=
              hzero
            exact ⟨hnil _ hprocessors, hnil _ hconnections, hnil _ hfunnels, hnil _ hlabels,
              hnil _ hports, hnil _ hgroups, hnil _ hremotes⟩

/-- The summary of any model ends: after as many rounds as there are groups none is
pending.  Its totals are the sums over the root group and all groups inside it, and so
are those of a count that takes the groups in another order, which ends as soon.  The
root group is empty exactly when all totals but those of input ports and services are
zero. -/
theorem summary_sums_groups :
    (m.summary.tally = {
      processors := m.sumOfGroups fun c => c.processors.length
      connections := m.sumOfGroups fun c => c.connections.length
      funnels := m.sumOfGroups fun c => c.funnels.length
      labels := m.sumOfGroups fun c => c.labels.length
      inputPorts := m.sumOfGroups fun c => c.inputPorts.length
      outputPorts := m.sumOfGroups fun c => c.outputPorts.length
      processGroups := m.sumOfGroups fun c => c.processGroups.length
      remoteProcessGroups := m.sumOfGroups fun c => c.remoteProcessGroups.length
      controllerServices := m.sumOfGroups fun c => c.controllerServices.length }) ∧
    Tally.Rounds (ProcessGroup.totalCount m.rootGroup.toList)
      ⟨Tally.zero, m.rootGroup.toList⟩ ⟨m.summary.tally, []⟩ ∧
    (forall n p, Tally.Rounds n ⟨Tally.zero, m.rootGroup.toList⟩ p ->
      n + ProcessGroup.totalCount p.pending = ProcessGroup.totalCount m.rootGroup.toList ∧
        (p.pending = [] -> p.counted = m.summary.tally)) ∧
    (m.rootGroupEmpty = true <->
      m.summary.tally.processors = 0 ∧ m.summary.tally.connections = 0 ∧
        m.summary.tally.funnels = 0 ∧ m.summary.tally.labels = 0 ∧
          m.summary.tally.outputPorts = 0 ∧ m.summary.tally.processGroups = 0 ∧
            m.summary.tally.remoteProcessGroups = 0) := by
  refine ⟨m.tally_summary_eq_ofSums, Tally.rounds_countFrom _ _, ?_,
    m.rootGroupEmpty_iff_totals⟩
  intro n p hrounds
  constructor
  · exact Tally.totalCount_rounds hrounds
  · intro hpending
    cases p
    cases hpending
    exact m.counted_eq_of_rounds hrounds

end Model
end FlowConfig
