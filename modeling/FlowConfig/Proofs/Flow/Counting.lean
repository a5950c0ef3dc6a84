import FlowConfig.Proofs.Flow.GroupDecoding
import FlowConfig.Proofs.Schema.Flow

/-!
# Counting by recursion

The summary of a model keeps the groups still to count on a list.  What it counts
is the sum over the tree of groups, and of each kind a decoded group holds as many
components as its element has children of the name.
-/

namespace FlowConfig
namespace Tally

theorem zero_add (t : Tally) : zero.add t = t := by
  simp [zero, add]

theorem add_assoc (s t u : Tally) : (s.add t).add u = s.add (t.add u) := by
  simp [add, Nat.add_assoc]

theorem add_zero (t : Tally) : t.add zero = t := by
  simp [zero, add]

mutual

/-- The components of a group and of all groups inside it. -/
def ofAll : ProcessGroup -> Tally
  | ⟨id, name, comments, position, declared, contents⟩ =>
      (ofGroup ⟨id, name, comments, position, declared, contents⟩).add (ofAllWithin contents)

def ofAllWithin : Option Contents -> Tally
  | none => zero
  | some ⟨_, _, _, _, _, _, groups, _, _⟩ => ofAllIn groups

def ofAllIn : List ProcessGroup -> Tally
  | [] => zero
  | g :: rest => (ofAll g).add (ofAllIn rest)

end

theorem ofAllWithin_eq (g : ProcessGroup) : ofAllWithin g.contents = ofAllIn g.nested := by
  rcases g with ⟨_, _, _, _, _, _ | ⟨_, _, _, _, _, _, _, _, _⟩⟩
  · rw [ofAllWithin, ProcessGroup.nested, ofAllIn]
  · rw [ofAllWithin, ProcessGroup.nested]

theorem ofAll_eq (g : ProcessGroup) : ofAll g = (ofGroup g).add (ofAllIn g.nested) := by
  rw [← ofAllWithin_eq]
  cases g with
  | mk id name comments position declared contents => rw [ofAll]

theorem ofAllIn_append (gs hs : List ProcessGroup) :
    ofAllIn (gs ++ hs) = (ofAllIn gs).add (ofAllIn hs) := by
  induction gs with
  | nil => rw [List.nil_append, ofAllIn, zero_add]
  | cons g rest ih => rw [List.cons_append, ofAllIn, ofAllIn, ih, add_assoc]

/-- Counting group by group adds up the components of the whole trees. -/
theorem countFrom_eq (before : Tally) (pending : List ProcessGroup) :
    countFrom before pending = before.add (ofAllIn pending) := by
  fun_induction countFrom before pending with
  | case1 before => rw [ofAllIn, add_zero]
  | case2 before g rest ih =>
      rw [ih, ofAllIn, ofAll_eq, ofAllIn_append, add_assoc, add_assoc]

/-!
# One kind at a time
-/

def count (t : Tally) : ComponentKind -> Nat
  | .processor => t.processors
  | .connection => t.connections
  | .funnel => t.funnels
  | .label => t.labels
  | .inputPort => t.inputPorts
  | .outputPort => t.outputPorts
  | .processGroup => t.processGroups
  | .remoteProcessGroup => t.remoteProcessGroups
  | .controllerService => t.controllerServices

theorem eq_of_count_eq {s t : Tally} (h : forall k, s.count k = t.count k) : s = t := by
  cases s
  cases t
  rw [mk.injEq]
  exact ⟨h .processor, h .connection, h .funnel, h .label, h .inputPort, h .outputPort,
    h .processGroup, h .remoteProcessGroup, h .controllerService⟩

theorem count_zero (k : ComponentKind) : zero.count k = 0 := by
  cases k <;> rfl

theorem count_add (s t : Tally) (k : ComponentKind) :
    (s.add t).count k = s.count k + t.count k := by
  cases k <;> rfl

theorem count_ofAllIn_nil (k : ComponentKind) : (ofAllIn []).count k = 0 := by
  rw [ofAllIn, count_zero]

theorem count_ofAllIn_cons (g : ProcessGroup) (rest : List ProcessGroup)
    (k : ComponentKind) :
    (ofAllIn (g :: rest)).count k = (ofAll g).count k + (ofAllIn rest).count k := by
  rw [ofAllIn, count_add]

theorem count_ofAllIn_eq_zero {gs : List ProcessGroup} {k : ComponentKind}
    (h : forall g, g ∈ gs -> (ofAll g).count k = 0) : (ofAllIn gs).count k = 0 := by
  induction gs with
  | nil => exact count_ofAllIn_nil k
  | cons g rest ih =>
      rw [count_ofAllIn_cons, h g List.mem_cons_self,
        ih fun other hmem => h other (List.mem_cons_of_mem g hmem)]

end Tally

/-!
# Decoded groups
-/

def Layout.has (layout : Layout) : ComponentKind -> Bool
  | .controllerService => layout.groupServices
  | _ => true

namespace ProcessGroup

theorem count_ofGroup_assemble (layout : Layout) (e : Element) (nested : List ProcessGroup)
    (hnested : nested.length = (nestedElements e).length) (k : ComponentKind) :
    (Tally.ofGroup (assemble layout e nested)).count k =
      if layout.has k then (e.childrenNamed k.elementName).length else 0 := by
  cases k with
  | processor => exact List.length_map _
  | connection => exact List.length_map _
  | funnel => exact List.length_map _
  | label => exact List.length_map _
  | inputPort => exact List.length_map _
  | outputPort => exact List.length_map _
  | processGroup => exact hnested
  | remoteProcessGroup => exact List.length_map _
  | controllerService =>
      show (ite _ _ _ : List ControllerService).length = ite _ _ _
      rw [apply_ite List.length, List.length_map]
      rfl

theorem count_ofAll_decodeTree (layout : Layout) (e : Element) (k : ComponentKind) :
    (Tally.ofAll (decodeTree layout e)).count k =
      (if layout.has k then (e.childrenNamed k.elementName).length else 0) +
        (Tally.ofAllIn ((nestedElements e).map (decodeTree layout))).count k := by
  rw [Tally.ofAll_eq, Tally.count_add, nested_decodeTree, decodeTree_eq,
    count_ofGroup_assemble layout e _ (List.length_map _) k]

end ProcessGroup
end FlowConfig
