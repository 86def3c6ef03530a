import Rpitos.Kernel.SystemSim

/-!
# Kernel.ListInvariant

The kernel's lists in every reachable state: well formed, disjoint, and holding exactly the tasks
that the tasks' own fields say. The steps are those of `Kernel.System`, where a `task_create` is one;
what a tick in the middle of it does is in `Kernel.UnmaskedCreate`.
-/

namespace Rpitos

open ListOps

/-- The lists of `S` are well formed, hold the items `A`, and `A` is what the tasks say. -/
structure KernelLists (S : System Links) (A : ListRef → List ItemRef) : Prop where
  /-- `head`, `list_end`, `next`, `prev` and `container` agree on the sequence `A l`. -/
  well_formed : ∀ l, S.kernel.lists.IsList l (A l)
  num_items : ∀ l, S.kernel.lists.num_items l = (A l).length
  index_null : ∀ c p, S.kernel.lists.index (.ready_list c p) = none ↔ A (.ready_list c p) = []
  index_mem : ∀ c p i, S.kernel.lists.index (.ready_list c p) = some i → i ∈ A (.ready_list c p)
  /-- An item is in the list its container names, and in no other. -/
  container : ∀ x l, x ∈ A l ↔ S.kernel.lists.container x = some l
  states : ∀ t, S.kernel.created t = true → S.kernel.current_state t = .READY ∨
    S.kernel.current_state t = .RUNNING ∨ S.kernel.current_state t = .BLOCKED
  ready : ∀ t, S.kernel.created t = true → S.kernel.current_state t ≠ .BLOCKED →
    (∀ l, .state_list_item t ∈ A l ↔ l = .ready_list (S.kernel.core_id t) (S.kernel.priority t)) ∧
    ∀ l, .event_list_item t ∉ A l
  blocked : ∀ t, S.kernel.created t = true → S.kernel.current_state t = .BLOCKED →
    (∀ l, .state_list_item t ∈ A l ↔
      (S.call t).timed = true ∧ l = .blocked_task_list (S.kernel.core_id t)) ∧
    ∀ l, .event_list_item t ∈ A l ↔ (S.call t).waits_on = some l
  sorted : ∀ c, (A (.blocked_task_list c)).Pairwise
    (fun x y => S.kernel.wakeup_time x.owner ≤ S.kernel.wakeup_time y.owner)

theorem SSim.kernelLists {S : System Links} {A : System Sequences} (h : SSim S A grounded) :
    KernelLists S A.kernel.lists.list := by
  have hK := h.kernel
  have hl := hK.linked
  have hex : ∀ x l, x ∈ A.kernel.lists.list l ↔ S.kernel.lists.container x = some l := by
    intro x l
    rw [hl.refines.container]
    exact hl.exact.mem_iff x (by rintro ⟨t, ht, -⟩; cases ht) l
  refine ⟨hl.refines.rep, hl.num_items_eq, fun c p => ?_, fun c p i hi => ?_, hex, hK.tasks.state,
    fun t hc hs => ⟨fun l => ?_, fun l hm => ?_⟩, fun t hc hs => ⟨fun l => ?_, fun l => ?_⟩,
    hl.sorted⟩
  · rw [hl.refines.index]; exact (hl.index_ok c p).1
  · rw [hl.refines.index] at hi; exact (hl.index_ok c p).2 i hi
  · rw [hl.mem_state, hK.ready_home hc hs rfl, Option.some.injEq, eq_comm]
  · have := (hl.mem_event.mp hm).2
    simp [eventHome, eventList_of_ne hs, grounded] at this
  · rw [hl.mem_state, show stateHome S.kernel S.call grounded t = stateList _ _ _ _ _ from rfl, hc, hs,
      stateList_blocked]
    by_cases ht : (S.call t).timed = true
    · simp [ht, eq_comm]
    · simp [ht]
  · rw [hl.mem_event, eventHome, hc, hs]
    simp [grounded]

/-- In every state reached by any sequence of steps the kernel's lists are well formed and hold
exactly the tasks they should. -/
theorem kernel_lists {max_count initial_count : SemaphoreId → Nat} {h : List Event}
    {S : System Links} (hr : Run anyStep (boot max_count initial_count) h S) :
    ∃ A, KernelLists S A := by
  obtain ⟨A, -, hs⟩ := hr.sim anyStep (fun _ _ _ => trivial)
  exact ⟨_, hs.kernelLists⟩

end Rpitos
