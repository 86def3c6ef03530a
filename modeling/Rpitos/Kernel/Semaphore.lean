import Rpitos.Kernel.Scheduler

/-!
# Kernel.Semaphore

`semaphore.c`. `semaphore_take` is cut at its two critical sections; `semaphore_give` at the two
locks it holds, the semaphore's for `semaphore_pop_waiter` and then that of the waiter's core for
`semaphore_wake`.
-/

namespace Rpitos

open Function StatusCode ListOps

variable {L : Type} [ListOps L ItemRef ListRef]

/-- `semaphore_init_common`. -/
def semaphore_init (K : Kernel L) (smph : SemaphoreId) (max_count initial_count : Nat) :
    Kernel L :=
  { K with
    lists := clearHeader K.lists (.semaphore_blocked_list smph)
    max_count := update K.max_count smph max_count
    count := update K.count smph initial_count }

/-- `semaphore_add_to_blocked_list`. -/
def semaphore_add_to_blocked_list (K : Kernel L) (smph : SemaphoreId) (tcb : Tcb) : Kernel L :=
  { K with lists := pushBack K.lists (.semaphore_blocked_list smph) (.event_list_item tcb) }

/-- The deadline `semaphore_take` computes first. -/
def take_deadline (K : Kernel L) (cur_tcb : Tcb) (timeout_ms : Int) : Nat :=
  if 0 < timeout_ms then u64 (K.tick_count cur_tcb.home + timeout_ms.toNat) else 0

/-- The first critical section of a round of `semaphore_take`: the result, or `none` when the
caller is now blocked. -/
def semaphore_take (K : Kernel L) (smph : SemaphoreId) (cur_tcb : Tcb) (timeout_ms : Int)
    (deadline : Nat) : Option StatusCode × Kernel L :=
  if 0 < K.count smph then
    (some E_OK, { K with count := update K.count smph (K.count smph - 1) })
  else if timeout_ms = 0 then (some E_TIMED_OUT, K)
  else if 0 < timeout_ms ∧ deadline ≤ K.tick_count cur_tcb.home then (some E_TIMED_OUT, K)
  else
    let K := semaphore_add_to_blocked_list K smph cur_tcb
    let K := (scheduler_remove_from_ready_list K cur_tcb).2
    let K := if 0 < timeout_ms then (scheduler_add_to_blocked_list K cur_tcb deadline).2 else K
    (none, { K with current_state := update K.current_state cur_tcb .BLOCKED })

/-- The second critical section: whether a unit was handed over, which ends the call. -/
def semaphore_take_wake (K : Kernel L) (cur_tcb : Tcb) : Bool × Kernel L :=
  if K.wakeup_reason cur_tcb = .RESOURCE_ACQUIRED then
    (true, { K with wakeup_reason := update K.wakeup_reason cur_tcb .NONE })
  else (false, K)

/-- The first waiter leaves the wait list; its own links still name the list. -/
def semaphore_pop_waiter (K : Kernel L) (smph : SemaphoreId) : Option Tcb × Kernel L :=
  match head K.lists (.semaphore_blocked_list smph) with
  | some item =>
    (some item.owner, { K with lists := popFront K.lists (.semaphore_blocked_list smph) item })
  | none => (none, K)

/-- The waiter becomes ready, with a unit in hand. -/
def semaphore_wake (K : Kernel L) (p_next_tcb : Tcb) : Kernel L :=
  let K := (scheduler_remove_from_blocked_list K p_next_tcb).2
  let K := { K with
    lists := clearNode K.lists (.event_list_item p_next_tcb)
    wakeup_reason := update K.wakeup_reason p_next_tcb .RESOURCE_ACQUIRED }
  (scheduler_add_to_ready_list K p_next_tcb).2

/-- `semaphore_give` without waiters. -/
def semaphore_count_up (K : Kernel L) (smph : SemaphoreId) : StatusCode × Kernel L :=
  if K.count smph < K.max_count smph then
    (E_OK, { K with count := update K.count smph (K.count smph + 1) })
  else (E_RESOURCE_EXHAUSTED, K)

/-- `semaphore_give`, with the task it wakes. -/
def semaphore_give (K : Kernel L) (smph : SemaphoreId) : StatusCode × Option Tcb × Kernel L :=
  if 0 < num_items K.lists (.semaphore_blocked_list smph) then
    match semaphore_pop_waiter K smph with
    | (some p_next_tcb, K) => (E_OK, some p_next_tcb, semaphore_wake K p_next_tcb)
    | (none, K) => (E_OK, none, K)
  else
    let r := semaphore_count_up K smph
    (r.1, none, r.2)

end Rpitos
