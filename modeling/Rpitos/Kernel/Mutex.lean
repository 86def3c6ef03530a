import Rpitos.Kernel.Scheduler

/-!
# Kernel.Mutex

`mutex.c`. `mutex_lock` is cut where the caller spins: `mutex_lock` is its first critical section,
`mutex_lock_result` the second. `mutex_unlock` is cut at the locks it takes one after the other: the
hand-off is `mutex_pop_best` under the mutex's lock, `mutex_restore_holder` under the scheduler lock
of the holder's core, and `mutex_transfer` under that of the new owner's.
-/

namespace Rpitos

open Function StatusCode ListOps

variable {L : Type} [ListOps L ItemRef ListRef]

/-- `mutex_init`. -/
def mutex_init (K : Kernel L) (mtx : MutexId) : Kernel L :=
  { K with
    lists := clearHeader K.lists (.mutex_blocked_list mtx)
    mutex_owner := update K.mutex_owner mtx none
    mutex_state := update K.mutex_state mtx .UNLOCKED
    inheritance_enabled := update K.inheritance_enabled mtx false
    inherited_priority := update K.inherited_priority mtx TASK_PRIORITY_IDLE }

/-- `mutex_set_inheritance`. -/
def mutex_set_inheritance (K : Kernel L) (mtx : MutexId) (enable : Bool) :
    StatusCode × Kernel L :=
  if K.mutex_state mtx = .LOCKED ∨ 0 < num_items K.lists (.mutex_blocked_list mtx) then
    (E_INVALID_ARGS, K)
  else (E_OK, { K with inheritance_enabled := update K.inheritance_enabled mtx enable })

/-- `mutex_add_to_blocked_list`. -/
def mutex_add_to_blocked_list (K : Kernel L) (mtx : MutexId) (tcb : Tcb) : Kernel L :=
  { K with lists := pushBack K.lists (.mutex_blocked_list mtx) (.event_list_item tcb) }

/-- The holder of `mtx` is boosted to `inherited_priority`. -/
def mutex_boost_holder (K : Kernel L) (mtx : MutexId) : Kernel L :=
  match K.mutex_owner mtx with
  | some owner =>
    if K.priority owner < K.inherited_priority mtx then
      scheduler_change_task_priority K owner (K.inherited_priority mtx)
    else K
  | none => K

/-- The priority inheritance of `mutex_lock`, once `cur_tcb` is waiting. -/
def mutex_inherit (K : Kernel L) (mtx : MutexId) (cur_tcb : Tcb) : Kernel L :=
  if K.inheritance_enabled mtx then
    mutex_boost_holder { K with
      inherited_priority := if K.inherited_priority mtx < K.priority cur_tcb then
          update K.inherited_priority mtx (K.priority cur_tcb)
        else K.inherited_priority } mtx
  else K

/-- `mutex_lock` up to the spin: the result, or `none` when the caller is now blocked. The calling
task runs on its home core. -/
def mutex_lock (K : Kernel L) (mtx : MutexId) (cur_tcb : Tcb) (timeout_ms : Int) :
    Option StatusCode × Kernel L :=
  if K.mutex_state mtx = .UNLOCKED then
    (some E_OK, { K with
      mutex_state := update K.mutex_state mtx .LOCKED
      mutex_owner := update K.mutex_owner mtx (some cur_tcb)
      mutexes_held := if K.inheritance_enabled mtx then
          update K.mutexes_held cur_tcb (u32 (K.mutexes_held cur_tcb + 1))
        else K.mutexes_held })
  else if timeout_ms = 0 then (some E_TIMED_OUT, K)
  else
    let K := mutex_add_to_blocked_list K mtx cur_tcb
    let K := (scheduler_remove_from_ready_list K cur_tcb).2
    let K := if 0 < timeout_ms then
        (scheduler_add_to_blocked_list K cur_tcb
          (u64 (K.tick_count cur_tcb.home + timeout_ms.toNat))).2
      else K
    let K := { K with current_state := update K.current_state cur_tcb .BLOCKED }
    (none, mutex_inherit K mtx cur_tcb)

/-- `mutex_lock` after the spin. -/
def mutex_lock_result (K : Kernel L) (mtx : MutexId) (cur_tcb : Tcb) : StatusCode :=
  if K.mutex_owner mtx = some cur_tcb then E_OK else E_TIMED_OUT

/-- One step of the scan of `mutex_unlock`: the best waiter so far and the second best priority. -/
def scan_step (priority : Tcb → TaskPriorityLevel) (r : Tcb × TaskPriorityLevel) (iter : ItemRef) :
    Tcb × TaskPriorityLevel :=
  if priority r.1 < priority iter.owner then
    (iter.owner, if r.2 < priority r.1 then priority r.1 else r.2)
  else (r.1, if r.2 < priority iter.owner then priority iter.owner else r.2)

/-- The scan and the pop of `mutex_unlock`: the next owner, out of the wait list. -/
def mutex_pop_best (K : Kernel L) (mtx : MutexId) : Option Tcb × Kernel L :=
  match walk K.lists (.mutex_blocked_list mtx) MAX_TCBS with
  | [] => (none, K)
  | first :: rest =>
    let r := rest.foldl (scan_step K.priority) (first.owner, TASK_PRIORITY_IDLE)
    (some r.1, { K with
      lists := unlink K.lists (.mutex_blocked_list mtx) (.event_list_item r.1)
      inherited_priority := update K.inherited_priority mtx r.2 })

/-- The holder gives up one mutex; with its last one it goes back to its own priority. -/
def mutex_restore_holder (K : Kernel L) (mtx : MutexId) (holder : Option Tcb) : Kernel L :=
  match holder with
  | some holder =>
    if K.inheritance_enabled mtx then
      let K := { K with
        mutexes_held := update K.mutexes_held holder (u32 (K.mutexes_held holder + (2 ^ 32 - 1))) }
      if K.mutexes_held holder = 0 ∧ K.priority holder ≠ K.base_priority holder then
        scheduler_change_task_priority K holder (K.base_priority holder)
      else K
    else K
  | none => K

/-- The new owner holds one mutex more, and is boosted above the tasks behind it. -/
def mutex_boost_owner (K : Kernel L) (mtx : MutexId) (next_owner : Tcb) : Kernel L :=
  if K.inheritance_enabled mtx then
    let K := { K with
      mutexes_held := update K.mutexes_held next_owner (u32 (K.mutexes_held next_owner + 1)) }
    if K.priority next_owner < K.inherited_priority mtx then
      scheduler_change_task_priority K next_owner (K.inherited_priority mtx)
    else K
  else K

/-- Ownership passes to `next_owner`, which becomes ready. -/
def mutex_transfer (K : Kernel L) (mtx : MutexId) (next_owner : Tcb) : Kernel L :=
  let K := { K with mutex_owner := update K.mutex_owner mtx (some next_owner) }
  let K := mutex_boost_owner K mtx next_owner
  let K := (scheduler_remove_from_blocked_list K next_owner).2
  (scheduler_add_to_ready_list K next_owner).2

/-- `mutex_unlock` without waiters. -/
def mutex_release (K : Kernel L) (mtx : MutexId) : Kernel L :=
  mutex_restore_holder { K with
    mutex_owner := update K.mutex_owner mtx none
    mutex_state := update K.mutex_state mtx .UNLOCKED
    inherited_priority := update K.inherited_priority mtx TASK_PRIORITY_IDLE } mtx (K.mutex_owner mtx)

/-- `mutex_unlock`, with the task it hands the mutex to. -/
def mutex_unlock (K : Kernel L) (mtx : MutexId) : Option Tcb × Kernel L :=
  if K.mutex_state mtx = .LOCKED then
    if num_items K.lists (.mutex_blocked_list mtx) = 0 then (none, mutex_release K mtx)
    else
      match mutex_pop_best K mtx with
      | (some next_owner, K') =>
        (some next_owner,
          mutex_transfer (mutex_restore_holder K' mtx (K.mutex_owner mtx)) mtx next_owner)
      | (none, K') => (none, K')
  else (none, K)

end Rpitos
