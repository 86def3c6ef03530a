import Rpitos.Kernel.Locks

/-!
# Kernel.LocksAlone

What the operations of `Kernel.Locks` return and make of the kernel when nothing else runs: what the
functions of the other modules say, for one section of a call at a time. `Alone.run`: that is the end
of a run.
-/

namespace Rpitos

open Function (update)
open StatusCode ListOps

namespace Locks

variable {n : Nat} {α β : Type}

/-- What a program returns and makes of the kernel when it runs alone. -/
def alone (fuel : Nat) (p : Locked n α) (X : Shared n) : Option (α × Kernel Links) :=
  (p.exec fuel X).map fun r => (r.1, r.2.kernel)

namespace Alone

variable (fuel : Nat) (X : Shared n)

theorem acquire (l : LockId) (k : Unit → Locked n α) :
    alone fuel (spinlock_acquire l >>= k) X = alone fuel (k ()) X := rfl

theorem lock (c : CoreId) (k : Unit → Locked n α) :
    alone fuel (scheduler_lock c >>= k) X = alone fuel (k ()) X := rfl

theorem read (k : Kernel Links → Locked n α) :
    alone fuel (kernel >>= k) X = alone fuel (k X.kernel) X := rfl

theorem store (f : Kernel Links → Kernel Links) (k : Unit → Locked n α) :
    alone fuel (store f >>= k) X = alone fuel (k ()) (X.withKernel (f X.kernel)) := rfl

theorem atomically (f : Shared n → β × Shared n) (k : β → Locked n α) :
    alone fuel (LockProg.atomically f >>= k) X = alone fuel (k (f X).1) (f X).2 := rfl

theorem read_stored (K : Kernel Links) (k : Kernel Links → Locked n α) :
    alone fuel (kernel >>= k) (X.withKernel K) = alone fuel (k K) (X.withKernel K) := rfl

/-- Behind a program whose end is known. -/
theorem next {p : Locked n β} {b : β} {Y : Shared n} (h : p.exec fuel X = some (b, Y))
    (k : β → Locked n α) : alone fuel (p >>= k) X = alone fuel (k b) Y := by
  rw [alone, LockProg.exec_bind, h]
  rfl

theorem exec {p : Locked n α} {a : α} {K : Kernel Links} (h : alone fuel p X = some (a, K)) :
    ∃ Y : Shared n, p.exec fuel X = some (a, Y) ∧ Y.kernel = K := by
  obtain ⟨⟨b, Y⟩, hp, heq⟩ := Option.map_eq_some_iff.mp h
  cases heq
  exact ⟨Y, hp, rfl⟩

/-- One program after another. -/
theorem bind {p : Locked n β} {k : β → Locked n α} {b : β} {K : Kernel Links}
    {r : α × Kernel Links} (h : alone fuel p X = some (b, K))
    (hk : ∀ Y : Shared n, Y.kernel = K → alone fuel (k b) Y = some r) :
    alone fuel (p >>= k) X = some r := by
  obtain ⟨Y, hp, hY⟩ := exec fuel X h
  rw [next fuel X hp]
  exact hk Y hY

/-- What a program does alone is the end of one of its runs. -/
theorem run (env : Shared n → Shared n → Prop) {p : Locked n α} {a : α} {K : Kernel Links}
    (h : alone fuel p X = some (a, K)) :
    ∃ ops Y, LockProg.Run env p X ops (.ret a) Y ∧ Y.kernel = K := by
  obtain ⟨Y, hp, hY⟩ := exec fuel X h
  obtain ⟨ops, hrun⟩ := LockProg.run_exec env hp
  exact ⟨ops, Y, hrun, hY⟩

end Alone

variable (fuel : Nat) (X : Shared n)

theorem exec_spinlock_acquire (l : LockId) :
    (spinlock_acquire l).exec fuel X = some ((), X) := rfl

theorem exec_kernel : (kernel : Locked n _).exec fuel X = some (X.kernel, X) := rfl

theorem heap_malloc_exec (size : Nat) : (heap_malloc size).exec fuel X =
    some ((Rpitos.heap_malloc X.kernel.heap_offset size).1, X.withKernel
      { X.kernel with heap_offset := (Rpitos.heap_malloc X.kernel.heap_offset size).2 }) := by
  rw [heap_malloc, LockProg.exec_bind, exec_spinlock_acquire, Option.bind_some, LockProg.exec_bind,
    exec_kernel, Option.bind_some]
  unfold Rpitos.heap_malloc
  by_cases hfull : (X.kernel.heap_offset + heap_align size) % 2 ^ 32 > HEAP_SIZE_BYTES
  · simp only [if_pos hfull]
    rfl
  · simp only [if_neg hfull]
    rfl

theorem heap_malloc_none {heap_offset size : Nat} {offset : Nat}
    (h : Rpitos.heap_malloc heap_offset size = (none, offset)) : offset = heap_offset := by
  unfold Rpitos.heap_malloc at h
  dsimp only at h
  split at h
  · cases h
    rfl
  · cases h

theorem semaphore_take_enter_alone (smph : SemaphoreId) (t : Tcb) (timeout_ms : Int)
    (deadline : Nat) :
    alone fuel (semaphore_take_enter smph t timeout_ms deadline (X.kernel.core_id t)) X =
      some (Rpitos.semaphore_take X.kernel smph t timeout_ms deadline) := by
  rw [semaphore_take_enter, Rpitos.semaphore_take, Alone.acquire, Alone.read]
  by_cases hcount : 0 < X.kernel.count smph
  · rw [if_pos hcount, if_pos hcount]
    rfl
  · rw [if_neg hcount, if_neg hcount]
    by_cases hnone : timeout_ms = 0
    · rw [if_pos hnone, if_pos hnone]
      rfl
    · rw [if_neg hnone, if_neg hnone]
      by_cases hpast : 0 < timeout_ms ∧ deadline ≤ X.kernel.tick_count t.home
      · rw [if_pos hpast, if_pos hpast]
        rfl
      · rw [if_neg hpast, if_neg hpast]
        by_cases hlimit : 0 < timeout_ms
        · simp only [if_pos hlimit]
          rfl
        · simp only [if_neg hlimit]
          rfl

theorem semaphore_take_wake_alone (smph : SemaphoreId) (t : Tcb) :
    alone fuel (semaphore_take_wake smph t) X =
      some (if (Rpitos.semaphore_take_wake X.kernel t).1 then some E_OK else none,
        (Rpitos.semaphore_take_wake X.kernel t).2) := by
  rw [semaphore_take_wake, Rpitos.semaphore_take_wake, Alone.acquire, Alone.read]
  by_cases hw : X.kernel.wakeup_reason t = .RESOURCE_ACQUIRED
  · rw [if_pos hw, if_pos hw]
    rfl
  · rw [if_neg hw, if_neg hw]
    rfl

theorem semaphore_give_alone (smph : SemaphoreId) :
    alone fuel (semaphore_give smph) X =
      some ((Rpitos.semaphore_give X.kernel smph).1, (Rpitos.semaphore_give X.kernel smph).2.2) := by
  rw [semaphore_give, Rpitos.semaphore_give, Alone.acquire, Alone.read]
  by_cases hwaiters : 0 < num_items X.kernel.lists (.semaphore_blocked_list smph)
  · rw [if_pos hwaiters, if_pos hwaiters, Alone.atomically]
    dsimp only
    cases semaphore_pop_waiter X.kernel smph with
    | mk w K =>
      cases w with
      | none => rfl
      | some p_next_tcb => rfl
  · rw [if_neg hwaiters, if_neg hwaiters, semaphore_count_up]
    by_cases hroom : X.kernel.count smph < X.kernel.max_count smph
    · rw [if_pos hroom, if_pos hroom]
      rfl
    · rw [if_neg hroom, if_neg hroom]
      rfl

theorem mutex_boost_holder_alone (mtx : MutexId) :
    alone fuel (mutex_boost_holder mtx) X =
      some ((), Rpitos.mutex_boost_holder X.kernel mtx) := by
  rw [mutex_boost_holder, Rpitos.mutex_boost_holder, Alone.read]
  cases X.kernel.mutex_owner mtx with
  | none => rfl
  | some owner =>
    by_cases hlow : X.kernel.priority owner < X.kernel.inherited_priority mtx
    · simp only [if_pos hlow]
      rfl
    · simp only [if_neg hlow]
      rfl

theorem mutex_inherit_alone (mtx : MutexId) (t : Tcb) :
    alone fuel (mutex_inherit mtx t) X = some ((), Rpitos.mutex_inherit X.kernel mtx t) := by
  rw [mutex_inherit, Rpitos.mutex_inherit, Alone.read]
  by_cases hon : X.kernel.inheritance_enabled mtx = true
  · rw [if_pos hon, if_pos hon, Alone.store, mutex_boost_holder_alone]
    rfl
  · rw [if_neg hon, if_neg hon]
    rfl

theorem mutex_restore_holder_alone (mtx : MutexId) (holder : Option Tcb) :
    alone fuel (mutex_restore_holder mtx holder) X =
      some ((), Rpitos.mutex_restore_holder X.kernel mtx holder) := by
  cases holder with
  | none => rfl
  | some holder =>
    simp only [mutex_restore_holder, Rpitos.mutex_restore_holder, Alone.read]
    by_cases hon : X.kernel.inheritance_enabled mtx = true
    · rw [if_pos hon, if_pos hon, Alone.store, Alone.read_stored]
      dsimp only
      split
      · rfl
      · rfl
    · rw [if_neg hon, if_neg hon]
      rfl

theorem mutex_release_alone (mtx : MutexId) :
    alone fuel (mutex_release mtx (X.kernel.mutex_owner mtx)) X =
      some ((), Rpitos.mutex_release X.kernel mtx) :=
  mutex_restore_holder_alone ..

theorem mutex_hand_over_alone (mtx : MutexId) (holder : Option Tcb) :
    alone fuel (mutex_hand_over mtx holder) X =
      some ((), match Rpitos.mutex_pop_best X.kernel mtx with
        | (some next_owner, K) =>
          Rpitos.mutex_transfer (Rpitos.mutex_restore_holder K mtx holder) mtx next_owner
        | (none, K) => K) := by
  rw [mutex_hand_over, Alone.atomically]
  dsimp only
  cases mutex_pop_best X.kernel mtx with
  | mk next_owner K =>
    cases next_owner with
    | none => rfl
    | some next_owner =>
      refine Alone.bind fuel (X.withKernel K) (mutex_restore_holder_alone ..) fun Y hY => ?_
      have hkernel : Y.kernel = Rpitos.mutex_restore_holder K mtx holder := hY
      dsimp only
      rw [← hkernel]
      rfl

theorem mutex_unlock_alone (mtx : MutexId) : alone fuel (mutex_unlock mtx) X =
    some ((), (Rpitos.mutex_unlock X.kernel mtx).2) := by
  have hend : ∀ {K : Kernel Links}, ∀ Y : Shared n, Y.kernel = K →
      alone fuel (spinlock_release (.mutex mtx)) Y = some ((), K) :=
    fun Y hY => congrArg (fun K => some ((), K)) hY
  rw [mutex_unlock, Rpitos.mutex_unlock, Alone.acquire, Alone.read]
  by_cases hlocked : X.kernel.mutex_state mtx = .LOCKED
  · rw [if_pos hlocked, if_pos hlocked]
    by_cases hempty : num_items X.kernel.lists (.mutex_blocked_list mtx) = 0
    · simp only [if_pos hempty]
      exact Alone.bind fuel X (mutex_release_alone ..) hend
    · simp only [if_neg hempty]
      refine Alone.bind fuel X (mutex_hand_over_alone ..) fun Y hY => ?_
      rw [hend Y hY]
      cases mutex_pop_best X.kernel mtx with
      | mk next_owner K =>
        cases next_owner with
        | none => rfl
        | some next_owner => rfl
  · rw [if_neg hlocked, if_neg hlocked]
    rfl

theorem mutex_lock_enter_alone (mtx : MutexId) (t : Tcb) (timeout_ms : Int) :
    alone fuel (mutex_lock_enter mtx t timeout_ms) X =
      some (Rpitos.mutex_lock X.kernel mtx t timeout_ms) := by
  rw [mutex_lock_enter, Rpitos.mutex_lock, Alone.acquire, Alone.read]
  by_cases hfree : X.kernel.mutex_state mtx = .UNLOCKED
  · rw [if_pos hfree, if_pos hfree]
    rfl
  · rw [if_neg hfree, if_neg hfree]
    by_cases hnone : timeout_ms = 0
    · rw [if_pos hnone, if_pos hnone]
      rfl
    · rw [if_neg hnone, if_neg hnone]
      have hend : ∀ {K : Kernel Links}, ∀ Y : Shared n, Y.kernel = K →
          alone fuel (do mutex_inherit mtx t; spinlock_release (.mutex mtx); pure none) Y =
            some ((none : Option StatusCode), Rpitos.mutex_inherit K mtx t) := by
        intro K Y hY
        subst hY
        refine Alone.bind fuel Y (mutex_inherit_alone ..) fun Z hZ => ?_
        rw [← hZ]
        rfl
      refine Alone.bind (b := ()) fuel X ?_ hend
      unfold mutex_lock_wait
      by_cases hlimit : 0 < timeout_ms
      · simp only [if_pos hlimit]
        rfl
      · simp only [if_neg hlimit]
        rfl

theorem block_until_enter_alone (c : CoreId) (t : Tcb) (wakeup_time : Nat) :
    alone fuel (block_until_enter c t wakeup_time) X =
      some ((), Rpitos.block_until X.kernel t wakeup_time) := rfl

theorem scheduler_switch_context_alone (c : CoreId) (h : watermark_lost X.kernel c = false) :
    alone fuel (scheduler_switch_context c) X =
      some ((), Rpitos.scheduler_switch_context X.kernel c) := by
  rw [scheduler_switch_context, Rpitos.scheduler_switch_context, Alone.read, h]
  rw [if_neg Bool.false_ne_true, if_neg Bool.false_ne_true, Alone.lock, Alone.store,
    Alone.read_stored]
  generalize end_quantum X.kernel c = K
  by_cases hready :
      (priorities_down.any fun p => decide (0 < num_items K.lists (.ready_list c p))) = true
  · rw [if_pos hready, Alone.store, Alone.read_stored, Shared.withKernel_kernel]
    cases (select_next K c).p_task_control_block c with
    | none => rfl
    | some current => rfl
  · rw [if_neg hready]
    have hfind : priorities_down.find? (fun p => decide (0 < num_items K.lists (.ready_list c p))) =
        none :=
      List.find?_eq_none.mpr fun p hp hp' => hready (List.any_eq_true.mpr ⟨p, hp, hp'⟩)
    rw [select_next, hfind]
    rfl

theorem uart_print_alone (hraw : X.uart_buffered = false) (str : List UInt8) (a : α) :
    alone fuel (do uart_print str; pure a) X = some (a, X.kernel) := by
  have hexec : (uart_print str).exec fuel X =
      some ((), { X with transmitted := X.transmitted ++ str }) := by
    rw [uart_print, LockProg.exec_bind, LockProg.exec_get, Option.bind_some]
    dsimp only
    rw [if_neg (by rw [hraw]; exact Bool.false_ne_true)]
    rfl
  rw [Alone.next fuel X hexec]
  rfl

theorem task_create_alone (c : CoreId) (stack_depth priority : Nat) (name : List UInt8)
    (hprint : X.uart_buffered = false ∨
      (Rpitos.heap_malloc X.kernel.heap_offset (4 * stack_depth)).1 ≠ none) :
    alone fuel (task_create c stack_depth priority name) X =
      some ((Rpitos.task_create X.kernel c stack_depth priority).1,
        (Rpitos.task_create X.kernel c stack_depth priority).2.2) := by
  rw [task_create, Rpitos.task_create, Alone.read]
  by_cases hroom : X.kernel.task_counter c < MAX_NUM_TASKS
  · rw [dif_pos hroom, dif_pos hroom]
    dsimp only
    rw [Alone.next fuel X (heap_malloc_exec ..)]
    cases hmalloc : Rpitos.heap_malloc X.kernel.heap_offset (4 * stack_depth) with
    | mk block heap_offset =>
      cases block with
      | none =>
        rw [hmalloc] at hprint
        rw [heap_malloc_none hmalloc]
        dsimp only
        rw [Alone.store]
        refine uart_print_alone fuel _ ?_ _ _
        exact hprint.resolve_right fun h => h rfl
      | some block => rfl
  · rw [dif_neg hroom, dif_neg hroom]
    rfl

/-- One round of the expiry loop. -/
theorem expire_round_alone (c : CoreId) : alone fuel (expire_round c) X =
    some (match head X.kernel.lists (.blocked_task_list c) with
      | none => (some (), X.kernel)
      | some item =>
        if X.kernel.wakeup_time item.owner ≤ X.kernel.tick_count c then
          (none, expire_task X.kernel item.owner)
        else (some (), X.kernel)) := by
  rw [expire_round, Alone.read]
  cases head X.kernel.lists (.blocked_task_list c) with
  | none => rfl
  | some item =>
    by_cases hdue : X.kernel.wakeup_time item.owner ≤ X.kernel.tick_count c
    · simp only [if_pos hdue]
      rfl
    · simp only [if_neg hdue]
      rfl

theorem expire_rounds (c : CoreId) (rounds : Nat) : ∀ {X Y : Shared n},
    LockProg.repeat_until (fun X => (expire_round c).exec fuel X) rounds X = some ((), Y) →
    Y.kernel = (Rpitos.expire_loop c rounds X.kernel).2 := by
  induction rounds with
  | zero =>
    intro X Y h
    cases h
  | succ rounds ih =>
    intro X Y h
    have hround := expire_round_alone fuel X c
    rw [LockProg.repeat_until] at h
    rw [Rpitos.expire_loop]
    cases hhead : head X.kernel.lists (.blocked_task_list c) with
    | none =>
      rw [hhead] at hround
      obtain ⟨Z, hexec, hZ⟩ := Alone.exec fuel X hround
      rw [hexec] at h
      cases h
      exact hZ
    | some item =>
      rw [hhead] at hround
      dsimp only at hround ⊢
      by_cases hdue : X.kernel.wakeup_time item.owner ≤ X.kernel.tick_count c
      · rw [if_pos hdue] at hround ⊢
        obtain ⟨Z, hexec, hZ⟩ := Alone.exec fuel X hround
        rw [hexec] at h
        rw [← hZ]
        exact ih h
      · rw [if_neg hdue] at hround ⊢
        obtain ⟨Z, hexec, hZ⟩ := Alone.exec fuel X hround
        rw [hexec] at h
        cases h
        exact hZ

/-- On a core without software timers, when the expiry loop ends in that many rounds. -/
theorem timer_tick_handler_alone {c : CoreId} (hc : c ≠ 0) {K : Kernel Links}
    (h : alone MAX_TCBS (timer_tick_handler c) X = some ((), K)) :
    K = (Rpitos.timer_tick_handler X.kernel c).2 := by
  rw [timer_tick_handler, Alone.store, Alone.lock] at h
  simp only [if_neg hc] at h
  obtain ⟨Y, hexec, hY⟩ := Alone.exec _ _ h
  rw [LockProg.exec_bind] at hexec
  obtain ⟨⟨_, Z⟩, hloop, hend⟩ := Option.bind_eq_some_iff.mp hexec
  obtain ⟨⟨_, W⟩, hrounds, hret⟩ := Option.bind_eq_some_iff.mp hloop
  cases hret
  cases hend
  rw [← hY, expire_rounds _ _ _ hrounds]
  rfl

end Locks
end Rpitos
