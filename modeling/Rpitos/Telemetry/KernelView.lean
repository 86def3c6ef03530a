import Rpitos.Kernel.TickExpiry
import Rpitos.Kernel.LocksAlone
import Rpitos.Lib.Reach
import Rpitos.Telemetry.Reports

/-!
# Telemetry.KernelView

What a host can know of the kernel. `Hooks` are the reports of the kernel's operations, in the order
in which `Kernel.Locks` sends them; a section of a call sends them at once, as whole frames, which
`Telemetry.Wire` cuts into bytes. The owner that `mutex_lock` reports behind the release of
`mtx->lock` is the caller, and nobody else can unlock before that.
`HostView` is what a host makes of the packets it reads: which tasks there are, which of them are
blocked and on what, and who owns which mutex.

`telemetry_follows`: read from the bytes on the line, at any point of any run and whatever else is
sent between the reports, this is the state of the kernel.
-/

namespace Rpitos

open Function ListOps StatusCode

variable {L : Type}

/-! ## The hooks -/

namespace Kernel

variable (K : Kernel L)

def report_blocked (t : Tcb) (sync_kind : TelemetrySyncKind) (sync_id : UInt16) : Report :=
  .task_blocked (UInt16.ofNat (K.task_id t)) (UInt32.ofNat (K.core_id t)) sync_kind sync_id

def report_unblocked (t : Tcb) : Report :=
  .task_unblocked (UInt16.ofNat (K.task_id t)) (UInt32.ofNat (K.core_id t))

def report_owner (sync_id : UInt16) : Option Tcb → Report
  | none => .mutex_owner_changed sync_id 0 0 0
  | some t => .mutex_owner_changed sync_id 1 (UInt16.ofNat (K.task_id t))
      (UInt32.ofNat (K.core_id t))

end Kernel

/-- What the hooks are given besides the kernel's memory: `sync_id` of the mutexes and semaphores,
and for the tasks the names and what the local array of the report holds. -/
structure Hooks where
  mutex_sync_id : MutexId → UInt16
  semaphore_sync_id : SemaphoreId → UInt16
  name : Tcb → Option (Nat → UInt8)
  payload : Tcb → Nat → UInt8

namespace Hooks

variable (H : Hooks)

/-- `"idle"`. -/
def idle_name : Nat → UInt8 := buffer_of [0x69, 0x64, 0x6C, 0x65]

section Operations

variable [ListOps L ItemRef ListRef] (K : Kernel L)

def scheduler_init (core : CoreId) : List Report :=
  [.task_created 0xFFFF (UInt32.ofNat core) 0 (some idle_name) (H.payload (.idle core))]

def task_create (core : CoreId) (stack_depth priority : Nat) : List Report :=
  let r := Rpitos.task_create K core stack_depth priority
  match r.2.1 with
  | some t => [.task_created (UInt16.ofNat (r.2.2.task_id t)) (UInt32.ofNat core)
      (UInt8.ofNat (r.2.2.priority t)) (H.name t) (H.payload t)]
  | none => []

def block_until (t : Tcb) : List Report := [K.report_blocked t .SYNC_KIND_NONE 0]

/-- Up to the spin; there is no hook behind it. -/
def mutex_lock (mtx : MutexId) (t : Tcb) (timeout_ms : Int) : List Report :=
  if K.mutex_state mtx = .UNLOCKED then [K.report_owner (H.mutex_sync_id mtx) (some t)]
  else if timeout_ms = 0 then []
  else [K.report_blocked t .SYNC_KIND_MUTEX (H.mutex_sync_id mtx)]

def mutex_unlock (mtx : MutexId) : List Report :=
  match (Rpitos.mutex_unlock K mtx).1 with
  | some next_owner => [K.report_unblocked next_owner,
      K.report_owner (H.mutex_sync_id mtx) (some next_owner)]
  | none =>
    if K.mutex_state mtx = .LOCKED ∧ num_items K.lists (.mutex_blocked_list mtx) = 0 then
      [K.report_owner (H.mutex_sync_id mtx) none]
    else []

/-- The first section of a round. -/
def semaphore_take (smph : SemaphoreId) (t : Tcb) (timeout_ms : Int) (deadline : Nat) :
    List Report :=
  if 0 < K.count smph then []
  else if timeout_ms = 0 then []
  else if 0 < timeout_ms ∧ deadline ≤ K.tick_count t.home then []
  else [K.report_blocked t .SYNC_KIND_SEMAPHORE (H.semaphore_sync_id smph)]

def semaphore_give (smph : SemaphoreId) : List Report :=
  match (Rpitos.semaphore_give K smph).2.1 with
  | some p_next_tcb => [K.report_unblocked p_next_tcb]
  | none => []

/-- The expiry loop, one report for each task that it takes off the blocked list. -/
def timer_tick_handler (core : CoreId) : List Report :=
  (Rpitos.timer_tick_handler K core).1.map K.report_unblocked

/-- The gives of `software_timer_tick`. -/
def gives : List SemaphoreId → Kernel L → List Report
  | [], _ => []
  | smph :: rest, K => semaphore_give K smph ++ gives rest (Rpitos.semaphore_give K smph).2.2

end Operations

/-- The reports of a step about tasks and mutexes. The milestones of `scheduler_init` and
`scheduler_start` are not, and what a context switch reports goes through a ring. -/
def reports [ListOps L ItemRef ListRef] (S : System L) : Action → List Report
  | .scheduler_init core => H.scheduler_init core
  | .tick core timer_gives => timer_tick_handler S.kernel core ++
      gives timer_gives (Rpitos.timer_tick_handler S.kernel core).2
  | .task_create core stack_depth priority => H.task_create S.kernel core stack_depth priority
  | .mutex_lock t mtx timeout_ms => H.mutex_lock S.kernel mtx t timeout_ms
  | .mutex_unlock _ mtx => H.mutex_unlock S.kernel mtx
  | .semaphore_give smph => semaphore_give S.kernel smph
  | .proceed t =>
    match S.call t with
    | .block_until _ => block_until S.kernel t
    | .semaphore_take smph timeout_ms deadline =>
      H.semaphore_take S.kernel smph t timeout_ms deadline
    | _ => []
  | _ => []

end Hooks

/-! ### They are what the operations send -/

section Sends

variable {n : Nat} {α β : Type}

/-- The ids are those of the objects. -/
structure Hooks.Of (H : Hooks) (X : Shared n) : Prop where
  mutex : ∀ mtx, X.mutex_sync_id mtx = (H.mutex_sync_id mtx).toNat
  semaphore : ∀ smph, X.semaphore_sync_id smph = (H.semaphore_sync_id smph).toNat

theorem Hooks.Of.withKernel {H : Hooks} {X : Shared n} (hH : H.Of X) (K : Kernel Links) :
    H.Of (X.withKernel K) := ⟨hH.mutex, hH.semaphore⟩

/-- The telemetry behind some reports. -/
def Telemetry.reported (T : Telemetry) (rs : List Report) : Telemetry :=
  rs.foldl (fun T r => r.call.send T) T

/-- What a program leaves that stores `K` and sends some reports. -/
def Shared.reported (X : Shared n) (K : Kernel Links) (rs : List Report) : Shared n :=
  { X.withKernel K with telemetry := X.telemetry.reported rs }

namespace Locks

/-- The telemetry that a program leaves when it runs alone. -/
def sent_alone (fuel : Nat) (p : Locked n α) (X : Shared n) : Option Telemetry :=
  (p.exec fuel X).map fun r => r.2.telemetry

namespace ExecAlone

variable (fuel : Nat) (X : Shared n)

theorem acquire (l : LockId) (k : Unit → Locked n α) :
    (spinlock_acquire l >>= k).exec fuel X = (k ()).exec fuel X := rfl

theorem release (l : LockId) (k : Unit → Locked n α) :
    (spinlock_release l >>= k).exec fuel X = (k ()).exec fuel X := rfl

theorem lock (c : CoreId) (k : Unit → Locked n α) :
    (scheduler_lock c >>= k).exec fuel X = (k ()).exec fuel X := rfl

theorem unlock (c : CoreId) (k : Unit → Locked n α) :
    (scheduler_unlock c >>= k).exec fuel X = (k ()).exec fuel X := rfl

theorem read (k : Kernel Links → Locked n α) :
    (kernel >>= k).exec fuel X = (k X.kernel).exec fuel X := rfl

theorem get (k : Shared n → Locked n α) :
    (LockProg.get >>= k).exec fuel X = (k X).exec fuel X := rfl

theorem store (f : Kernel Links → Kernel Links) (k : Unit → Locked n α) :
    (store f >>= k).exec fuel X = (k ()).exec fuel (X.withKernel (f X.kernel)) := rfl

theorem read_stored (K : Kernel Links) (k : Kernel Links → Locked n α) :
    (kernel >>= k).exec fuel (X.withKernel K) = (k K).exec fuel (X.withKernel K) := rfl

theorem atomically (f : Shared n → β × Shared n) (k : β → Locked n α) :
    (LockProg.atomically f >>= k).exec fuel X = (k (f X).1).exec fuel (f X).2 := rfl

theorem report (c : FramedCall) (k : Unit → Locked n α) : (send_call c >>= k).exec fuel X =
    (k ()).exec fuel { X with telemetry := c.send X.telemetry } := rfl

/-- Behind a program whose end is known. -/
theorem next {p : Locked n β} {b : β} {Y : Shared n} (h : p.exec fuel X = some (b, Y))
    (k : β → Locked n α) : (p >>= k).exec fuel X = (k b).exec fuel Y := by
  rw [LockProg.exec_bind, h]
  rfl

end ExecAlone

variable (fuel : Nat) (X : Shared n) {H : Hooks}

theorem block_until_sends (t : Tcb) (wakeup_time : Nat) :
    sent_alone fuel (block_until_enter (X.kernel.core_id t) t wakeup_time) X =
      some (X.telemetry.reported (Hooks.block_until X.kernel t)) := by
  obtain ⟨lists, hblock⟩ := block_until_effect X.kernel t wakeup_time
  rw [sent_alone, block_until_enter, ExecAlone.lock, ExecAlone.store, ExecAlone.read, hblock]
  dsimp only [Shared.withKernel_kernel]
  rw [task_blocked_report, ExecAlone.report]
  rfl

theorem semaphore_take_sends (hH : H.Of X) (smph : SemaphoreId) (t : Tcb) (timeout_ms : Int)
    (deadline : Nat) :
    sent_alone fuel (semaphore_take_enter smph t timeout_ms deadline (X.kernel.core_id t)) X =
      some (X.telemetry.reported
        (H.semaphore_take X.kernel smph t timeout_ms deadline)) := by
  rw [sent_alone, semaphore_take_enter, Hooks.semaphore_take, ExecAlone.acquire, ExecAlone.read]
  by_cases hcount : 0 < X.kernel.count smph
  · rw [if_pos hcount, if_pos hcount]
    rfl
  · rw [if_neg hcount, if_neg hcount]
    by_cases hnone : timeout_ms = 0
    · rw [if_pos hnone, if_pos hnone]
      rfl
    · rw [if_neg hnone, if_neg hnone]
      by_cases hpast : 0 < timeout_ms ∧ deadline ≤ X.kernel.tick_count t.home
      · rw [if_pos hpast, if_pos hpast]
        rfl
      · rw [if_neg hpast]
        have hid : UInt16.ofNat (X.semaphore_sync_id smph) = H.semaphore_sync_id smph := by
          rw [hH.semaphore, UInt16.ofNat_toNat]
        rw [if_neg hpast, ExecAlone.store, ExecAlone.lock, ExecAlone.store,
          remove_from_ready_fields]
        -- the timed and the untimed wait differ in a store only
        by_cases hlimit : 0 < timeout_ms
        · simp only [if_pos hlimit, ExecAlone.store, ExecAlone.unlock, ExecAlone.get,
            task_blocked_report, ExecAlone.report]
          rw [← hid]
          rfl
        · simp only [if_neg hlimit, ExecAlone.store, ExecAlone.unlock, ExecAlone.get,
            task_blocked_report, ExecAlone.report]
          rw [← hid]
          rfl

theorem semaphore_give_sends (smph : SemaphoreId) :
    sent_alone fuel (semaphore_give smph) X =
      some (X.telemetry.reported (Hooks.semaphore_give X.kernel smph)) := by
  rw [sent_alone, semaphore_give, Hooks.semaphore_give, Rpitos.semaphore_give, ExecAlone.acquire,
    ExecAlone.read]
  by_cases hwaiters : 0 < num_items X.kernel.lists (.semaphore_blocked_list smph)
  · have hpop : ∃ lists, (semaphore_pop_waiter X.kernel smph).2 =
        { X.kernel with lists := lists } := by
      unfold semaphore_pop_waiter
      split
      · exact ⟨_, rfl⟩
      · exact ⟨X.kernel.lists, rfl⟩
    obtain ⟨lists, hpop⟩ := hpop
    rw [if_pos hwaiters, if_pos hwaiters, ExecAlone.atomically]
    cases hw : semaphore_pop_waiter X.kernel smph with
    | mk w K =>
      rw [hw] at hpop
      dsimp only at hpop ⊢
      subst hpop
      cases w with
      | none => rfl
      | some w =>
        obtain ⟨lists', hwake⟩ := semaphore_wake_effect { X.kernel with lists := lists } w
        simp only [ExecAlone.read, ExecAlone.lock, ExecAlone.store, Shared.withKernel_kernel, hwake,
          task_unblocked_report, ExecAlone.report]
        rfl
  · rw [if_neg hwaiters, if_neg hwaiters, semaphore_count_up]
    by_cases hroom : X.kernel.count smph < X.kernel.max_count smph
    · rw [if_pos hroom, if_pos hroom]
      rfl
    · rw [if_neg hroom, if_neg hroom]
      rfl

theorem mutex_boost_holder_exec (mtx : MutexId) : (mutex_boost_holder mtx).exec fuel X =
    some ((), X.withKernel (Rpitos.mutex_boost_holder X.kernel mtx)) := by
  rw [mutex_boost_holder, Rpitos.mutex_boost_holder, LockProg.exec_bind, exec_kernel,
    Option.bind_some]
  cases X.kernel.mutex_owner mtx with
  | none => rfl
  | some owner =>
    by_cases hlow : X.kernel.priority owner < X.kernel.inherited_priority mtx
    · simp only [if_pos hlow]
      rfl
    · simp only [if_neg hlow]
      rfl

theorem mutex_inherit_exec (mtx : MutexId) (t : Tcb) : (mutex_inherit mtx t).exec fuel X =
    some ((), X.withKernel (Rpitos.mutex_inherit X.kernel mtx t)) := by
  rw [mutex_inherit, Rpitos.mutex_inherit, LockProg.exec_bind, exec_kernel, Option.bind_some]
  by_cases hon : X.kernel.inheritance_enabled mtx = true
  · simp only [if_pos hon]
    exact mutex_boost_holder_exec fuel (X.withKernel _) mtx
  · simp only [if_neg hon]
    rfl

theorem mutex_restore_holder_exec (mtx : MutexId) (holder : Option Tcb) :
    (mutex_restore_holder mtx holder).exec fuel X =
      some ((), X.withKernel (Rpitos.mutex_restore_holder X.kernel mtx holder)) := by
  cases holder with
  | none => rfl
  | some holder =>
    simp only [mutex_restore_holder, Rpitos.mutex_restore_holder, ExecAlone.read]
    by_cases hon : X.kernel.inheritance_enabled mtx = true
    · rw [if_pos hon, if_pos hon, ExecAlone.store, ExecAlone.read_stored]
      dsimp only
      split
      · rfl
      · rfl
    · rw [if_neg hon, if_neg hon]
      rfl

/-- What the caller reports when it begins to wait. -/
theorem mutex_lock_wait_exec (hH : H.Of X) (mtx : MutexId) (t : Tcb) (timeout_ms : Int) :
    ∃ K, (mutex_lock_wait mtx t timeout_ms).exec fuel X = some ((),
      X.reported K [X.kernel.report_blocked t .SYNC_KIND_MUTEX (H.mutex_sync_id mtx)]) := by
  have hid : UInt16.ofNat (X.mutex_sync_id mtx) = H.mutex_sync_id mtx := by
    rw [hH.mutex, UInt16.ofNat_toNat]
  rw [mutex_lock_wait, ← hid, ExecAlone.store, ExecAlone.read, ExecAlone.lock, ExecAlone.store,
    remove_from_ready_fields]
  by_cases hlimit : 0 < timeout_ms
  · simp only [if_pos hlimit, ExecAlone.store, ExecAlone.get, task_blocked_report,
      ExecAlone.report]
    exact ⟨_, rfl⟩
  · simp only [if_neg hlimit, ExecAlone.store, ExecAlone.get, task_blocked_report,
      ExecAlone.report]
    exact ⟨_, rfl⟩

theorem mutex_lock_sends (hH : H.Of X) (mtx : MutexId) (t : Tcb) (timeout_ms : Int) :
    sent_alone fuel (mutex_lock_enter mtx t timeout_ms) X =
      some (X.telemetry.reported (H.mutex_lock X.kernel mtx t timeout_ms)) := by
  have hid : UInt16.ofNat (X.mutex_sync_id mtx) = H.mutex_sync_id mtx := by
    rw [hH.mutex, UInt16.ofNat_toNat]
  rw [sent_alone, mutex_lock_enter, Hooks.mutex_lock, ExecAlone.acquire, ExecAlone.read]
  by_cases hfree : X.kernel.mutex_state mtx = .UNLOCKED
  · rw [if_pos hfree, if_pos hfree, ExecAlone.store, ExecAlone.release, ExecAlone.get,
      mutex_owner_changed_report, ExecAlone.report]
    rw [← hid]
    rfl
  · rw [if_neg hfree, if_neg hfree]
    by_cases hnone : timeout_ms = 0
    · rw [if_pos hnone, if_pos hnone]
      rfl
    · rw [if_neg hnone, if_neg hnone]
      obtain ⟨K, hwait⟩ := mutex_lock_wait_exec fuel X hH mtx t timeout_ms
      rw [ExecAlone.next fuel X hwait, ExecAlone.next fuel _ (mutex_inherit_exec fuel _ mtx t)]
      rfl

theorem mutex_release_exec (hH : H.Of X) (mtx : MutexId) (holder : Option Tcb) :
    ∃ K, (mutex_release mtx holder).exec fuel X = some ((),
      X.reported K [X.kernel.report_owner (H.mutex_sync_id mtx) none]) := by
  have hid : UInt16.ofNat (X.mutex_sync_id mtx) = H.mutex_sync_id mtx := by
    rw [hH.mutex, UInt16.ofNat_toNat]
  rw [mutex_release, ← hid, ExecAlone.get, ExecAlone.store, mutex_owner_changed_report,
    ExecAlone.report, mutex_restore_holder_exec]
  exact ⟨_, rfl⟩

theorem mutex_transfer_exec (hH : H.Of X) (mtx : MutexId) (next_owner : Tcb) :
    ∃ K, (mutex_transfer mtx next_owner).exec fuel X = some ((),
      X.reported K [X.kernel.report_unblocked next_owner,
        X.kernel.report_owner (H.mutex_sync_id mtx) (some next_owner)]) := by
  have hid : UInt16.ofNat (X.mutex_sync_id mtx) = H.mutex_sync_id mtx := by
    rw [hH.mutex, UInt16.ofNat_toNat]
  obtain ⟨lists, prio, held, htransfer⟩ := mutex_transfer_effect X.kernel mtx next_owner
  rw [mutex_transfer, ← hid, ExecAlone.read, ExecAlone.lock, ExecAlone.store, htransfer,
    ExecAlone.get]
  simp only [task_unblocked_report, mutex_owner_changed_report, ExecAlone.report]
  exact ⟨_, rfl⟩

theorem mutex_hand_over_exec (hH : H.Of X) (mtx : MutexId) (holder : Option Tcb) :
    ∃ K, (mutex_hand_over mtx holder).exec fuel X = some ((),
      X.reported K (match (Rpitos.mutex_pop_best X.kernel mtx).1 with
        | some next_owner => [X.kernel.report_unblocked next_owner,
            X.kernel.report_owner (H.mutex_sync_id mtx) (some next_owner)]
        | none => [])) := by
  have hpop : ∃ lists inh, (Rpitos.mutex_pop_best X.kernel mtx).2 =
      { X.kernel with lists := lists, inherited_priority := inh } :=
    ⟨_, _, mutex_pop_best_fields X.kernel mtx⟩
  obtain ⟨lists, inh, hpop⟩ := hpop
  rw [mutex_hand_over, ExecAlone.atomically]
  dsimp only
  rw [hpop]
  cases (Rpitos.mutex_pop_best X.kernel mtx).1 with
  | none => exact ⟨_, rfl⟩
  | some next_owner =>
    obtain ⟨lists', prio, held, hrestore⟩ := mutex_restore_holder_effect
      { X.kernel with lists := lists, inherited_priority := inh } mtx holder
    dsimp only
    rw [ExecAlone.next fuel _ (mutex_restore_holder_exec ..), Shared.withKernel_kernel, hrestore]
    obtain ⟨K, htransfer⟩ := mutex_transfer_exec (H := H) fuel (X.withKernel { X.kernel with
      lists := lists', priority := prio, mutexes_held := held, inherited_priority := inh })
      (hH.withKernel _) mtx next_owner
    exact ⟨K, htransfer⟩

theorem mutex_unlock_sends (hH : H.Of X) (mtx : MutexId) :
    sent_alone fuel (mutex_unlock mtx) X =
      some (X.telemetry.reported (H.mutex_unlock X.kernel mtx)) := by
  rw [sent_alone, mutex_unlock, Hooks.mutex_unlock, Rpitos.mutex_unlock, ExecAlone.acquire,
    ExecAlone.read]
  by_cases hlocked : X.kernel.mutex_state mtx = .LOCKED
  · rw [if_pos hlocked, if_pos hlocked]
    by_cases hempty : num_items X.kernel.lists (.mutex_blocked_list mtx) = 0
    · obtain ⟨K, hrelease⟩ := mutex_release_exec fuel X hH mtx (X.kernel.mutex_owner mtx)
      simp only [if_pos hempty, if_pos (And.intro hlocked hempty)]
      rw [ExecAlone.next fuel X hrelease]
      rfl
    · obtain ⟨K, hhand⟩ := mutex_hand_over_exec fuel X hH mtx (X.kernel.mutex_owner mtx)
      have hboth : ¬ (X.kernel.mutex_state mtx = .LOCKED ∧
          num_items X.kernel.lists (.mutex_blocked_list mtx) = 0) := fun h => hempty h.2
      simp only [if_neg hempty, if_neg hboth]
      rw [ExecAlone.next fuel X hhand]
      cases Rpitos.mutex_pop_best X.kernel mtx with
      | mk next_owner K' =>
        cases next_owner with
        | none => rfl
        | some next_owner => rfl
  · have hboth : ¬ (X.kernel.mutex_state mtx = .LOCKED ∧
        num_items X.kernel.lists (.mutex_blocked_list mtx) = 0) := fun h => hlocked h.1
    rw [if_neg hlocked, if_neg hlocked]
    simp only [if_neg hboth]
    rfl

/-- One round of the expiry loop. -/
theorem expire_round_exec (c : CoreId) : (expire_round c).exec fuel X =
    some (match head X.kernel.lists (.blocked_task_list c) with
      | none => (some (), X)
      | some item =>
        if X.kernel.wakeup_time item.owner ≤ X.kernel.tick_count c then
          (none, X.reported (expire_task X.kernel item.owner)
            [X.kernel.report_unblocked item.owner])
        else (some (), X)) := by
  rw [expire_round, ExecAlone.read]
  cases head X.kernel.lists (.blocked_task_list c) with
  | none => rfl
  | some item =>
    by_cases hdue : X.kernel.wakeup_time item.owner ≤ X.kernel.tick_count c
    · simp only [if_pos hdue, ExecAlone.store, task_unblocked_report]
      rfl
    · simp only [if_neg hdue]
      rfl

theorem expire_task_report (K : Kernel Links) (t : Tcb) :
    (expire_task K t).report_unblocked = K.report_unblocked := by
  rw [expire_task_fields K t]
  rfl

theorem expire_rounds_send (c : CoreId) (rounds : Nat) : ∀ {X Y : Shared n},
    LockProg.repeat_until (fun X => (expire_round c).exec fuel X) rounds X = some ((), Y) →
    Y.telemetry = X.telemetry.reported
      ((Rpitos.expire_loop c rounds X.kernel).1.map X.kernel.report_unblocked) := by
  induction rounds with
  | zero =>
    intro X Y h
    cases h
  | succ rounds ih =>
    intro X Y h
    rw [LockProg.repeat_until, expire_round_exec] at h
    rw [Rpitos.expire_loop]
    cases hhead : head X.kernel.lists (.blocked_task_list c) with
    | none =>
      rw [hhead] at h
      cases h
      rfl
    | some item =>
      rw [hhead] at h
      dsimp only at h ⊢
      by_cases hdue : X.kernel.wakeup_time item.owner ≤ X.kernel.tick_count c
      · rw [if_pos hdue] at h ⊢
        have hrest := ih h
        have hreport : (X.reported (expire_task X.kernel item.owner)
            [X.kernel.report_unblocked item.owner]).kernel.report_unblocked =
            X.kernel.report_unblocked := expire_task_report X.kernel item.owner
        rw [hreport] at hrest
        exact hrest
      · rw [if_neg hdue] at h ⊢
        cases h
        rfl

/-- On a core without software timers, when the expiry loop ends in that many rounds. -/
theorem timer_tick_handler_sends {c : CoreId} (hc : c ≠ 0) {T : Telemetry}
    (h : sent_alone MAX_TCBS (timer_tick_handler c) X = some T) :
    T = X.telemetry.reported (Hooks.timer_tick_handler X.kernel c) := by
  rw [sent_alone, timer_tick_handler, ExecAlone.store, ExecAlone.lock] at h
  simp only [if_neg hc] at h
  obtain ⟨⟨_, Y⟩, hexec, hY⟩ := Option.map_eq_some_iff.mp h
  rw [LockProg.exec_bind] at hexec
  obtain ⟨⟨_, Z⟩, hloop, hend⟩ := Option.bind_eq_some_iff.mp hexec
  obtain ⟨⟨_, W⟩, hrounds, hret⟩ := Option.bind_eq_some_iff.mp hloop
  cases hret
  cases hend
  rw [← hY]
  exact expire_rounds_send _ _ _ hrounds

end Locks

end Sends

/-! ## What a host knows -/

/-- What a host makes of the packets, by the task's number and core and by `sync_id`. -/
structure HostView where
  tasks : UInt16 × UInt8 → Bool
  /-- What a blocked task waits for. -/
  blocked : UInt16 × UInt8 → Option (TelemetrySyncKind × UInt16)
  owner : UInt16 → Option (UInt16 × UInt8)

namespace HostView

def boot : HostView := ⟨fun _ => false, fun _ => none, fun _ => none⟩

def read (V : HostView) : TelemetryPacket → HostView
  | .PKT_TASK_CREATED task_id core_id _ _ =>
    { V with tasks := update V.tasks (task_id, core_id) true }
  | .PKT_TASK_BLOCKED task_id core_id sync_kind sync_id =>
    { V with blocked := update V.blocked (task_id, core_id) (some (sync_kind, sync_id)) }
  | .PKT_TASK_UNBLOCKED task_id core_id =>
    { V with blocked := update V.blocked (task_id, core_id) none }
  | .PKT_MUTEX_OWNER_CHANGED sync_id has_owner owner_task_id owner_core_id =>
    let p_owner := if has_owner = 0 then none else some (owner_task_id, owner_core_id)
    { V with owner := update V.owner sync_id p_owner }
  | _ => V

def hear (V : HostView) (packets : List TelemetryPacket) : HostView := packets.foldl read V

/-- Behind some reports. -/
def told (V : HostView) (rs : List Report) : HostView := V.hear (rs.map Report.packet)

variable (V : HostView)

@[simp] theorem told_nil : V.told [] = V := rfl

@[simp] theorem told_cons (r : Report) (rs : List Report) :
    V.told (r :: rs) = (V.read r.packet).told rs := rfl

@[simp] theorem told_append (rs rs' : List Report) : V.told (rs ++ rs') = (V.told rs).told rs' := by
  rw [told, List.map_append, hear, List.foldl_append]
  rfl

end HostView

/-- Reports that tell a host nothing about tasks and mutexes. -/
def Report.aside : Report → Bool
  | task_created .. | task_blocked .. | task_unblocked .. | mutex_owner_changed .. => false
  | _ => true

theorem HostView.read_aside (V : HostView) {r : Report} (h : r.aside = true) :
    V.read r.packet = V := by
  cases r with
  | task_created => cases h
  | task_blocked => cases h
  | task_unblocked => cases h
  | mutex_owner_changed => cases h
  | _ => rfl

/-- It locks and unlocks no other mutexes. -/
def Action.within (M : Finset MutexId) : Action → Prop
  | .mutex_lock _ mtx _ => mtx ∈ M
  | .mutex_unlock _ mtx => mtx ∈ M
  | _ => True

instance (M : Finset MutexId) : (a : Action) → Decidable (a.within M)
  | .mutex_lock _ mtx _ | .mutex_unlock _ mtx => inferInstanceAs (Decidable (mtx ∈ M))
  | .scheduler_init _ | .scheduler_start _ | .tick _ _ | .task_create _ _ _ | .stack_write _ _
  | .task_delay_ms _ _ | .task_delay_until_ms _ _ _ | .mutex_set_inheritance _ _
  | .semaphore_take _ _ _ | .semaphore_give _ | .proceed _ => .isTrue trivial

/-- The number under which a task is reported. -/
def Tcb.number : Tcb → Nat
  | .idle _ => 0xFFFF
  | .pool _ slot => slot

/-- A task on the wire. -/
def Tcb.key (t : Tcb) : UInt16 × UInt8 := (UInt16.ofNat t.number, (UInt32.ofNat t.home).toUInt8)

theorem Tcb.number_lt (t : Tcb) : t.number < 2 ^ 16 := by
  cases t with
  | idle c =>
    show 0xFFFF < 2 ^ 16
    decide
  | pool c slot => exact slot.isLt.trans (by decide)

theorem Tcb.key_injective : Injective Tcb.key := by
  intro t u h
  obtain ⟨hnumber, hcore⟩ := Prod.mk.inj h
  have hnumber : t.number = u.number := by
    have heq := congrArg UInt16.toNat hnumber
    rwa [UInt16.toNat_ofNat', UInt16.toNat_ofNat', Nat.mod_eq_of_lt t.number_lt,
      Nat.mod_eq_of_lt u.number_lt] at heq
  have hlt : ∀ c : CoreId, c.val < 2 ^ 8 := fun c => c.isLt.trans (by decide)
  have hhome : t.home = u.home := by
    have heq := congrArg UInt8.toNat hcore
    rw [← Locks.byte_of_core, ← Locks.byte_of_core, UInt8.toNat_ofNat', UInt8.toNat_ofNat',
      Nat.mod_eq_of_lt (hlt _), Nat.mod_eq_of_lt (hlt _)] at heq
    exact Fin.ext heq
  cases t with
  | idle c =>
    cases u with
    | idle c' => exact congrArg Tcb.idle hhome
    | pool c' slot =>
      have hslot : slot.val < 16 := slot.isLt
      simp only [number] at hnumber
      omega
  | pool c slot =>
    cases u with
    | idle c' =>
      have hslot : slot.val < 16 := slot.isLt
      simp only [number] at hnumber
      omega
    | pool c' slot' =>
      obtain rfl : c = c' := hhome
      exact congrArg (Tcb.pool c) (Fin.ext hnumber)

/-- What a blocked task is reported to wait for. -/
def Hooks.reason (H : Hooks) : Call → TelemetrySyncKind × UInt16
  | .mutex_lock mtx _ => (.SYNC_KIND_MUTEX, H.mutex_sync_id mtx)
  | .semaphore_wait smph _ _ => (.SYNC_KIND_SEMAPHORE, H.semaphore_sync_id smph)
  | _ => (.SYNC_KIND_NONE, 0)

/-- The host knows which tasks there are, which of them are blocked and why, and who owns each of
the mutexes `M`. -/
structure Mirrors (H : Hooks) (M : Finset MutexId) (S : System L) (V : HostView) : Prop where
  number : ∀ t, S.kernel.created t = true → S.kernel.task_id t = t.number
  tasks : ∀ t, V.tasks t.key = S.kernel.created t
  blocked : ∀ t, V.blocked t.key =
    if S.kernel.created t = true ∧ S.kernel.current_state t = .BLOCKED then
      some (H.reason (S.call t))
    else none
  owner : ∀ mtx ∈ M, V.owner (H.mutex_sync_id mtx) = (S.kernel.mutex_owner mtx).map Tcb.key

namespace Mirrors

variable {H : Hooks} {M : Finset MutexId} {S : System L} {V : HostView} {K : Kernel L} {t : Tcb}

/-- Nothing that is reported changes. -/
theorem frame {S' : System L} (h : Mirrors H M S V)
    (hcreated : S'.kernel.created = S.kernel.created) (hid : S'.kernel.task_id = S.kernel.task_id)
    (hstate : ∀ t, S'.kernel.current_state t = .BLOCKED ↔ S.kernel.current_state t = .BLOCKED)
    (hcall : ∀ t, S.kernel.created t = true → S.kernel.current_state t = .BLOCKED →
      S'.call t = S.call t)
    (howner : S'.kernel.mutex_owner = S.kernel.mutex_owner) : Mirrors H M S' V := by
  refine ⟨?_, ?_, fun t => ?_, ?_⟩
  · rw [hcreated, hid]
    exact h.number
  · rw [hcreated]
    exact h.tasks
  · rw [h.blocked t, hcreated]
    by_cases hb : S.kernel.created t = true ∧ S.kernel.current_state t = .BLOCKED
    · rw [if_pos hb, if_pos ⟨hb.1, (hstate t).mpr hb.2⟩, hcall t hb.1 hb.2]
    · rw [if_neg hb, if_neg fun hb' => hb ⟨hb'.1, (hstate t).mp hb'.2⟩]
  · rw [howner]
    exact h.owner

/-- A task on the wire is the task. -/
theorem key (h : Mirrors H M S V) (hc : S.kernel.created t = true)
    (hhome : S.kernel.core_id t = t.home) :
    (UInt16.ofNat (S.kernel.task_id t), (UInt32.ofNat (S.kernel.core_id t)).toUInt8) = t.key := by
  rw [h.number t hc, hhome, Tcb.key]

theorem blocks {k : Call} (h : Mirrors H M S V) (hc : S.kernel.created t = true)
    (hhome : S.kernel.core_id t = t.home) (hcreated : K.created = S.kernel.created)
    (hid : K.task_id = S.kernel.task_id)
    (hstate : K.current_state = update S.kernel.current_state t .BLOCKED)
    (howner : K.mutex_owner = S.kernel.mutex_owner) :
    Mirrors H M ((S.withKernel K).setCall t k)
      (V.told [S.kernel.report_blocked t (H.reason k).1 (H.reason k).2]) := by
  refine ⟨?_, ?_, fun u => ?_, ?_⟩
  · show ∀ t, K.created t = true → K.task_id t = t.number
    rw [hcreated, hid]
    exact h.number
  · show ∀ t, V.tasks t.key = K.created t
    rw [hcreated]
    exact h.tasks
  · show update V.blocked (UInt16.ofNat (S.kernel.task_id t),
      (UInt32.ofNat (S.kernel.core_id t)).toUInt8) (some (H.reason k)) u.key =
      if K.created u = true ∧ K.current_state u = .BLOCKED then
        some (H.reason (update S.call t k u)) else none
    rw [h.key hc hhome, hcreated, hstate]
    by_cases hu : u = t
    · subst hu
      simp [hc]
    · have hkey : u.key ≠ t.key := fun heq => hu (Tcb.key_injective heq)
      rw [update_of_ne hkey, update_of_ne hu, update_of_ne hu]
      exact h.blocked u
  · show ∀ mtx ∈ M, V.owner (H.mutex_sync_id mtx) = (K.mutex_owner mtx).map Tcb.key
    rw [howner]
    exact h.owner

theorem wakes (h : Mirrors H M S V) (hc : S.kernel.created t = true)
    (hhome : S.kernel.core_id t = t.home) (hcreated : K.created = S.kernel.created)
    (hid : K.task_id = S.kernel.task_id)
    (hstate : K.current_state = update S.kernel.current_state t .READY)
    (howner : K.mutex_owner = S.kernel.mutex_owner) :
    Mirrors H M (S.withKernel K) (V.told [S.kernel.report_unblocked t]) := by
  refine ⟨?_, ?_, fun u => ?_, ?_⟩
  · show ∀ t, K.created t = true → K.task_id t = t.number
    rw [hcreated, hid]
    exact h.number
  · show ∀ t, V.tasks t.key = K.created t
    rw [hcreated]
    exact h.tasks
  · show update V.blocked (UInt16.ofNat (S.kernel.task_id t),
      (UInt32.ofNat (S.kernel.core_id t)).toUInt8) none u.key =
      if K.created u = true ∧ K.current_state u = .BLOCKED then some (H.reason (S.call u)) else none
    rw [h.key hc hhome, hcreated, hstate]
    by_cases hu : u = t
    · subst hu
      simp
    · have hkey : u.key ≠ t.key := fun heq => hu (Tcb.key_injective heq)
      rw [update_of_ne hkey, update_of_ne hu]
      exact h.blocked u
  · show ∀ mtx ∈ M, V.owner (H.mutex_sync_id mtx) = (K.mutex_owner mtx).map Tcb.key
    rw [howner]
    exact h.owner

theorem owns {mtx : MutexId} {o : Option Tcb} (h : Mirrors H M S V)
    (hids : Set.InjOn H.mutex_sync_id M) (hmtx : mtx ∈ M)
    (ho : ∀ t, o = some t → S.kernel.created t = true ∧ S.kernel.core_id t = t.home)
    (hcreated : K.created = S.kernel.created) (hid : K.task_id = S.kernel.task_id)
    (hstate : K.current_state = S.kernel.current_state)
    (howner : K.mutex_owner = update S.kernel.mutex_owner mtx o) :
    Mirrors H M (S.withKernel K) (V.told [S.kernel.report_owner (H.mutex_sync_id mtx) o]) := by
  have hread : V.told [S.kernel.report_owner (H.mutex_sync_id mtx) o] =
      { V with owner := update V.owner (H.mutex_sync_id mtx) (o.map Tcb.key) } := by
    cases o with
    | none => rfl
    | some t =>
      rw [Option.map_some, ← h.key (ho t rfl).1 (ho t rfl).2]
      rfl
  rw [hread]
  refine ⟨?_, ?_, ?_, fun m hm => ?_⟩
  · show ∀ t, K.created t = true → K.task_id t = t.number
    rw [hcreated, hid]
    exact h.number
  · show ∀ t, V.tasks t.key = K.created t
    rw [hcreated]
    exact h.tasks
  · show ∀ t, V.blocked t.key = if K.created t = true ∧ K.current_state t = .BLOCKED then
      some (H.reason (S.call t)) else none
    rw [hcreated, hstate]
    exact h.blocked
  · show update V.owner (H.mutex_sync_id mtx) (o.map Tcb.key) (H.mutex_sync_id m) =
      (K.mutex_owner m).map Tcb.key
    rw [howner]
    by_cases heq : m = mtx
    · subst heq
      rw [update_self, update_self]
    · rw [update_of_ne heq, update_of_ne fun hid => heq (hids hm hmtx hid)]
      exact h.owner m hm

theorem creates {r : Report} (h : Mirrors H M S V) (hc : S.kernel.created t = false)
    (hcreated : ∀ u, K.created u = if u = t then true else S.kernel.created u)
    (hid : K.task_id = update S.kernel.task_id t t.number)
    (hstate : K.current_state = update S.kernel.current_state t .READY)
    (howner : K.mutex_owner = S.kernel.mutex_owner)
    (hread : V.read r.packet = { V with tasks := update V.tasks t.key true }) :
    Mirrors H M (S.withKernel K) (V.told [r]) := by
  rw [HostView.told_cons, hread, HostView.told_nil]
  refine ⟨fun u hu => ?_, fun u => ?_, fun u => ?_, fun mtx hmtx => ?_⟩
  · show K.task_id u = u.number
    replace hu : K.created u = true := hu
    rw [hid]
    by_cases hut : u = t
    · rw [hut, update_self]
    · rw [hcreated, if_neg hut] at hu
      rw [update_of_ne hut]
      exact h.number u hu
  · show update V.tasks t.key true u.key = K.created u
    rw [hcreated]
    by_cases hut : u = t
    · rw [hut, update_self, if_pos rfl]
    · have hkey : u.key ≠ t.key := fun heq => hut (Tcb.key_injective heq)
      rw [update_of_ne hkey, if_neg hut]
      exact h.tasks u
  · show V.blocked u.key = if K.created u = true ∧ K.current_state u = .BLOCKED then
      some (H.reason (S.call u)) else none
    rw [hcreated, hstate, h.blocked u]
    by_cases hut : u = t
    · subst hut
      simp [hc]
    · rw [if_neg hut, update_of_ne hut]
  · show V.owner (H.mutex_sync_id mtx) = (K.mutex_owner mtx).map Tcb.key
    rw [howner]
    exact h.owner mtx hmtx

end Mirrors

/-- What `task_create` makes. -/
theorem task_create_made [ListOps L ItemRef ListRef] (K : Kernel L) (c : CoreId) (d p : Nat) :
    ((task_create K c d p).2.1 = none ∧
      ∃ s, (task_create K c d p).2.2 = { K with stack_base0 := s }) ∨
    ∃ t, (task_create K c d p).2.1 = some t ∧ t.home = c ∧ K.created t = false ∧
      (∀ u, (task_create K c d p).2.2.created u = if u = t then true else K.created u) ∧
      (task_create K c d p).2.2.task_id = update K.task_id t t.number ∧
      (task_create K c d p).2.2.current_state = update K.current_state t .READY ∧
      (task_create K c d p).2.2.mutex_owner = K.mutex_owner := by
  by_cases hn : K.task_counter c < MAX_NUM_TASKS
  · cases hm : heap_malloc K.heap_offset (4 * d) with
    | mk block off =>
      cases block with
      | none =>
        left
        simp only [task_create, hn, dite_true, hm]
        exact ⟨trivial, _, rfl⟩
      | some block =>
        right
        refine ⟨.pool c ⟨K.task_counter c, hn⟩, ?_⟩
        simp only [task_create, hn, dite_true, hm, scheduler_add_to_ready_list, update_idem]
        refine ⟨trivial, rfl, by simp [is_created], fun u => ?_, rfl, trivial, trivial⟩
        cases u with
        | idle c' => simp [is_created]
        | pool c' slot =>
          by_cases hcc : c' = c
          · subst hcc
            simp only [is_created, update_self, Tcb.pool.injEq, true_and, Fin.ext_iff]
            by_cases hslot : slot.val = K.task_counter c'
            · simp [hslot]
            · simp only [hslot, if_false, decide_eq_decide]
              omega
          · simp [is_created, hcc]
  · left
    rw [task_create_full hn]
    exact ⟨rfl, _, rfl⟩

namespace Mirrors

variable {H : Hooks} {M : Finset MutexId} {S S' : System Links} {A : System Sequences}
  {V : HostView} {t : Tcb} {es : List Event}

/-- A task that a tick, an unlock or a give wakes. -/
theorem created_of_call (hs : SSim S A grounded) (hcall : S.call t ≠ .own) :
    S.kernel.created t = true ∧ S.kernel.core_id t = t.home := by
  have hc : S.kernel.created t = true := by
    by_contra hc
    exact hcall (hs.kernel.tasks.fresh t (by simpa using hc))
  exact ⟨hc, hs.kernel.tasks.home t hc⟩

theorem give (h : Mirrors H M S V) (hs : SSim S A grounded) (smph : SemaphoreId) :
    Mirrors H M (S.give smph).2 (V.told (Hooks.semaphore_give S.kernel smph)) := by
  unfold System.give Hooks.semaphore_give
  dsimp only
  obtain ⟨w, xs, lists, hl, he⟩ | ⟨-, -, he⟩ | ⟨-, -, he⟩ := semaphore_give_effect hs.kernel smph
  · rw [he]
    obtain ⟨-, hc, -, -, -⟩ := hs.kernel.wait_mem rfl (grounded_entered _)
      (x := .event_list_item w) (by rw [hl]; exact List.mem_cons_self)
    exact h.wakes hc (hs.kernel.tasks.home w hc) rfl rfl rfl rfl
  · rw [he]
    exact h.frame rfl rfl (fun _ => Iff.rfl) (fun _ _ _ => rfl) rfl
  · rw [he]
    exact h

theorem gives : ∀ (smphs : List SemaphoreId) {S : System Links} {A : System Sequences}
    {V : HostView}, Mirrors H M S V → SSim S A grounded →
    Mirrors H M (S.gives smphs).2 (V.told (Hooks.gives smphs S.kernel)) := by
  intro smphs
  induction smphs with
  | nil => exact fun h _ => h
  | cons smph rest ih =>
    intro S A V h hs
    rw [Hooks.gives, HostView.told_append]
    exact ih (h.give hs smph) (hs.give smph (grounded_entered _)).2

/-- The tasks of a tick, one by one. -/
theorem expired (ts : List Tcb) : ∀ {S : System Links} {V : HostView} {K : Kernel Links},
    Mirrors H M S V → (∀ t ∈ ts, S.kernel.created t = true ∧ S.kernel.core_id t = t.home) →
    K.created = S.kernel.created → K.task_id = S.kernel.task_id →
    K.current_state = (fun u => if u ∈ ts then .READY else S.kernel.current_state u) →
    K.mutex_owner = S.kernel.mutex_owner →
    Mirrors H M (S.withKernel K) (V.told (ts.map S.kernel.report_unblocked)) := by
  induction ts with
  | nil =>
    intro S V K h _ hcreated hid hstate howner
    refine h.frame hcreated hid (fun t => ?_) (fun _ _ _ => rfl) howner
    rw [System.withKernel_kernel, hstate]
    simp
  | cons t ts ih =>
    intro S V K h hts hcreated hid hstate howner
    have ht := hts t List.mem_cons_self
    have h₁ : Mirrors H M (S.withKernel { S.kernel with
        current_state := update S.kernel.current_state t .READY })
        (V.told [S.kernel.report_unblocked t]) := h.wakes ht.1 ht.2 rfl rfl rfl rfl
    have hrest : K.current_state = fun u => if u ∈ ts then .READY
        else update S.kernel.current_state t .READY u := by
      rw [hstate]
      funext u
      by_cases hut : u = t
      · simp [hut]
      · simp [hut]
    have h₂ := ih h₁ (K := K) (fun u hu => hts u (List.mem_cons_of_mem _ hu)) hcreated hid hrest
      howner
    exact h₂

theorem timer_tick (h : Mirrors H M S V) (hs : SSim S A grounded) (c : CoreId) :
    Mirrors H M (S.withKernel (timer_tick_handler S.kernel c).2)
      (V.told (Hooks.timer_tick_handler S.kernel c)) := by
  obtain ⟨lists, he⟩ := timer_tick_handler_effect S.kernel c
  refine h.expired _ (fun t ht => ?_) (by rw [he]) (by rw [he]) (by rw [he]) (by rw [he])
  refine created_of_call hs fun hown => ?_
  have htimed := (timer_tick_woken hs.kernel ht).2
  rw [hown] at htimed
  cases htimed

theorem switch (h : Mirrors H M S V) (hs : SSim S A grounded) (c : CoreId) :
    Mirrors H M (S.withKernel (scheduler_switch_context S.kernel c)) V := by
  obtain ⟨lists, st, cur, hung, he, hb⟩ := switch_context_effect hs.kernel (c := c) fun _ _ => rfl
  rw [he]
  exact h.frame rfl rfl hb (fun _ _ _ => rfl) rfl

theorem tick (h : Mirrors H M S V) (hs : SSim S A grounded) (c : CoreId)
    (smphs : List SemaphoreId) :
    Mirrors H M (S.tick c smphs).2 (V.told (Hooks.timer_tick_handler S.kernel c ++
      Hooks.gives smphs (Rpitos.timer_tick_handler S.kernel c).2)) := by
  have hs₁ : SSim (S.withKernel (timer_tick_handler S.kernel c).2)
      (A.withKernel (timer_tick_handler A.kernel c).2) grounded :=
    ⟨hs.call, (hs.kernel.timer_tick_handler (fun u hu => absurd rfl hu)).2⟩
  have hs₂ := (hs₁.gives smphs (fun _ _ => grounded_entered _)).2
  rw [HostView.told_append]
  exact (gives smphs (h.timer_tick hs c) hs₁).switch hs₂ c

/-- A task that runs has no report of being blocked. -/
theorem moves (h : Mirrors H M S V) (hs : SSim S A grounded) (hr : S.kernel.runs t = true)
    {K : Kernel Links} (k : Call) (hcreated : K.created = S.kernel.created)
    (hid : K.task_id = S.kernel.task_id) (hstate : K.current_state = S.kernel.current_state)
    (howner : K.mutex_owner = S.kernel.mutex_owner) :
    Mirrors H M ((S.withKernel K).setCall t k) V := by
  refine h.frame hcreated hid (fun u => ?_) (fun u _ hb => ?_) howner
  · rw [System.setCall_kernel, System.withKernel_kernel, hstate]
  · have hne : u ≠ t := by
      rintro rfl
      exact (hs.running hr).2.1 hb
    rw [System.setCall_call, System.withKernel_call, update_of_ne hne]

theorem lock (h : Mirrors H M S V) (hids : Set.InjOn H.mutex_sync_id M) (hs : SSim S A grounded)
    (hr : S.kernel.runs t = true) {mtx : MutexId} (hmtx : mtx ∈ M) (timeout_ms : Int) :
    Mirrors H M (S.lock t mtx timeout_ms).2
      (V.told (H.mutex_lock S.kernel mtx t timeout_ms)) := by
  have hc := (hs.running hr).1
  have hhome := hs.kernel.tasks.home t hc
  unfold System.lock Hooks.mutex_lock
  obtain ⟨hu, held, he⟩ | ⟨hu, ht, he⟩ | ⟨hu, ht, lists, wake, prio, inh, he⟩ :=
    mutex_lock_effect S.kernel mtx t timeout_ms
  · rw [he, if_pos hu]
    exact h.owns hids hmtx (fun u hu => by cases hu; exact ⟨hc, hhome⟩) rfl rfl rfl rfl
  · rw [he, if_neg hu, if_pos ht]
    exact h
  · rw [he, if_neg hu, if_neg ht]
    exact h.blocks (k := .mutex_lock mtx timeout_ms) hc hhome rfl rfl rfl rfl

theorem unlock (h : Mirrors H M S V) (hids : Set.InjOn H.mutex_sync_id M) (hs : SSim S A grounded)
    {mtx : MutexId} (hmtx : mtx ∈ M) :
    Mirrors H M (S.unlock t mtx).2 (V.told (H.mutex_unlock S.kernel mtx)) := by
  unfold System.unlock Hooks.mutex_unlock
  dsimp only
  by_cases hl : S.kernel.mutex_state mtx = .LOCKED
  case neg =>
    have hnone : ¬ (S.kernel.mutex_state mtx = .LOCKED ∧
        num_items S.kernel.lists (.mutex_blocked_list mtx) = 0) := fun h => hl h.1
    rw [Rpitos.mutex_unlock, if_neg hl]
    simp only [if_neg hnone]
    exact h
  obtain ⟨hempty, lists, prio, held, inh, he⟩ | ⟨w, lists, prio, held, inh, hw, he⟩ :=
    mutex_unlock_effect hs.kernel hl
  · have hboth : S.kernel.mutex_state mtx = .LOCKED ∧
        num_items S.kernel.lists (.mutex_blocked_list mtx) = 0 := by
      rw [hs.kernel.num_items_eq]
      exact ⟨hl, (hs.kernel.num_items_zero _).mpr hempty⟩
    rw [he]
    simp only [if_pos hboth]
    exact h.owns hids hmtx (fun u hu => by cases hu) rfl rfl rfl rfl
  · rw [he]
    obtain ⟨-, hwaits⟩ := (hs.kernel.mem_wait rfl).mp hw
    obtain ⟨hc, hhome⟩ := created_of_call hs (t := w) fun hown => by
      rw [hown] at hwaits
      cases hwaits
    have h₁ : Mirrors H M (S.withKernel { S.kernel with
        current_state := update S.kernel.current_state w .READY })
        (V.told [S.kernel.report_unblocked w]) := h.wakes hc hhome rfl rfl rfl rfl
    have hw : ∀ u, some w = some u → S.kernel.created u = true ∧ S.kernel.core_id u = u.home :=
      fun u hu => by cases hu; exact ⟨hc, hhome⟩
    exact h₁.owns hids hmtx hw rfl rfl rfl rfl

theorem take (h : Mirrors H M S V) (hs : SSim S A grounded) (hr : S.kernel.runs t = true)
    (smph : SemaphoreId) (timeout_ms : Int) (deadline : Nat) :
    Mirrors H M (S.take t smph timeout_ms deadline).2
      (V.told (H.semaphore_take S.kernel smph t timeout_ms deadline)) := by
  have hc := (hs.running hr).1
  have hhome := hs.kernel.tasks.home t hc
  unfold System.take Hooks.semaphore_take
  obtain ⟨hcount, he⟩ | ⟨hcount, hgive_up, he⟩ | ⟨hcount, ht, hd, lists, wake, he⟩ :=
    semaphore_take_effect S.kernel smph t timeout_ms deadline
  · rw [he, if_pos hcount]
    exact h.moves hs hr .own rfl rfl rfl rfl
  · rw [he, if_neg (by omega)]
    have hnone : (if timeout_ms = 0 then ([] : List Report)
        else if 0 < timeout_ms ∧ deadline ≤ S.kernel.tick_count t.home then []
        else [S.kernel.report_blocked t .SYNC_KIND_SEMAPHORE (H.semaphore_sync_id smph)]) = [] := by
      rcases hgive_up with h0 | hpast
      · rw [if_pos h0]
      · rw [if_pos hpast, ite_self]
    rw [hnone]
    exact h.moves hs hr .own rfl rfl rfl rfl
  · rw [he, if_neg (by omega), if_neg ht, if_neg hd]
    exact h.blocks (k := .semaphore_wait smph timeout_ms deadline) hc hhome rfl rfl rfl rfl

theorem proceed (h : Mirrors H M S V) (hs : SSim S A grounded) (hr : S.kernel.runs t = true)
    (hp : S.proceed t = some (es, S')) : Mirrors H M S' (V.told (H.reports S (.proceed t))) := by
  have hc := (hs.running hr).1
  unfold Hooks.reports
  cases System.proceeds hp with
  | block_until hcall =>
    obtain ⟨lists, he⟩ := block_until_effect S.kernel t _
    simp only [hcall]
    rw [he]
    exact h.blocks (k := .delayed) hc (hs.kernel.tasks.home t hc) rfl rfl rfl rfl
  | delayed hcall =>
    simp only [hcall]
    exact h.moves hs hr .own rfl rfl rfl rfl
  | mutex_lock hcall =>
    simp only [hcall]
    exact h.moves hs hr .own rfl rfl rfl rfl
  | semaphore_take hcall =>
    simp only [hcall]
    exact h.take hs hr ..
  | semaphore_wait hcall =>
    simp only [hcall]
    unfold System.takeWake semaphore_take_wake
    by_cases hw : S.kernel.wakeup_reason t = .RESOURCE_ACQUIRED
    · rw [if_pos hw]
      exact h.moves hs hr .own rfl rfl rfl rfl
    · rw [if_neg hw]
      exact h.moves hs hr _ rfl rfl rfl rfl

/-- A step of the kernel, with what it reports. -/
theorem step {a : Action} (h : Mirrors H M S V) (hids : Set.InjOn H.mutex_sync_id M)
    (hs : SSim S A grounded) (ha : a.within M) (hstep : S.step a = some (es, S')) :
    Mirrors H M S' (V.told (H.reports S a)) := by
  cases System.step_move hstep with
  | @scheduler_init c hi =>
    refine h.creates (t := .idle c) hi (fun u => ?_) ?_ ?_ rfl rfl
    · cases u with
      | idle c' =>
        simp [scheduler_init, scheduler_add_to_ready_list, is_created, update_apply]
      | pool c' slot => simp [scheduler_init, scheduler_add_to_ready_list, is_created]
    · rfl
    · simp [scheduler_init, scheduler_add_to_ready_list]
  | @scheduler_start c _ _ => exact h.switch hs c
  | @tick c timer_gives _ => exact h.tick hs c timer_gives
  | @task_create c d p _ =>
    show Mirrors H M _ (V.told (H.task_create S.kernel c d p))
    unfold Hooks.task_create
    obtain ⟨hnone, s, he⟩ | ⟨t, hmade, hhome, hc, hcreated, hid, hstate, howner⟩ :=
      task_create_made S.kernel c d p
    · simp only [hnone]
      rw [he]
      exact h.frame rfl rfl (fun _ => Iff.rfl) (fun _ _ _ => rfl) rfl
    · simp only [hmade]
      refine h.creates hc hcreated hid hstate howner ?_
      rw [hid, update_self, ← hhome]
      rfl
  | stack_write _ => exact h.frame rfl rfl (fun _ => Iff.rfl) (fun _ _ _ => rfl) rfl
  | task_delay_ms hf => exact h.moves hs hf.1 _ rfl rfl rfl rfl
  | task_delay_until_ms hf => exact h.moves hs hf.1 _ rfl rfl rfl rfl
  | @mutex_set_inheritance m enable =>
    obtain ⟨_, he⟩ := mutex_set_inheritance_effect S.kernel m enable
    rw [he]
    exact h.frame rfl rfl (fun _ => Iff.rfl) (fun _ _ _ => rfl) rfl
  | mutex_lock hf => exact h.lock hids hs hf.1 ha _
  | mutex_unlock hf ho => exact h.unlock hids hs ha
  | semaphore_take hf => exact h.moves hs hf.1 _ rfl rfl rfl rfl
  | semaphore_give => exact h.give hs _
  | proceed hr hp => exact h.proceed hs hr hp

end Mirrors

/-! ## Runs -/

/-- The kernel, and what has been reported so far. -/
structure Observed where
  system : System Links
  reports : List Report

inductive ObservedAction where
  | kernel (a : Action)
  /-- A report from elsewhere. -/
  | report (r : Report)

namespace Observed

def step (H : Hooks) (O : Observed) : ObservedAction → Option Observed
  | .kernel a => (O.system.step a).map fun r => ⟨r.2, O.reports ++ H.reports O.system a⟩
  | .report r => some { O with reports := O.reports ++ [r] }

/-- The mutexes are those of `M`, and nothing else reports what the kernel reports. -/
def within (M : Finset MutexId) (_ : Observed) : ObservedAction → Prop
  | .kernel a => a.within M
  | .report r => r.aside = true

instance (M : Finset MutexId) (O : Observed) : (a : ObservedAction) → Decidable (within M O a)
  | .kernel a => inferInstanceAs (Decidable (a.within M))
  | .report r => inferInstanceAs (Decidable (r.aside = true))

/-- The kernel's state is what the reports say. -/
structure Shown (H : Hooks) (M : Finset MutexId) (O : Observed) : Prop where
  sim : ∃ A, SSim O.system A grounded
  mirrors : Mirrors H M O.system (HostView.boot.told O.reports)

namespace Shown

variable {H : Hooks} {M : Finset MutexId} {O O' : Observed}

theorem boot (max_count initial_count : SemaphoreId → Nat) :
    Shown H M ⟨Rpitos.boot max_count initial_count, []⟩ := by
  have hcreated : ∀ t, (Rpitos.boot max_count initial_count).kernel.created t = false := fun t => by
    cases t <;> rfl
  refine ⟨⟨_, SSim.boot max_count initial_count⟩, fun t ht => ?_, fun t => (hcreated t).symm,
    fun t => ?_, fun _ _ => rfl⟩
  · rw [hcreated] at ht
    cases ht
  · rw [hcreated, if_neg fun h => Bool.false_ne_true h.1]
    rfl

theorem step {a : ObservedAction} (h : Shown H M O) (hids : Set.InjOn H.mutex_sync_id M)
    (ha : within M O a) (hstep : O.step H a = some O') : Shown H M O' := by
  obtain ⟨A, hs⟩ := h.sim
  cases a with
  | kernel a =>
    obtain ⟨⟨es, S'⟩, hS, rfl⟩ := Option.map_eq_some_iff.mp hstep
    obtain ⟨A', -, hs'⟩ := hs.step_some hS
    refine ⟨⟨A', hs'⟩, ?_⟩
    rw [HostView.told_append]
    exact h.mirrors.step hids hs ha hS
  | report r =>
    cases hstep
    refine ⟨h.sim, ?_⟩
    rw [HostView.told_append, HostView.told_cons, HostView.read_aside _ ha]
    exact h.mirrors

end Shown

end Observed

/-- From boot on, in whatever order the kernel takes its steps and other reports come between: the
bytes sent so far read as packets, and from these packets alone a host has the tasks of the kernel,
which of them are blocked and on what, and the owners of the mutexes, if these have different
`sync_id`s. -/
theorem telemetry_follows {H : Hooks} {M : Finset MutexId}
    {max_count initial_count : SemaphoreId → Nat} {O : Observed}
    (hids : Set.InjOn H.mutex_sync_id M)
    (hr : Reach (Observed.step H) (Observed.within M) ⟨boot max_count initial_count, []⟩ O) :
    ∃ packets, read_packets (send_all (O.reports.map Report.call)).tx = some packets ∧
      Mirrors H M O.system (HostView.boot.hear packets) := by
  have hshown : Observed.Shown H M O :=
    hr.invariant (.boot max_count initial_count) fun _ _ _ h ha hs => h.step hids ha hs
  refine ⟨_, read_packets_calls ?_, hshown.mirrors⟩
  exact List.forall₂_map_left_iff.mpr (List.forall₂_map_right_iff.mpr
    (List.forall₂_same.mpr fun r _ => r.carries))

/-- Objects numbered from 0 on. -/
def numbered_hooks : Hooks :=
  ⟨UInt16.ofNat, UInt16.ofNat, fun _ => none, fun _ _ => 0⟩

/-- A task owns a mutex, and another one waits for it. -/
def watched : List ObservedAction :=
  [.kernel (.scheduler_init 0), .kernel (.task_create 0 100 2), .kernel (.task_create 0 100 2),
    .kernel (.scheduler_start 0), .kernel (.mutex_lock (.pool 0 0) 1 (-1)), .report (.heartbeat 1),
    .kernel (.tick 0 []), .kernel (.mutex_lock (.pool 0 1) 1 7)]

theorem watched_run :
    (execute (Observed.step numbered_hooks) (Observed.within {0, 1})
      ⟨boot (fun _ => 1) (fun _ => 0), []⟩ watched).isSome = true := by rfl

theorem telemetry_follows_watched : ∃ O : Observed,
    O.system.kernel.mutex_owner 1 = some (.pool 0 0) ∧
      O.system.kernel.current_state (.pool 0 1) = .BLOCKED ∧
      ∃ packets, read_packets (send_all (O.reports.map Report.call)).tx = some packets ∧
        Mirrors numbered_hooks {0, 1} O.system (HostView.boot.hear packets) := by
  have hids : Set.InjOn numbered_hooks.mutex_sync_id ({0, 1} : Finset MutexId) := by
    intro a ha b hb h
    simp only [Finset.coe_insert, Finset.coe_singleton, Set.mem_insert_iff,
      Set.mem_singleton_iff] at ha hb
    rcases ha with rfl | rfl <;> rcases hb with rfl | rfl <;> first | rfl | cases h
  exact ⟨_, by rfl, by rfl, telemetry_follows hids
    (Reach.of_exec watched .start (Option.some_get watched_run).symm)⟩

end Rpitos
