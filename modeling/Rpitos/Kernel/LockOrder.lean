import Rpitos.Kernel.Locks

/-!
# Kernel.LockOrder

The order of the spinlocks: those of sync objects, then a core's scheduler lock, then those of
telemetry. Each operation of `Kernel.Locks` keeps it (`KernelOp.keeps`), so `lock_order`: every run
of one is balanced and ordered, and no circle of cores waits for each other. `some_operation_runs`:
the operations never block each other for good.
-/

namespace Rpitos

open Function (update)
open StatusCode ListOps

/-- The place of a lock in the order. -/
def LockId.rank : LockId → Nat
  | .mutex _ => 0
  | .semaphore _ => 0
  | .queue _ => 0
  | .heap_lock => 0
  | .uart_buf_lock => 0
  | .scheduler _ => 1
  | .telemetry_lock => 2
  | .tick_ring _ => 2

@[simp] theorem LockId.rank_mutex (mtx : MutexId) : (LockId.mutex mtx).rank = 0 := rfl

@[simp] theorem LockId.rank_semaphore (smph : SemaphoreId) : (LockId.semaphore smph).rank = 0 := rfl

@[simp] theorem LockId.rank_scheduler (c : CoreId) : (LockId.scheduler c).rank = 1 := rfl

namespace Locks

variable {n : Nat} {α : Type} {held held' : List LockId}

/-- The program keeps the order from the locks `held` on. -/
abbrev Keeps (p : Locked n α) (held held' : List LockId) : Prop := p.Ordered LockId.rank held held'

section Rules

variable (k : Unit → Locked n α)

@[simp] theorem keeps_acquire (l : LockId) : Keeps (spinlock_acquire l >>= k) held held' ↔
    (∀ m ∈ held, m.rank < l.rank) ∧ Keeps (k ()) (l :: held) held' := Iff.rfl

@[simp] theorem keeps_release_bind (l : LockId) : Keeps (spinlock_release l >>= k) held held' ↔
    l ∈ held ∧ Keeps (k ()) (held.erase l) held' := Iff.rfl

@[simp] theorem keeps_release (l : LockId) : Keeps (spinlock_release l : Locked n Unit) held held' ↔
    l ∈ held ∧ held.erase l = held' := Iff.rfl

@[simp] theorem keeps_lock (c : CoreId) : Keeps (scheduler_lock c >>= k) held held' ↔
    (∀ m ∈ held, m.rank < 1) ∧ Keeps (k ()) (.scheduler c :: held) held' := Iff.rfl

@[simp] theorem keeps_unlock_bind (c : CoreId) : Keeps (scheduler_unlock c >>= k) held held' ↔
    .scheduler c ∈ held ∧ Keeps (k ()) (held.erase (.scheduler c)) held' := Iff.rfl

@[simp] theorem keeps_unlock (c : CoreId) : Keeps (scheduler_unlock c : Locked n Unit) held held' ↔
    .scheduler c ∈ held ∧ held.erase (.scheduler c) = held' := Iff.rfl

@[simp] theorem keeps_read (k : Kernel Links → Locked n α) : Keeps (kernel >>= k) held held' ↔
    ∀ K, Keeps (k K) held held' := Iff.rfl

@[simp] theorem keeps_store_bind (f : Kernel Links → Kernel Links) :
    Keeps (store f >>= k) held held' ↔ Keeps (k ()) held held' := LockProg.Ordered.modify_bind ..

@[simp] theorem keeps_store (f : Kernel Links → Kernel Links) :
    Keeps (store f : Locked n Unit) held held' ↔ held = held' := LockProg.Ordered.modify ..

end Rules

/-- A hook needs a lock of the last rank. -/
@[simp] theorem keeps_telemetry_send_bind (k : Unit → Locked n α) (type : UInt32)
    (payload : List UInt8) : Keeps (telemetry_send type payload >>= k) held held' ↔
      (∀ m ∈ held, m.rank < 2) ∧ Keeps (k ()) held held' := by
  show (∀ m ∈ held, m.rank < 2) ∧ (∀ _ : Unit, _ ∈ _ :: held ∧
    Keeps (k ()) ((LockId.telemetry_lock :: held).erase .telemetry_lock) held') ↔ _
  simp

@[simp] theorem keeps_tick_state_bind (k : Unit → Locked n α) (c : CoreId) (task_id : Nat)
    (state : TaskState) : Keeps (telemetry_report_tick_state c task_id state >>= k) held held' ↔
      (∀ m ∈ held, m.rank < 2) ∧ Keeps (k ()) held held' := by
  show (∀ m ∈ held, m.rank < 2) ∧ (∀ _ : Unit, _ ∈ _ :: held ∧
    Keeps (k ()) ((LockId.tick_ring c :: held).erase (.tick_ring c)) held') ↔ _
  simp

theorem heap_malloc_keeps (size : Nat) : Keeps (heap_malloc size : Locked n _) [] [] := by
  unfold heap_malloc
  simp only [keeps_acquire, keeps_read]
  refine ⟨by simp, fun K => ?_⟩
  split <;> simp

theorem spin_while_blocked_keeps (t : Tcb) :
    Keeps (spin_while_blocked t : Locked n _) held held := by
  refine .repeating ?_
  simp

theorem semaphore_take_enter_keeps (smph : SemaphoreId) (t : Tcb) (timeout_ms : Int)
    (deadline : Nat) (c : CoreId) :
    Keeps (semaphore_take_enter smph t timeout_ms deadline c : Locked n _) [] [] := by
  unfold semaphore_take_enter telemetry_report_task_blocked
  simp

theorem semaphore_take_wake_keeps (smph : SemaphoreId) (t : Tcb) :
    Keeps (semaphore_take_wake smph t : Locked n _) [] [] := by
  unfold semaphore_take_wake
  simp

theorem semaphore_take_keeps (smph : SemaphoreId) (t : Tcb) (timeout_ms : Int) :
    Keeps (semaphore_take smph t timeout_ms : Locked n _) [] [] := by
  unfold semaphore_take
  rw [keeps_read]
  refine fun K => .repeating (.bind (semaphore_take_enter_keeps ..) fun code => ?_)
  cases code with
  | some code => simp
  | none => exact .bind (spin_while_blocked_keeps t) fun _ => semaphore_take_wake_keeps ..

theorem semaphore_give_keeps (smph : SemaphoreId) :
    Keeps (semaphore_give smph : Locked n _) [] [] := by
  unfold semaphore_give telemetry_report_task_unblocked
  simp only [keeps_acquire, keeps_read, LockProg.Ordered.ite, LockProg.Ordered.atomically_bind]
  refine ⟨by simp, fun K => ⟨fun _ w => ?_, fun _ => ⟨by simp, by simp⟩⟩⟩
  cases w with
  | none => simp
  | some p_next_tcb => simp

theorem queue_send_keeps (q : Nat) (t : Tcb) (src : Memory) (timeout_ms : Int) :
    Keeps (queue_send q t src timeout_ms : Locked n _) [] [] := by
  unfold queue_send
  simp only [LockProg.Ordered.get_bind]
  refine fun X => .bind (semaphore_take_keeps ..) fun code => ?_
  simp only [LockProg.Ordered.ite]
  refine ⟨fun _ => rfl, fun _ => ?_⟩
  simp only [keeps_acquire, LockProg.Ordered.modify_bind, keeps_release_bind]
  refine ⟨by simp, by simp, ?_⟩
  rw [List.erase_cons_head]
  exact .bind (semaphore_give_keeps _) fun _ => rfl

theorem queue_recv_keeps (q : Nat) (t : Tcb) (timeout_ms : Int) :
    Keeps (queue_recv q t timeout_ms : Locked n _) [] [] := by
  unfold queue_recv
  simp only [LockProg.Ordered.get_bind]
  refine fun X => .bind (semaphore_take_keeps ..) fun code => ?_
  simp only [LockProg.Ordered.ite]
  refine ⟨fun _ => rfl, fun _ => ?_⟩
  simp only [keeps_acquire, LockProg.Ordered.atomically_bind, keeps_release_bind]
  refine ⟨by simp, fun item => ⟨by simp, ?_⟩⟩
  rw [List.erase_cons_head]
  exact .bind (semaphore_give_keeps _) fun _ => rfl

theorem mutex_boost_holder_keeps (mtx : MutexId) :
    Keeps (mutex_boost_holder mtx : Locked n _) [.mutex mtx] [.mutex mtx] := by
  unfold mutex_boost_holder
  rw [keeps_read]
  intro K
  split
  · simp
  · simp

theorem mutex_inherit_keeps (mtx : MutexId) (t : Tcb) :
    Keeps (mutex_inherit mtx t : Locked n _) [.mutex mtx] [.mutex mtx] := by
  unfold mutex_inherit
  simp [mutex_boost_holder_keeps]

theorem mutex_lock_wait_keeps (mtx : MutexId) (t : Tcb) (timeout_ms : Int) :
    Keeps (mutex_lock_wait mtx t timeout_ms : Locked n _) [.mutex mtx] [.mutex mtx] := by
  unfold mutex_lock_wait telemetry_report_task_blocked
  simp

theorem mutex_lock_enter_keeps (mtx : MutexId) (t : Tcb) (timeout_ms : Int) :
    Keeps (mutex_lock_enter mtx t timeout_ms : Locked n _) [] [] := by
  unfold mutex_lock_enter telemetry_report_mutex_owner_changed
  simp only [keeps_acquire, keeps_read, LockProg.Ordered.ite]
  refine ⟨by simp, fun K => ⟨fun _ => by simp, fun _ => ⟨fun _ => by simp, fun _ => ?_⟩⟩⟩
  refine .bind (mutex_lock_wait_keeps ..) fun _ => .bind (mutex_inherit_keeps ..) fun _ => ?_
  simp

theorem mutex_lock_keeps (mtx : MutexId) (t : Tcb) (timeout_ms : Int) :
    Keeps (mutex_lock mtx t timeout_ms : Locked n _) [] [] := by
  unfold mutex_lock
  refine .bind (mutex_lock_enter_keeps ..) fun code => ?_
  cases code with
  | some code => rfl
  | none =>
    refine .bind (spin_while_blocked_keeps t) fun _ => ?_
    simp

theorem mutex_restore_holder_keeps (mtx : MutexId) (holder : Option Tcb) :
    Keeps (mutex_restore_holder mtx holder : Locked n _) [.mutex mtx] [.mutex mtx] := by
  unfold mutex_restore_holder
  cases holder with
  | none => rfl
  | some holder => simp

theorem mutex_transfer_keeps (mtx : MutexId) (t : Tcb) :
    Keeps (mutex_transfer mtx t : Locked n _) [.mutex mtx] [.mutex mtx] := by
  unfold mutex_transfer telemetry_report_task_unblocked telemetry_report_mutex_owner_changed
  simp

theorem mutex_release_keeps (mtx : MutexId) (holder : Option Tcb) :
    Keeps (mutex_release mtx holder : Locked n _) [.mutex mtx] [.mutex mtx] := by
  unfold mutex_release telemetry_report_mutex_owner_changed
  simp [mutex_restore_holder_keeps]

theorem mutex_hand_over_keeps (mtx : MutexId) (holder : Option Tcb) :
    Keeps (mutex_hand_over mtx holder : Locked n _) [.mutex mtx] [.mutex mtx] := by
  unfold mutex_hand_over
  simp only [LockProg.Ordered.atomically_bind]
  intro next_owner
  cases next_owner with
  | none => rfl
  | some next_owner =>
    exact .bind (mutex_restore_holder_keeps ..) fun _ => mutex_transfer_keeps ..

theorem mutex_unlock_keeps (mtx : MutexId) : Keeps (mutex_unlock mtx : Locked n _) [] [] := by
  unfold mutex_unlock
  simp only [keeps_acquire, keeps_read, LockProg.Ordered.ite]
  refine ⟨by simp, fun K => ⟨fun _ => ⟨fun _ => ?_, fun _ => ?_⟩, fun _ => by simp⟩⟩
  · exact .bind (mutex_release_keeps ..) fun _ => by simp
  · exact .bind (mutex_hand_over_keeps ..) fun _ => by simp

theorem block_until_keeps (c : CoreId) (t : Tcb) (wakeup_time : Nat) :
    Keeps (block_until c t wakeup_time : Locked n _) [] [] := by
  have henter : Keeps (block_until_enter c t wakeup_time : Locked n _) [] [] := by
    unfold block_until_enter telemetry_report_task_blocked
    simp
  exact henter.bind fun _ => spin_while_blocked_keeps t

theorem scheduler_switch_context_keeps (c : CoreId) :
    Keeps (scheduler_switch_context c : Locked n _) [] [] := by
  unfold scheduler_switch_context
  simp only [keeps_read, LockProg.Ordered.ite]
  refine fun K => ⟨fun _ => .hang, fun _ => ?_⟩
  simp only [keeps_lock, keeps_store_bind, keeps_read, LockProg.Ordered.ite]
  refine ⟨by simp, fun K => ⟨fun _ K => ?_, fun _ => by simp⟩⟩
  cases K.p_task_control_block c with
  | none => simp
  | some current => simp

theorem expire_round_keeps (c : CoreId) :
    Keeps (expire_round c : Locked n _) [.scheduler c] [.scheduler c] := by
  unfold expire_round telemetry_report_task_unblocked
  rw [keeps_read]
  intro K
  split
  · rfl
  · simp

theorem software_timer_tick_keeps (now_tick : Nat) :
    Keeps (software_timer_tick now_tick : Locked n _) [] [] := by
  unfold software_timer_tick
  refine .repeating ?_
  simp only [LockProg.Ordered.get_bind]
  intro X
  split
  · rfl
  · simp only [LockProg.Ordered.ite]
    refine ⟨fun _ => ?_, fun _ => rfl⟩
    split
    · rw [LockProg.Ordered.modify_bind]
      exact .bind (semaphore_give_keeps _) fun _ => rfl
    · exact .hang

theorem timer_tick_handler_keeps (c : CoreId) :
    Keeps (timer_tick_handler c : Locked n _) [] [] := by
  unfold timer_tick_handler
  simp only [keeps_store_bind, keeps_lock]
  refine ⟨by simp, .bind (.repeating (expire_round_keeps c)) fun _ => ?_⟩
  simp only [keeps_unlock_bind, LockProg.Ordered.ite, keeps_read]
  refine ⟨by simp, ?_⟩
  rw [List.erase_cons_head]
  exact ⟨fun _ K => software_timer_tick_keeps _, fun _ => rfl⟩

theorem uart_print_keeps (str : List UInt8) : Keeps (uart_print str : Locked n _) [] [] := by
  unfold uart_print
  simp only [LockProg.Ordered.get_bind, LockProg.Ordered.ite]
  refine fun X => ⟨fun _ => ?_, fun _ => by simp⟩
  simp only [keeps_acquire, LockProg.Ordered.modify_bind, keeps_release_bind]
  refine ⟨by simp, by simp, ?_⟩
  rw [List.erase_cons_head]
  exact .bind (semaphore_give_keeps _) fun _ => rfl

theorem task_create_keeps (c : CoreId) (stack_depth priority : Nat) (name : List UInt8) :
    Keeps (task_create c stack_depth priority name : Locked n _) [] [] := by
  unfold task_create telemetry_report_task_created
  rw [keeps_read]
  intro K
  split
  · refine .bind (heap_malloc_keeps _) fun block => ?_
    cases block with
    | none =>
      simp only [keeps_store_bind]
      exact .bind (uart_print_keeps _) fun _ => rfl
    | some block => simp
  · rfl

end Locks

/-- The operations of the kernel. -/
inductive KernelOp where
  | scheduler_switch_context (core_id : CoreId)
  | timer_tick_handler (core_id : CoreId)
  | block_until (core_id : CoreId) (my_tcb : Tcb) (wakeup_time : Nat)
  | mutex_lock (mtx : MutexId) (cur_tcb : Tcb) (timeout_ms : Int)
  | mutex_unlock (mtx : MutexId)
  | semaphore_take (smph : SemaphoreId) (cur_tcb : Tcb) (timeout_ms : Int)
  | semaphore_give (smph : SemaphoreId)
  | queue_send (q : Nat) (cur_tcb : Tcb) (src : Memory) (timeout_ms : Int)
  | queue_recv (q : Nat) (cur_tcb : Tcb) (timeout_ms : Int)
  | task_create (core_id : CoreId) (stack_depth priority : Nat) (name : List UInt8)
  | heap_malloc (size : Nat)

/-- The code of an operation; nobody looks at its result. -/
def KernelOp.program {n : Nat} : KernelOp → Locks.Locked n Unit
  | .scheduler_switch_context core_id => Locks.scheduler_switch_context core_id
  | .timer_tick_handler core_id => Locks.timer_tick_handler core_id
  | .block_until core_id my_tcb wakeup_time => Locks.block_until core_id my_tcb wakeup_time
  | .mutex_lock mtx cur_tcb timeout_ms => do let _ ← Locks.mutex_lock mtx cur_tcb timeout_ms
  | .mutex_unlock mtx => Locks.mutex_unlock mtx
  | .semaphore_take smph cur_tcb timeout_ms => do
    let _ ← Locks.semaphore_take smph cur_tcb timeout_ms
  | .semaphore_give smph => do let _ ← Locks.semaphore_give smph
  | .queue_send q cur_tcb src timeout_ms => do let _ ← Locks.queue_send q cur_tcb src timeout_ms
  | .queue_recv q cur_tcb timeout_ms => do let _ ← Locks.queue_recv q cur_tcb timeout_ms
  | .task_create core_id stack_depth priority name => do
    let _ ← Locks.task_create core_id stack_depth priority name
  | .heap_malloc size => do let _ ← Locks.heap_malloc size

open Locks in
theorem KernelOp.keeps {n : Nat} (op : KernelOp) : Keeps (op.program : Locked n Unit) [] [] := by
  cases op with
  | scheduler_switch_context c => exact scheduler_switch_context_keeps c
  | timer_tick_handler c => exact timer_tick_handler_keeps c
  | block_until c t wakeup_time => exact block_until_keeps c t wakeup_time
  | mutex_lock mtx t timeout_ms => exact .bind (mutex_lock_keeps ..) fun _ => rfl
  | mutex_unlock mtx => exact mutex_unlock_keeps mtx
  | semaphore_take smph t timeout_ms => exact .bind (semaphore_take_keeps ..) fun _ => rfl
  | semaphore_give smph => exact .bind (semaphore_give_keeps _) fun _ => rfl
  | queue_send q t src timeout_ms => exact .bind (queue_send_keeps ..) fun _ => rfl
  | queue_recv q t timeout_ms => exact .bind (queue_recv_keeps ..) fun _ => rfl
  | task_create c stack_depth priority name => exact .bind (task_create_keeps ..) fun _ => rfl
  | heap_malloc size => exact .bind (heap_malloc_keeps _) fun _ => rfl

/-- Actors that run operations keep the order. -/
theorem operations_disciplined {n : Nat} {κ : Type} [DecidableEq κ]
    {X Y : Actors κ (Shared n) LockId} (hrest : X.AtRest)
    (hr : Relation.ReflTransGen (Actors.Step fun p => ∃ op : KernelOp, p = op.program) X Y) :
    Y.Disciplined LockId.rank := by
  refine hrest.disciplined.reach ?_ hr
  rintro p ⟨op, rfl⟩
  exact op.keeps

/-- Every run of an operation, whatever others store meanwhile, acquires locks in increasing rank
only and releases what it holds; it holds no two locks of one rank, and none when it returns. So when
any actors run operations over one memory, no circle of them waits for each other. -/
theorem lock_order (n : Nat) :
    (∀ (op : KernelOp) (X Y : Shared n) (ops : List (LockOp LockId)) (p : Locks.Locked n Unit),
      LockProg.Run (fun _ _ => True) op.program X ops p Y →
        ∃ held, run_locks LockId.rank [] ops = some held ∧
          held.Pairwise (fun l m => m.rank < l.rank) ∧ (p = .ret () → held = [])) ∧
    ∀ {κ : Type} [DecidableEq κ] (X Y : Actors κ (Shared n) LockId), X.AtRest →
      Relation.ReflTransGen (Actors.Step fun p => ∃ op : KernelOp, p = op.program) X Y →
        ∀ i, ¬ Relation.TransGen Y.WaitsFor i i := by
  constructor
  · intro op X Y ops p hrun
    obtain ⟨held, hops, hp⟩ := LockProg.Ordered.run hrun op.keeps
    refine ⟨held, hops, run_locks_decreasing hops .nil, fun hret => ?_⟩
    rw [hret] at hp
    exact hp
  · intro κ _ X Y hrest hr i
    exact Actors.no_wait_cycle (operations_disciplined hrest hr) i

/-- A memory without queues and timers. -/
def idle_memory : Shared 0 where
  toUartSystem := .boot (boot (fun _ => 1) (fun _ => 0)).kernel ⟨true, .idle 0, 0, 1⟩
  uart_buffered := false
  queue _ := ⟨0, 0, 0, 0, 0, 0, 0⟩
  memory _ := 0
  timers := .boot 0
  software_timer_semaphore := 2
  telemetry := .boot
  tick_rings _ := ⟨fun _ => ⟨0, 0, 0⟩, 0, 0, 0⟩
  mutex_sync_id _ := 0
  semaphore_sync_id _ := 0

/-- A task of core 1 waits for semaphore 0. -/
def waiting_task : List Action :=
  [.scheduler_init 1, .task_create 1 100 2, .scheduler_start 1,
   .semaphore_take (.pool 1 0) 0 (-1), .proceed (.pool 1 0)]

def waiting_memory : Shared 0 :=
  match (boot (fun _ => 1) (fun _ => 0)).exec anyStep waiting_task with
  | some r => idle_memory.withKernel r.2.kernel
  | none => idle_memory

/-- The locks of a `semaphore_give` that wakes the task: three of them at once. -/
def give_locks : List (LockOp LockId) :=
  [.acquire (.semaphore 0), .acquire (.scheduler 1), .acquire .telemetry_lock,
   .release .telemetry_lock, .release (.scheduler 1), .release (.semaphore 0)]

theorem give_run : ∃ ops Y, LockProg.Run (fun _ _ => True) (KernelOp.semaphore_give 0).program
    waiting_memory ops (.ret ()) Y ∧ ops = give_locks :=
  ⟨_, _, .step rfl (.step rfl (.step rfl (.step rfl (.step rfl (.step rfl (.step rfl (.step rfl
    (.step rfl (.step rfl (.step rfl (.step rfl .refl))))))))))), rfl⟩

/-- Nothing runs on the four cores. -/
def idle_cores : Actors CoreId (Shared 0) LockId := ⟨waiting_memory, fun _ => .ret (), fun _ => []⟩

/-- Core 0 gives the semaphore, core 1 is at its tick, and finds its scheduler lock held by core 0. -/
theorem give_and_tick : ∃ Y, Relation.ReflTransGen
    (Actors.Step fun p => ∃ op : KernelOp, p = op.program) idle_cores Y ∧
      Y.held 0 = [.scheduler 1, .semaphore 0] ∧ Y.WaitsFor 1 0 := by
  have then_go : ∀ {X Z : Actors CoreId (Shared 0) LockId} {i : CoreId}
      {P : Actors CoreId (Shared 0) LockId → Prop}, X.Go i Z →
      (∃ Y, Relation.ReflTransGen (Actors.Step fun p => ∃ op : KernelOp, p = op.program) Z Y ∧ P Y) →
      ∃ Y, Relation.ReflTransGen (Actors.Step fun p => ∃ op : KernelOp, p = op.program) X Y ∧ P Y :=
    fun hgo ⟨Y, hrun, hY⟩ => ⟨Y, .head (.go hgo) hrun, hY⟩
  let give : Locks.Locked 0 Unit := (KernelOp.semaphore_give 0).program
  let tick : Locks.Locked 0 Unit := (KernelOp.timer_tick_handler 1).program
  let X₁ : Actors CoreId (Shared 0) LockId :=
    { idle_cores with code := update idle_cores.code 0 give }
  let X₂ : Actors CoreId (Shared 0) LockId := { X₁ with code := update X₁.code 1 tick }
  have hgoes : ∃ Y, Relation.ReflTransGen
      (Actors.Step fun p => ∃ op : KernelOp, p = op.program) X₂ Y ∧
        Y.held 0 = [.scheduler 1, .semaphore 0] ∧ Y.WaitsFor 1 0 :=
    then_go (i := 0) (.acquire rfl (by decide)) <|
    then_go (i := 0) (.access rfl) <|
    then_go (i := 0) (.access rfl) <|
    then_go (i := 0) (.access rfl) <|
    then_go (i := 0) (.acquire rfl (by decide)) <|
    then_go (i := 1) (.access rfl) ⟨_, .refl, rfl, .scheduler 1, _, rfl, List.mem_cons_self⟩
  obtain ⟨Y, hrun, hY⟩ := hgoes
  refine ⟨Y, .head (b := X₁) (.start (i := 0) rfl ⟨.semaphore_give 0, rfl⟩) ?_, hY⟩
  exact .head (.start (i := 1) rfl ⟨.timer_tick_handler 1, rfl⟩) hrun

/-- A `semaphore_give` that wakes a task, and core 1 at its tick meanwhile: it waits, but not for
itself. -/
theorem lock_order_semaphore_give :
    (∃ held, run_locks LockId.rank [] give_locks = some held ∧ held = []) ∧
    ∃ Y : Actors CoreId (Shared 0) LockId, Y.held 0 = [.scheduler 1, .semaphore 0] ∧
      Y.WaitsFor 1 0 ∧ ¬ Relation.TransGen Y.WaitsFor 1 1 := by
  obtain ⟨_, Y, hrun, rfl⟩ := give_run
  obtain ⟨held, hops, -, hend⟩ := (lock_order 0).1 (.semaphore_give 0) _ _ _ _ hrun
  obtain ⟨Z, hreach, hheld, hwaits⟩ := give_and_tick
  exact ⟨⟨held, hops, hend rfl⟩, Z, hheld, hwaits,
    (lock_order 0).2 idle_cores Z (fun _ => ⟨rfl, rfl⟩) hreach 1⟩

/-- While an operation is in progress, some actor can go on. -/
theorem some_operation_runs {n : Nat} {κ : Type} [DecidableEq κ] {X Y : Actors κ (Shared n) LockId}
    (hrest : X.AtRest)
    (hr : Relation.ReflTransGen (Actors.Step fun p => ∃ op : KernelOp, p = op.program) X Y) {i : κ}
    (hbusy : Y.code i ≠ .ret ()) : ∃ j Z, Y.Go j Z := by
  have hbound : ∀ l : LockId, l.rank < 3 := by
    intro l
    cases l <;> simp [LockId.rank]
  exact Actors.some_actor_runs (operations_disciplined hrest hr) hbound hbusy

end Rpitos
