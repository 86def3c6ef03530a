import Rpitos.Drivers.Uart
import Rpitos.Kernel.Queue
import Rpitos.Kernel.SoftwareTimer
import Rpitos.Lib.LockOrder
import Rpitos.Telemetry.Frame

/-!
# Kernel.Locks

The kernel's operations one lock operation at a time, with the telemetry hooks on. The stores are
the functions of the kernel's other modules, the locks and hooks stand between them as in the source,
and each return path releases its own locks. Interrupt masking is left out: no two operations run on
one core at a time. So is the wait for room in a UART's FIFO.

A `tcb->core_id` that the source reads again to unlock is read once: it is written only when the
task is made. Where the source goes through a null pointer, nothing happens.
-/

namespace Rpitos

open Function (update)
open StatusCode ListOps

/-- The spinlocks. -/
inductive LockId where
  /-- `mtx->lock`. -/
  | mutex (mtx : MutexId)
  /-- `smph->lock`. -/
  | semaphore (smph : SemaphoreId)
  /-- `q->lock`. -/
  | queue (q : Nat)
  | heap_lock
  | uart_buf_lock
  /-- `g_cores[core_id].lock`. -/
  | scheduler (core_id : CoreId)
  | telemetry_lock
  /-- `g_tick_rings[core_id].lock`. -/
  | tick_ring (core_id : CoreId)
  deriving DecidableEq, Repr

inductive TelemetrySyncKind where
  | SYNC_KIND_MUTEX | SYNC_KIND_SEMAPHORE | SYNC_KIND_QUEUE | SYNC_KIND_NONE
  deriving DecidableEq, Repr

def TelemetrySyncKind.toByte : TelemetrySyncKind → UInt8
  | .SYNC_KIND_MUTEX => 0
  | .SYNC_KIND_SEMAPHORE => 1
  | .SYNC_KIND_QUEUE => 2
  | .SYNC_KIND_NONE => 0xFF

def TaskState.toByte : TaskState → UInt8
  | .READY => 0
  | .RUNNING => 1
  | .BLOCKED => 2
  | .SUSPENDED => 3
  | .DELETED => 4

def PKT_TASK_CREATED : UInt32 := 1
def PKT_TASK_BLOCKED : UInt32 := 3
def PKT_TASK_UNBLOCKED : UInt32 := 4
def PKT_MUTEX_OWNER_CHANGED : UInt32 := 10

def TELEMETRY_TASK_NAME_MAX : Nat := 16
def TELEMETRY_TICK_RING_DEPTH : Nat := 8

structure TelemetryTickRecord where
  core_id : UInt8
  task_id : Nat
  state : UInt8
  deriving DecidableEq, Repr

/-- What the producer uses of a core's ring. -/
structure TelemetryTickRing where
  records : Nat → TelemetryTickRecord
  head : Nat
  count : Nat
  overflow_count : UInt8

/-- A new record, dropped when the ring is full. -/
def TelemetryTickRing.push (ring : TelemetryTickRing) (record : TelemetryTickRecord) :
    TelemetryTickRing :=
  if ring.count = TELEMETRY_TICK_RING_DEPTH then
    { ring with overflow_count := ring.overflow_count + 1 }
  else
    { ring with
      records := update ring.records ring.head record
      head := (ring.head + 1) % TELEMETRY_TICK_RING_DEPTH
      count := ring.count + 1 }

/-- What the operations share: the kernel and the buffered UART channel, the queues, the timers and
the telemetry. `uart_buffered` says that `uart_task_started` is set for `UART_CHANNEL_PRINT`. -/
structure Shared (n : Nat) extends UartSystem where
  uart_buffered : Bool
  queue : Nat → Queue
  memory : Memory
  timers : Timers n
  software_timer_semaphore : SemaphoreId
  telemetry : Telemetry
  tick_rings : CoreId → TelemetryTickRing
  mutex_sync_id : MutexId → Nat
  semaphore_sync_id : SemaphoreId → Nat

abbrev Shared.kernel {n : Nat} (X : Shared n) : Kernel Links := X.system.kernel

def Shared.withKernel {n : Nat} (X : Shared n) (K : Kernel Links) : Shared n :=
  { X with system := X.system.withKernel K }

@[simp] theorem Shared.withKernel_kernel {n : Nat} (X : Shared n) (K : Kernel Links) :
    (X.withKernel K).kernel = K := rfl

namespace Locks

variable {n : Nat}

/-- A program over `n` software timers. -/
abbrev Locked (n : Nat) := LockProg (Shared n) LockId

def spinlock_acquire (l : LockId) : Locked n Unit := .lock l

def spinlock_release (l : LockId) : Locked n Unit := .unlock l

def scheduler_lock (core_id : CoreId) : Locked n Unit := spinlock_acquire (.scheduler core_id)

def scheduler_unlock (core_id : CoreId) : Locked n Unit := spinlock_release (.scheduler core_id)

def kernel : Locked n (Kernel Links) := .atomically fun X => (X.kernel, X)

def store (f : Kernel Links → Kernel Links) : Locked n Unit :=
  .modify fun X => X.withKernel (f X.kernel)

/-! ### Telemetry -/

/-- The two bytes of a `uint16_t`, the high one first. -/
def bytes16 (v : Nat) : List UInt8 := [UInt8.ofNat (v / 256), UInt8.ofNat v]

/-- The locked send of the hooks. -/
def telemetry_send (type : UInt32) (payload : List UInt8) : Locked n Unit := do
  spinlock_acquire .telemetry_lock
  .modify fun X => { X with
    telemetry := telemetry_send_framed X.telemetry type (payload.getD · 0)
      (UInt8.ofNat payload.length) }
  spinlock_release .telemetry_lock

def telemetry_report_task_created (task_id : Nat) (core_id : CoreId) (priority : Nat)
    (name : List UInt8) : Locked n Unit :=
  telemetry_send PKT_TASK_CREATED (bytes16 task_id ++ [UInt8.ofNat core_id, UInt8.ofNat priority] ++
    name.take TELEMETRY_TASK_NAME_MAX)

def telemetry_report_task_blocked (task_id : Nat) (core_id : CoreId) (sync_kind : TelemetrySyncKind)
    (sync_id : Nat) : Locked n Unit :=
  telemetry_send PKT_TASK_BLOCKED
    (bytes16 task_id ++ [UInt8.ofNat core_id, sync_kind.toByte] ++ bytes16 sync_id)

def telemetry_report_task_unblocked (task_id : Nat) (core_id : CoreId) : Locked n Unit :=
  telemetry_send PKT_TASK_UNBLOCKED (bytes16 task_id ++ [UInt8.ofNat core_id])

def telemetry_report_mutex_owner_changed (sync_id : Nat) (has_owner : UInt8)
    (owner_task_id owner_core_id : Nat) : Locked n Unit :=
  telemetry_send PKT_MUTEX_OWNER_CHANGED
    (bytes16 sync_id ++ [has_owner] ++ bytes16 owner_task_id ++ [UInt8.ofNat owner_core_id])

def telemetry_report_tick_state (core_id : CoreId) (task_id : Nat) (state : TaskState) :
    Locked n Unit := do
  spinlock_acquire (.tick_ring core_id)
  .modify fun X => { X with
    tick_rings := update X.tick_rings core_id
      ((X.tick_rings core_id).push ⟨UInt8.ofNat core_id, task_id, state.toByte⟩) }
  spinlock_release (.tick_ring core_id)

/-! ### The heap -/

def heap_malloc (size : Nat) : Locked n (Option Nat) := do
  spinlock_acquire .heap_lock
  match Rpitos.heap_malloc (← kernel).heap_offset size with
  | (none, _) =>
    spinlock_release .heap_lock
    pure none
  | (some block_start, heap_offset) =>
    store fun K => { K with heap_offset := heap_offset }
    spinlock_release .heap_lock
    pure (some block_start)

/-! ### The semaphore -/

/-- The first section of a round: the result, or `none` when the caller is now blocked. -/
def semaphore_take_enter (smph : SemaphoreId) (cur_tcb : Tcb) (timeout_ms : Int) (deadline : Nat)
    (core_id : CoreId) : Locked n (Option StatusCode) := do
  spinlock_acquire (.semaphore smph)
  let K ← kernel
  if 0 < K.count smph then
    store fun K => { K with count := update K.count smph (K.count smph - 1) }
    spinlock_release (.semaphore smph)
    pure (some E_OK)
  else if timeout_ms = 0 then
    spinlock_release (.semaphore smph)
    pure (some E_TIMED_OUT)
  else if 0 < timeout_ms ∧ deadline ≤ K.tick_count cur_tcb.home then
    spinlock_release (.semaphore smph)
    pure (some E_TIMED_OUT)
  else
    store fun K => semaphore_add_to_blocked_list K smph cur_tcb
    scheduler_lock core_id
    store fun K => (scheduler_remove_from_ready_list K cur_tcb).2
    if 0 < timeout_ms then
      store fun K => (scheduler_add_to_blocked_list K cur_tcb deadline).2
    scheduler_unlock core_id
    store fun K => { K with current_state := update K.current_state cur_tcb .BLOCKED }
    let X ← .get
    telemetry_report_task_blocked (X.kernel.task_id cur_tcb) core_id .SYNC_KIND_SEMAPHORE
      (X.semaphore_sync_id smph)
    spinlock_release (.semaphore smph)
    pure none

/-- `while (cur_tcb->current_state == TASK_STATE_BLOCKED) {}`. -/
def spin_while_blocked (cur_tcb : Tcb) : Locked n Unit :=
  .repeating do
    let K ← kernel
    pure (if K.current_state cur_tcb = .BLOCKED then none else some ())

/-- The second section of a round: the result, or `none` when there is another round. -/
def semaphore_take_wake (smph : SemaphoreId) (cur_tcb : Tcb) : Locked n (Option StatusCode) := do
  spinlock_acquire (.semaphore smph)
  if (← kernel).wakeup_reason cur_tcb = .RESOURCE_ACQUIRED then
    store fun K => { K with wakeup_reason := update K.wakeup_reason cur_tcb .NONE }
    spinlock_release (.semaphore smph)
    pure (some E_OK)
  else
    spinlock_release (.semaphore smph)
    pure none

def semaphore_take (smph : SemaphoreId) (cur_tcb : Tcb) (timeout_ms : Int) :
    Locked n StatusCode := do
  let K ← kernel
  let deadline := take_deadline K cur_tcb timeout_ms
  let core_id := K.core_id cur_tcb
  .repeating do
    match ← semaphore_take_enter smph cur_tcb timeout_ms deadline core_id with
    | some code => pure (some code)
    | none =>
      spin_while_blocked cur_tcb
      semaphore_take_wake smph cur_tcb

def semaphore_give (smph : SemaphoreId) : Locked n StatusCode := do
  spinlock_acquire (.semaphore smph)
  let K ← kernel
  if 0 < num_items K.lists (.semaphore_blocked_list smph) then
    match ← .atomically fun X =>
        let r := semaphore_pop_waiter X.kernel smph
        (r.1, X.withKernel r.2) with
    | some p_next_tcb =>
      let core_id := (← kernel).core_id p_next_tcb
      scheduler_lock core_id
      store fun K => semaphore_wake K p_next_tcb
      telemetry_report_task_unblocked ((← kernel).task_id p_next_tcb) core_id
      scheduler_unlock core_id
    | none => pure ()
    spinlock_release (.semaphore smph)
    pure E_OK
  else if K.count smph < K.max_count smph then
    store fun K => { K with count := update K.count smph (K.count smph + 1) }
    spinlock_release (.semaphore smph)
    pure E_OK
  else
    spinlock_release (.semaphore smph)
    pure E_RESOURCE_EXHAUSTED

/-! ### The queue -/

def queue_send (q : Nat) (cur_tcb : Tcb) (src : Memory) (timeout_ms : Int) :
    Locked n StatusCode := do
  let X ← .get
  if (← semaphore_take (X.queue q).space_available cur_tcb timeout_ms) ≠ E_OK then
    pure E_TIMED_OUT
  else
    spinlock_acquire (.queue q)
    .modify fun X =>
      let r := X.queue q
      { X with
        memory := r.copy_in X.memory src r.item_size
        queue := update X.queue q { r with head := u32 (r.head + 1) % r.capacity } }
    spinlock_release (.queue q)
    let _ ← semaphore_give (X.queue q).data_available
    pure E_OK

/-- The result, and the item copied to `dst`. -/
def queue_recv (q : Nat) (cur_tcb : Tcb) (timeout_ms : Int) :
    Locked n (StatusCode × Option Memory) := do
  let X ← .get
  if (← semaphore_take (X.queue q).data_available cur_tcb timeout_ms) ≠ E_OK then
    pure (E_TIMED_OUT, none)
  else
    spinlock_acquire (.queue q)
    let item ← .atomically fun X =>
      let r := X.queue q
      (r.item_at X.memory r.tail,
        { X with queue := update X.queue q { r with tail := u32 (r.tail + 1) % r.capacity } })
    spinlock_release (.queue q)
    let _ ← semaphore_give (X.queue q).space_available
    pure (E_OK, some item)

/-! ### The mutex -/

/-- The holder is boosted under the scheduler lock of its core. -/
def mutex_boost_holder (mtx : MutexId) : Locked n Unit := do
  let K ← kernel
  match K.mutex_owner mtx with
  | some owner =>
    if K.priority owner < K.inherited_priority mtx then
      let owner_core := K.core_id owner
      scheduler_lock owner_core
      store fun K => scheduler_change_task_priority K owner (K.inherited_priority mtx)
      scheduler_unlock owner_core
  | none => pure ()

/-- The priority inheritance of `mutex_lock`, once `cur_tcb` is waiting. -/
def mutex_inherit (mtx : MutexId) (cur_tcb : Tcb) : Locked n Unit := do
  if (← kernel).inheritance_enabled mtx then
    store fun K => { K with
      inherited_priority := if K.inherited_priority mtx < K.priority cur_tcb then
          update K.inherited_priority mtx (K.priority cur_tcb)
        else K.inherited_priority }
    mutex_boost_holder mtx

/-- The caller waits, and is off the ready list of its core. -/
def mutex_lock_wait (mtx : MutexId) (cur_tcb : Tcb) (timeout_ms : Int) : Locked n Unit := do
  store fun K => mutex_add_to_blocked_list K mtx cur_tcb
  let core_id := (← kernel).core_id cur_tcb
  scheduler_lock core_id
  store fun K => (scheduler_remove_from_ready_list K cur_tcb).2
  if 0 < timeout_ms then
    store fun K => (scheduler_add_to_blocked_list K cur_tcb
      (u64 (K.tick_count cur_tcb.home + timeout_ms.toNat))).2
  store fun K => { K with current_state := update K.current_state cur_tcb .BLOCKED }
  let X ← .get
  telemetry_report_task_blocked (X.kernel.task_id cur_tcb) core_id .SYNC_KIND_MUTEX
    (X.mutex_sync_id mtx)
  scheduler_unlock core_id

/-- `mutex_lock` up to the spin: the result, or `none` when the caller is now blocked. -/
def mutex_lock_enter (mtx : MutexId) (cur_tcb : Tcb) (timeout_ms : Int) :
    Locked n (Option StatusCode) := do
  spinlock_acquire (.mutex mtx)
  if (← kernel).mutex_state mtx = .UNLOCKED then
    store fun K => { K with
      mutex_state := update K.mutex_state mtx .LOCKED
      mutex_owner := update K.mutex_owner mtx (some cur_tcb)
      mutexes_held := if K.inheritance_enabled mtx then
          update K.mutexes_held cur_tcb (u32 (K.mutexes_held cur_tcb + 1))
        else K.mutexes_held }
    spinlock_release (.mutex mtx)
    let X ← .get
    telemetry_report_mutex_owner_changed (X.mutex_sync_id mtx) 1 (X.kernel.task_id cur_tcb)
      (X.kernel.core_id cur_tcb)
    pure (some E_OK)
  else if timeout_ms = 0 then
    spinlock_release (.mutex mtx)
    pure (some E_TIMED_OUT)
  else
    mutex_lock_wait mtx cur_tcb timeout_ms
    mutex_inherit mtx cur_tcb
    spinlock_release (.mutex mtx)
    pure none

def mutex_lock (mtx : MutexId) (cur_tcb : Tcb) (timeout_ms : Int) : Locked n StatusCode := do
  match ← mutex_lock_enter mtx cur_tcb timeout_ms with
  | some code => pure code
  | none =>
    spin_while_blocked cur_tcb
    spinlock_acquire (.mutex mtx)
    let result := mutex_lock_result (← kernel) mtx cur_tcb
    spinlock_release (.mutex mtx)
    pure result

/-- The holder gives up one mutex, and its priority under the scheduler lock of its core. -/
def mutex_restore_holder (mtx : MutexId) (holder : Option Tcb) : Locked n Unit := do
  match holder with
  | some holder =>
    if (← kernel).inheritance_enabled mtx then
      store fun K => { K with
        mutexes_held := update K.mutexes_held holder (u32 (K.mutexes_held holder + (2 ^ 32 - 1))) }
      let K ← kernel
      if K.mutexes_held holder = 0 ∧ K.priority holder ≠ K.base_priority holder then
        let core_id := K.core_id holder
        scheduler_lock core_id
        store fun K => scheduler_change_task_priority K holder (K.base_priority holder)
        scheduler_unlock core_id
  | none => pure ()

/-- Ownership passes to `next_owner`, under the scheduler lock of its core. -/
def mutex_transfer (mtx : MutexId) (next_owner : Tcb) : Locked n Unit := do
  let core_id := (← kernel).core_id next_owner
  scheduler_lock core_id
  store fun K => Rpitos.mutex_transfer K mtx next_owner
  let X ← .get
  telemetry_report_task_unblocked (X.kernel.task_id next_owner) core_id
  telemetry_report_mutex_owner_changed (X.mutex_sync_id mtx) 1 (X.kernel.task_id next_owner) core_id
  scheduler_unlock core_id

/-- `mutex_unlock` without waiters. -/
def mutex_release (mtx : MutexId) (holder : Option Tcb) : Locked n Unit := do
  let X ← .get
  store fun K => { K with
    mutex_owner := update K.mutex_owner mtx none
    mutex_state := update K.mutex_state mtx .UNLOCKED
    inherited_priority := update K.inherited_priority mtx TASK_PRIORITY_IDLE }
  telemetry_report_mutex_owner_changed (X.mutex_sync_id mtx) 0 0 0
  mutex_restore_holder mtx holder

/-- `mutex_unlock` with waiters. -/
def mutex_hand_over (mtx : MutexId) (holder : Option Tcb) : Locked n Unit := do
  match ← .atomically fun X =>
      let r := mutex_pop_best X.kernel mtx
      (r.1, X.withKernel r.2) with
  | some next_owner =>
    mutex_restore_holder mtx holder
    mutex_transfer mtx next_owner
  | none => pure ()

def mutex_unlock (mtx : MutexId) : Locked n Unit := do
  spinlock_acquire (.mutex mtx)
  let K ← kernel
  if K.mutex_state mtx = .LOCKED then
    let holder := K.mutex_owner mtx
    if num_items K.lists (.mutex_blocked_list mtx) = 0 then
      mutex_release mtx holder
    else
      mutex_hand_over mtx holder
    spinlock_release (.mutex mtx)
  else
    spinlock_release (.mutex mtx)

/-! ### The scheduler -/

/-- `block_until` up to the spin; `my_tcb` is `p_task_control_block[core_id]`. -/
def block_until_enter (core_id : CoreId) (my_tcb : Tcb) (wakeup_time : Nat) : Locked n Unit := do
  scheduler_lock core_id
  store fun K => Rpitos.block_until K my_tcb wakeup_time
  telemetry_report_task_blocked ((← kernel).task_id my_tcb) core_id .SYNC_KIND_NONE 0
  scheduler_unlock core_id

def block_until (core_id : CoreId) (my_tcb : Tcb) (wakeup_time : Nat) : Locked n Unit := do
  block_until_enter core_id my_tcb wakeup_time
  spin_while_blocked my_tcb

/-- With an overwritten watermark the core spins forever. -/
def scheduler_switch_context (core_id : CoreId) : Locked n Unit := do
  if watermark_lost (← kernel) core_id then .hang
  else
    scheduler_lock core_id
    store fun K => end_quantum K core_id
    let K ← kernel
    if priorities_down.any fun p => decide (0 < num_items K.lists (.ready_list core_id p)) then
      store fun K => select_next K core_id
      let K ← kernel
      match K.p_task_control_block core_id with
      | some current =>
        telemetry_report_tick_state core_id (K.task_id current) (K.current_state current)
      | none => pure ()
      scheduler_unlock core_id
    else
      store fun K => { K with p_task_control_block := update K.p_task_control_block core_id none }
      scheduler_unlock core_id

/-- One round of the expiry loop of `timer_tick_handler`. -/
def expire_round (core_id : CoreId) : Locked n (Option Unit) := do
  let K ← kernel
  match head K.lists (.blocked_task_list core_id) with
  | none => pure (some ())
  | some item =>
    if K.wakeup_time item.owner ≤ K.tick_count core_id then
      store fun K => expire_task K item.owner
      telemetry_report_task_unblocked (K.task_id item.owner) (K.core_id item.owner)
      pure none
    else pure (some ())

/-- The expiry loop of `timer_tick_handler`. -/
def expire_loop (core_id : CoreId) : Locked n Unit := .repeating (expire_round core_id)

/-- A list that does not end keeps `software_timer_pop_to_active` in its loop. -/
def software_timer_tick (now_tick : Nat) : Locked n Unit :=
  .repeating do
    let X ← .get
    match X.timers.blocked_list_head with
    | none => pure (some ())
    | some expired =>
      if X.timers.expiry_tick expired ≤ now_tick then
        match software_timer_pop_to_active X.timers expired with
        | some timers =>
          .modify fun X => { X with timers := timers }
          let _ ← semaphore_give X.software_timer_semaphore
          pure none
        | none => .hang
      else pure (some ())

def timer_tick_handler (core_id : CoreId) : Locked n Unit := do
  store fun K => next_tick K core_id
  scheduler_lock core_id
  expire_loop core_id
  scheduler_unlock core_id
  if core_id = 0 then
    software_timer_tick ((← kernel).tick_count core_id)

/-! ### `task_create` -/

/-- `uart_print`; `str` is the string up to its NUL. -/
def uart_print (str : List UInt8) : Locked n Unit := do
  let X ← .get
  if X.uart_buffered then
    spinlock_acquire .uart_buf_lock
    .modify fun X => { X with toUartSystem := X.toUartSystem.uart_channel_print str }
    spinlock_release .uart_buf_lock
    let _ ← semaphore_give X.channel.uart_data_ready
  else
    .modify fun X => { X with transmitted := X.transmitted ++ str }

def out_of_stack_space : List UInt8 :=
  "Could not create task, out of stack space!".toList.map fun c => UInt8.ofNat c.toNat

def task_create (core_id : CoreId) (stack_depth priority : Nat) (name : List UInt8) :
    Locked n StatusCode := do
  let K ← kernel
  if h : K.task_counter core_id < MAX_NUM_TASKS then
    let priority : TaskPriorityLevel :=
      if hp : priority < NUM_TASK_PRIORITIES then ⟨priority, hp⟩
      else ⟨NUM_TASK_PRIORITIES - 1, top_priority_lt⟩
    let tcb := Tcb.pool core_id ⟨K.task_counter core_id, h⟩
    match ← heap_malloc (4 * stack_depth) with
    | none =>
      store fun K => { K with stack_base0 := update K.stack_base0 tcb none }
      uart_print out_of_stack_space
      pure E_OUT_OF_MEM
    | some _ =>
      store fun K => { K with
        stack_base0 := update K.stack_base0 tcb (some TASK_WATERMARK)
        stack_depth := update K.stack_depth tcb stack_depth
        task_id := update K.task_id tcb (K.task_counter core_id)
        core_id := update K.core_id tcb core_id
        task_counter := update K.task_counter core_id (K.task_counter core_id + 1) }
      telemetry_report_task_created ((← kernel).task_id tcb) core_id priority name
      store fun K => { K with
        lists := clear_items K.lists tcb
        priority := update K.priority tcb priority
        base_priority := update K.base_priority tcb priority
        mutexes_held := update K.mutexes_held tcb 0
        current_state := update K.current_state tcb .READY
        wakeup_time := update K.wakeup_time tcb 0
        wakeup_reason := update K.wakeup_reason tcb .NONE }
      scheduler_lock core_id
      store fun K => (scheduler_add_to_ready_list K tcb).2
      scheduler_unlock core_id
      pure E_OK
  else pure E_RESOURCE_EXHAUSTED

end Locks
end Rpitos
