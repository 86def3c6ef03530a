import Rpitos.Kernel.Heap

/-!
# Kernel.Scheduler

`scheduler.c` and `task.c`: the ready lists, the blocked list, the priority change, the tick
handler and the context switch.

Interrupt masking and the spinlocks are not state here: a definition is the body of one critical
section, and `Kernel.System` says which bodies are atomic. The telemetry hooks are off, as in a
build without `RTOS_TELEMETRY`.
-/

namespace Rpitos

open Function StatusCode ListOps

variable {L : Type} [ListOps L ItemRef ListRef]

/-- `scheduler_add_to_ready_list`: back of the ready list of the task's priority, on its core. -/
def scheduler_add_to_ready_list (K : Kernel L) (tcb : Tcb) : StatusCode × Kernel L :=
  (E_OK, { K with
    lists := pushBackIndexed K.lists (.ready_list (K.core_id tcb) (K.priority tcb))
      (.state_list_item tcb)
    current_state := update K.current_state tcb .READY })

/-- `scheduler_remove_from_ready_list`. -/
def scheduler_remove_from_ready_list (K : Kernel L) (tcb : Tcb) : StatusCode × Kernel L :=
  let list := ListRef.ready_list (K.core_id tcb) (K.priority tcb)
  let item := ItemRef.state_list_item tcb
  if container K.lists item = some list then
    (E_OK, { K with lists := unlinkIndexed K.lists list item })
  else (E_INVALID_ARGS, K)

/-- `scheduler_add_to_blocked_list`: sorted insertion by `wakeup_time`. -/
def scheduler_add_to_blocked_list (K : Kernel L) (tcb : Tcb) (wakeup_time : Nat) :
    StatusCode × Kernel L :=
  let K := { K with wakeup_time := update K.wakeup_time tcb wakeup_time }
  (E_OK, { K with
    lists := insertSorted K.lists (.blocked_task_list (K.core_id tcb))
      (fun x => K.wakeup_time x.owner) wakeup_time MAX_TCBS (.state_list_item tcb) })

/-- `scheduler_remove_from_blocked_list`: nothing to do when the task is not in it. -/
def scheduler_remove_from_blocked_list (K : Kernel L) (tcb : Tcb) :
    StatusCode × Kernel L :=
  let list := ListRef.blocked_task_list (K.core_id tcb)
  if container K.lists (ItemRef.state_list_item tcb) = some list then
    (E_OK, { K with lists := unlink K.lists list (.state_list_item tcb) })
  else (E_OK, K)

/-- `scheduler_change_task_priority`: relocates a READY or RUNNING task; of a blocked one only the
priority field changes. -/
def scheduler_change_task_priority (K : Kernel L) (tcb : Tcb)
    (new_priority : TaskPriorityLevel) : Kernel L :=
  let saved_state := K.current_state tcb
  if saved_state = .READY ∨ saved_state = .RUNNING then
    let K := match container K.lists (ItemRef.state_list_item tcb) with
      | some list => { K with lists := unlinkIndexed K.lists list (ItemRef.state_list_item tcb) }
      | none => K
    let K := { K with priority := update K.priority tcb new_priority }
    let K := (scheduler_add_to_ready_list K tcb).2
    -- restores RUNNING if it was running when boosted
    { K with current_state := update K.current_state tcb saved_state }
  else { K with priority := update K.priority tcb new_priority }

/-- The critical section of `block_until`. -/
def block_until (K : Kernel L) (tcb : Tcb) (wakeup_time : Nat) : Kernel L :=
  let K := (scheduler_remove_from_ready_list K tcb).2
  let K := (scheduler_add_to_blocked_list K tcb wakeup_time).2
  { K with current_state := update K.current_state tcb .BLOCKED }

/-- One pass of the expiry loop of `timer_tick_handler`, for the head `tcb` of the blocked list:
out of the blocked list, out of the wait list it is in, back to the ready list. -/
def expire_task (K : Kernel L) (tcb : Tcb) : Kernel L :=
  let K := (scheduler_remove_from_blocked_list K tcb).2
  let K := match container K.lists (ItemRef.event_list_item tcb) with
    | some event_list => { K with lists := unlink K.lists event_list (.event_list_item tcb) }
    | none => K
  (scheduler_add_to_ready_list K tcb).2

/-- The expiry loop of `timer_tick_handler`, with the tasks it unblocks. -/
def expire_loop (c : CoreId) : Nat → Kernel L → List Tcb × Kernel L
  | 0, K => ([], K)
  | fuel + 1, K =>
    match head K.lists (.blocked_task_list c) with
    | none => ([], K)
    | some item =>
      if K.wakeup_time item.owner ≤ K.tick_count c then
        let r := expire_loop c fuel (expire_task K item.owner)
        (item.owner :: r.1, r.2)
      else ([], K)

/-- `(*core->s_tick_count)++`. -/
def next_tick (K : Kernel L) (c : CoreId) : Kernel L :=
  { K with tick_count := update K.tick_count c (u64 (K.tick_count c + 1)) }

/-- `timer_tick_handler` up to the software timers. -/
def timer_tick_handler (K : Kernel L) (c : CoreId) : List Tcb × Kernel L :=
  expire_loop c MAX_TCBS (next_tick K c)

/-- The priorities in the order in which `scheduler_switch_context` looks at them. -/
def priorities_down : List TaskPriorityLevel := (List.finRange NUM_TASK_PRIORITIES).reverse

/-- The end of a running task's quantum: READY again, and the round-robin index advances. -/
def end_quantum (K : Kernel L) (c : CoreId) : Kernel L :=
  match K.p_task_control_block c with
  | some current =>
    if K.current_state current = .RUNNING then
      { K with
        current_state := update K.current_state current .READY
        lists := advanceIndex K.lists (.ready_list c (K.priority current)) }
    else K
  | none => K

/-- The index task of the highest-priority non-empty ready list starts to run. -/
def select_next (K : Kernel L) (c : CoreId) : Kernel L :=
  match priorities_down.find? (fun p => decide (0 < num_items K.lists (.ready_list c p))) with
  | some p =>
    match index K.lists (.ready_list c p) with
    | some item =>
      { K with current_state := update K.current_state item.owner .RUNNING
               p_task_control_block := update K.p_task_control_block c (some item.owner) }
    | none => K
  | none => { K with p_task_control_block := update K.p_task_control_block c none }

/-- Whether the outgoing task's stack watermark is overwritten. -/
def watermark_lost (K : Kernel L) (c : CoreId) : Bool :=
  match K.p_task_control_block c with
  | some current =>
    match K.stack_base0 current with
    | some w => w != TASK_WATERMARK
    | none => false
  | none => false

/-- `scheduler_switch_context`. With an overwritten watermark the core spins forever. -/
def scheduler_switch_context (K : Kernel L) (c : CoreId) : Kernel L :=
  if watermark_lost K c then { K with hung := update K.hung c true }
  else select_next (end_quantum K c) c

def IDLE_STACK_DEPTH : Nat := 64

/-- The two items of a fresh task. -/
def clear_items (lists : L) (tcb : Tcb) : L :=
  clearNode (clearNode lists (.state_list_item tcb)) (.event_list_item tcb)

/-- The null headers of core `c`. -/
def clear_lists (lists : L) (c : CoreId) : L :=
  clearHeader ((List.finRange NUM_TASK_PRIORITIES).foldl
    (fun lists p => clearHeader lists (.ready_list c p)) lists) (.blocked_task_list c)

/-- `scheduler_init` of core `c`: empty lists, and the idle task. -/
def scheduler_init (K : Kernel L) (c : CoreId) : Kernel L :=
  let idle := Tcb.idle c
  let K := { K with
    lists := clear_items (clear_lists K.lists c) idle
    tick_count := update K.tick_count c 0
    stack_base0 := update K.stack_base0 idle (some TASK_WATERMARK)
    stack_depth := update K.stack_depth idle IDLE_STACK_DEPTH
    task_id := update K.task_id idle 0xFFFF
    core_id := update K.core_id idle c
    priority := update K.priority idle TASK_PRIORITY_IDLE
    base_priority := update K.base_priority idle TASK_PRIORITY_IDLE
    mutexes_held := update K.mutexes_held idle 0
    current_state := update K.current_state idle .READY
    wakeup_time := update K.wakeup_time idle 0
    wakeup_reason := update K.wakeup_reason idle .NONE
    initialised := update K.initialised c true }
  (scheduler_add_to_ready_list K idle).2

/-- `task_create` on core `c`, with the task it made. The stack's words are `uint32_t`. -/
def task_create (K : Kernel L) (c : CoreId) (stack_depth priority : Nat) :
    StatusCode × Option Tcb × Kernel L :=
  if h : K.task_counter c < MAX_NUM_TASKS then
    let priority : TaskPriorityLevel :=
      if hp : priority < NUM_TASK_PRIORITIES then ⟨priority, hp⟩ else ⟨NUM_TASK_PRIORITIES - 1, by decide⟩
    let tcb := Tcb.pool c ⟨K.task_counter c, h⟩
    match heap_malloc K.heap_offset (4 * stack_depth) with
    | (none, _) => (E_OUT_OF_MEM, none, { K with stack_base0 := update K.stack_base0 tcb none })
    | (some _, heap_offset) =>
      let K := { K with
        lists := clear_items K.lists tcb
        heap_offset := heap_offset
        stack_base0 := update K.stack_base0 tcb (some TASK_WATERMARK)
        stack_depth := update K.stack_depth tcb stack_depth
        task_id := update K.task_id tcb (K.task_counter c)
        core_id := update K.core_id tcb c
        task_counter := update K.task_counter c (K.task_counter c + 1)
        priority := update K.priority tcb priority
        base_priority := update K.base_priority tcb priority
        mutexes_held := update K.mutexes_held tcb 0
        current_state := update K.current_state tcb .READY
        wakeup_time := update K.wakeup_time tcb 0
        wakeup_reason := update K.wakeup_reason tcb .NONE }
      (E_OK, some tcb, (scheduler_add_to_ready_list K tcb).2)
  else (E_RESOURCE_EXHAUSTED, none, K)

end Rpitos
