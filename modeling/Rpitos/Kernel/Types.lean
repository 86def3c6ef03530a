import Rpitos.Lib.ListOps
import Mathlib.Algebra.GroupWithZero.Nat
import Mathlib.Data.Fintype.Card
import Mathlib.Data.Fintype.Sigma
import Mathlib.Data.Fintype.Sum
import Mathlib.Tactic.DeriveFintype

/-!
# Kernel.Types

The kernel's data: `task_types.h`, the structs of `mutex.h` and `semaphore.h`, and the per-core
state of `scheduler.c`.

A pointer to a `TaskControlBlock` is a `Tcb`: a slot of a core's pool, or a core's idle task. A
pointer to one of the two `ListItem`s a task embeds is an `ItemRef`, a pointer to a `List` a
`ListRef`. `ListItem.owner` is the task the item is embedded in: every store of the source to
`owner` stores that task.

`Kernel L` is the kernel's memory over a representation `L` of its lists. The code works on
`Kernel Links`, where the lists are chains of pointers; the same functions on `Kernel Sequences`
are the abstract kernel, where a list is the sequence of its nodes.
-/

namespace Rpitos

inductive StatusCode where
  | E_OK | E_INVALID_ARGS | E_OUT_OF_MEM | E_RESOURCE_EXHAUSTED | E_EMPTY | E_TIMED_OUT
  | E_CORRUPTED | E_ABORTED | E_CMD | E_DATA | E_CRC | E_NOTSUPP | E_NOT_INITIALIZED
  deriving DecidableEq, Repr

abbrev COMPANION_CORE_MAX_CORES : Nat := 4
abbrev MAX_NUM_TASKS : Nat := 16
def TASK_WATERMARK : Nat := 0x5A
abbrev NUM_TASK_PRIORITIES : Nat := 6

/-- A core id below `COMPANION_CORE_MAX_CORES`: the range checks of the scheduler cannot fail. -/
abbrev CoreId := Fin COMPANION_CORE_MAX_CORES

/-- A priority below `NUM_TASK_PRIORITIES`; `task_create` clamps what it is given. -/
abbrev TaskPriorityLevel := Fin NUM_TASK_PRIORITIES

theorem top_priority_lt : NUM_TASK_PRIORITIES - 1 < NUM_TASK_PRIORITIES := by decide

instance : NeZero COMPANION_CORE_MAX_CORES := ⟨nofun⟩

instance : NeZero MAX_NUM_TASKS := ⟨nofun⟩

def TASK_PRIORITY_IDLE : TaskPriorityLevel := 0

inductive TaskState where
  | READY | RUNNING | BLOCKED | SUSPENDED | DELETED
  deriving DecidableEq, Repr

inductive TaskWakeupReason where
  | NONE | RESOURCE_ACQUIRED
  deriving DecidableEq, Repr

inductive MutexState where
  | LOCKED | UNLOCKED
  deriving DecidableEq, Repr

/-- `TaskControlBlock *`: `&tcb_pool[core][slot]` or `&g_cores[core].idle_tcb`. -/
inductive Tcb where
  | idle (core : CoreId)
  | pool (core : CoreId) (slot : Fin MAX_NUM_TASKS)
  deriving DecidableEq, Fintype, Repr

/-- The core whose pool, or whose idle task, this is. -/
def Tcb.home : Tcb → CoreId
  | .idle c => c
  | .pool c _ => c

abbrev MutexId := Nat
abbrev SemaphoreId := Nat

/-- `ListItem *`. -/
inductive ItemRef where
  | state_list_item (tcb : Tcb)
  | event_list_item (tcb : Tcb)
  deriving DecidableEq, Repr

def ItemRef.owner : ItemRef → Tcb
  | .state_list_item t => t
  | .event_list_item t => t

/-- `List *`. -/
inductive ListRef where
  | ready_list (core : CoreId) (priority : TaskPriorityLevel)
  | blocked_task_list (core : CoreId)
  | mutex_blocked_list (mtx : MutexId)
  | semaphore_blocked_list (smph : SemaphoreId)
  deriving DecidableEq, Repr

/-- The lists as pointers. -/
abbrev Links := Heap ItemRef ListRef

/-- The lists as sequences. -/
abbrev Sequences := Seqs ItemRef ListRef

/-- The kernel's memory. `stack_base0 t` is `t->stack_base[0]`, `none` while `stack_base` is NULL;
`initialised c` says that core `c` has run `scheduler_init`, `hung c` that it spins in the stack
check of `scheduler_switch_context`. -/
structure Kernel (L : Type) where
  lists : L
  -- struct TaskControlBlock
  stack_base0 : Tcb → Option Nat
  stack_depth : Tcb → Nat
  task_id : Tcb → Nat
  core_id : Tcb → CoreId
  current_state : Tcb → TaskState
  priority : Tcb → TaskPriorityLevel
  wakeup_time : Tcb → Nat
  wakeup_reason : Tcb → TaskWakeupReason
  base_priority : Tcb → TaskPriorityLevel
  mutexes_held : Tcb → Nat
  -- struct Mutex
  mutex_state : MutexId → MutexState
  mutex_owner : MutexId → Option Tcb
  inheritance_enabled : MutexId → Bool
  inherited_priority : MutexId → TaskPriorityLevel
  -- struct Semaphore
  max_count : SemaphoreId → Nat
  count : SemaphoreId → Nat
  -- per core: struct SchedulerCore, p_task_control_block, task_counter
  tick_count : CoreId → Nat
  p_task_control_block : CoreId → Option Tcb
  task_counter : CoreId → Nat
  initialised : CoreId → Bool
  hung : CoreId → Bool
  heap_offset : Nat

/-- The same memory over other lists. -/
def Kernel.over {L M : Type} (K : Kernel L) (lists : M) : Kernel M :=
  { K with lists := lists }

/-- `uint64_t` arithmetic. -/
def u64 (n : Nat) : Nat := n % 2 ^ 64

/-- `uint32_t` arithmetic. -/
def u32 (n : Nat) : Nat := n % 2 ^ 32

/-- No list holds more tasks than there are: the bound for a walk along a list. -/
def MAX_TCBS : Nat := COMPANION_CORE_MAX_CORES * (MAX_NUM_TASKS + 1)

theorem card_tcb : Fintype.card Tcb = MAX_TCBS := by decide

end Rpitos
