import Rpitos.Lib.Reach
import Rpitos.Kernel.Touches

/-!
# Kernel.Queue

`queue.c`: a queue over the kernel. A step of `QueueSystem` is a section of `semaphore_take` or
`semaphore_give`, one of the two copies under the queue's lock, or anything the rest of the program
does: a step of the kernel that leaves the queue's two semaphores alone, or a store outside the block
that `heap_malloc` returned.

Addresses are offsets from the start of the heap, 32 bits wide.
-/

namespace Rpitos

open Function StatusCode ListOps

/-- struct Queue. -/
structure Queue where
  buf : Nat
  head : Nat
  tail : Nat
  capacity : Nat
  item_size : Nat
  space_available : SemaphoreId
  data_available : SemaphoreId
  deriving DecidableEq, Repr

/-- `queue_init`: the result, the queue, and the kernel with its semaphores. -/
def queue_init {L : Type} [ListOps L ItemRef ListRef] (K : Kernel L)
    (space_available data_available : SemaphoreId) (capacity item_size : Nat) :
    StatusCode × Option Queue × Kernel L :=
  match heap_malloc K.heap_offset (u32 (capacity * item_size)) with
  | (none, _) => (E_OUT_OF_MEM, none, K)
  | (some buf, heap_offset) =>
    let K := semaphore_init { K with heap_offset := heap_offset } data_available capacity 0
    let K := semaphore_init K space_available capacity capacity
    (E_OK, some { buf := buf, head := 0, tail := 0, capacity := capacity, item_size := item_size,
                  space_available := space_available, data_available := data_available }, K)

/-- Bytes of the program's memory, or of one item. -/
abbrev Memory := Nat → UInt8

namespace Queue

/-- `&q->buf[(slot * q->item_size) + i]`. -/
def address (q : Queue) (slot i : Nat) : Nat := u32 (q.buf + u32 (u32 (slot * q.item_size) + i))

/-- The first `n` rounds of the copy loop of `queue_send`. -/
def copy_in (q : Queue) (memory : Memory) (src : Memory) : Nat → Memory
  | 0 => memory
  | n + 1 => update (copy_in q memory src n) (q.address q.head n) (src n)

/-- The item the copy loop of `queue_recv` reads from a slot; bytes past the item are zero. -/
def item_at (q : Queue) (memory : Memory) (slot : Nat) : Memory := fun i =>
  if i < q.item_size then memory (q.address slot i) else 0

/-- The item `queue_send` is given. -/
def item_of (q : Queue) (src : Memory) : Memory := fun i => if i < q.item_size then src i else 0

/-- The block `heap_malloc` returned for `buf`. -/
def owns (q : Queue) (address : Nat) : Prop :=
  q.buf ≤ address ∧ address < q.buf + heap_align (u32 (q.capacity * q.item_size))

instance (q : Queue) (address : Nat) : Decidable (q.owns address) :=
  inferInstanceAs (Decidable (_ ∧ _))

end Queue

/-- Where a task is in a call of the queue. -/
inductive QueuePc where
  | idle
  /-- In `semaphore_take` of `queue_send`. -/
  | send_take
  /-- Before the copy of `queue_send`. -/
  | send_copy
  /-- Before the `semaphore_give` of `queue_send`. -/
  | send_give
  | recv_take
  | recv_copy
  | recv_give
  deriving DecidableEq, Repr

/-- The kernel and a queue. `src` is what a sender was given, `result` what a task's last call
returned; `sent` and `received` are the items copied in and out so far, in order. -/
structure QueueSystem where
  system : System Links
  queue : Queue
  memory : Memory
  pc : Tcb → QueuePc
  src : Tcb → Memory
  result : Tcb → Option StatusCode
  sent : List Memory
  received : List Memory

inductive QueueAction where
  /-- A step of the kernel by the rest of the program. -/
  | kernel (a : Action)
  /-- A store by the rest of the program. -/
  | store (address : Nat) (byte : UInt8)
  | queue_send (tcb : Tcb) (src : Memory) (timeout_ms : Int)
  | queue_recv (tcb : Tcb) (timeout_ms : Int)
  /-- The next step of the queue call the task is in. -/
  | proceed (tcb : Tcb)

namespace QueueSystem

/-- The kernel steps of the rest of the program: by a task in no queue call, and not on the
queue's semaphores. -/
def foreign (X : QueueSystem) (a : Action) : Prop :=
  (∀ t ∈ a.caller, X.pc t = .idle) ∧
    X.system.touches X.queue.space_available a = false ∧
    X.system.touches X.queue.data_available a = false

instance (X : QueueSystem) (a : Action) : Decidable (X.foreign a) :=
  inferInstanceAs (Decidable (_ ∧ _ ∧ _))

/-- A section of the `semaphore_take` with which the call begins. -/
def take (X : QueueSystem) (t : Tcb) (copy : QueuePc) : Option QueueSystem :=
  match X.system.proceed t with
  | some ([.take_returns _ _ code], S) =>
    if code = E_OK then some { X with system := S, pc := update X.pc t copy }
    else some { X with
      system := S, pc := update X.pc t .idle, result := update X.result t (some E_TIMED_OUT) }
  | some (_, S) => some { X with system := S }
  | none => none

/-- The copy of `queue_send`, under the queue's lock. -/
def send (X : QueueSystem) (t : Tcb) : QueueSystem :=
  { X with
    memory := X.queue.copy_in X.memory (X.src t) X.queue.item_size
    queue := { X.queue with head := u32 (X.queue.head + 1) % X.queue.capacity }
    sent := X.sent ++ [X.queue.item_of (X.src t)]
    pc := update X.pc t .send_give }

/-- The copy of `queue_recv`, under the queue's lock. -/
def recv (X : QueueSystem) (t : Tcb) : QueueSystem :=
  { X with
    queue := { X.queue with tail := u32 (X.queue.tail + 1) % X.queue.capacity }
    received := X.received ++ [X.queue.item_at X.memory X.queue.tail]
    pc := update X.pc t .recv_give }

/-- The `semaphore_give` with which the call ends; its result is not looked at. -/
def give (X : QueueSystem) (t : Tcb) (smph : SemaphoreId) : QueueSystem :=
  { X with
    system := (X.system.give smph).2
    pc := update X.pc t .idle
    result := update X.result t (some E_OK) }

/-- A call of the queue begins. -/
def call (X : QueueSystem) (t : Tcb) (smph : SemaphoreId) (timeout_ms : Int) (pc : QueuePc) :
    Option QueueSystem :=
  if X.pc t = .idle then
    match X.system.step (.semaphore_take t smph timeout_ms) with
    | some r => some { X with
        system := r.2, pc := update X.pc t pc, result := update X.result t none }
    | none => none
  else none

/-- The next step of the queue call `t` is in. -/
def proceed (X : QueueSystem) (t : Tcb) : Option QueueSystem :=
  match X.pc t with
  | .idle => none
  | .send_take => X.take t .send_copy
  | .send_copy => some (X.send t)
  | .send_give => some (X.give t X.queue.data_available)
  | .recv_take => X.take t .recv_copy
  | .recv_copy => some (X.recv t)
  | .recv_give => some (X.give t X.queue.space_available)

/-- One step, `none` where it is not possible. -/
def step (X : QueueSystem) : QueueAction → Option QueueSystem
  | .kernel a =>
    if X.foreign a then
      match X.system.step a with
      | some r => some { X with system := r.2 }
      | none => none
    else none
  | .store address byte =>
    if X.queue.owns address then none
    else some { X with memory := update X.memory address byte }
  | .queue_send t src timeout_ms =>
    match X.call t X.queue.space_available timeout_ms .send_take with
    | some X => some { X with src := update X.src t src }
    | none => none
  | .queue_recv t timeout_ms => X.call t X.queue.data_available timeout_ms .recv_take
  | .proceed t => if X.system.kernel.runs t = true then X.proceed t else none

/-- Before the scheduler starts, after `queue_init` returned `q`. -/
def boot (max_count initial_count : SemaphoreId → Nat) (q : Queue) (memory : Memory) :
    QueueSystem where
  system := Rpitos.boot max_count initial_count
  queue := q
  memory := memory
  pc _ := .idle
  src _ _ := 0
  result _ := none
  sent := []
  received := []

end QueueSystem
end Rpitos
