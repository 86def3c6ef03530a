import Rpitos.Kernel.QueueRuns

/-!
# Kernel.QueueBounds

The bytes of `q->buf` that the two copies of `queue.c` access. The size of the block is one 32-bit
product and the offset of a slot another. `queue_in_bounds`: when the product of capacity and item
size does not wrap, every access of every run lies in the block, and the indices are never taken
modulo a capacity of zero. `queue_out_of_bounds`: a queue whose product wraps to 0.
-/

namespace Rpitos

open StatusCode ListOps

/-- `queue_init` over any allocator: `malloc size` is the block it returns, `none` for NULL. -/
def queue_init_with {L : Type} [ListOps L ItemRef ListRef] (malloc : Nat → Option Nat)
    (K : Kernel L) (space_available data_available : SemaphoreId) (capacity item_size : Nat) :
    StatusCode × Option Queue × Kernel L :=
  match malloc (u32 (capacity * item_size)) with
  | none => (E_OUT_OF_MEM, none, K)
  | some buf =>
    let K := semaphore_init K data_available capacity 0
    let K := semaphore_init K space_available capacity capacity
    (E_OK, some { buf := buf, head := 0, tail := 0, capacity := capacity, item_size := item_size,
                  space_available := space_available, data_available := data_available }, K)

/-- `queue_init` is the instance for `heap_malloc`. -/
theorem queue_init_eq {L : Type} [ListOps L ItemRef ListRef] (K : Kernel L)
    (space data : SemaphoreId) (capacity item_size : Nat) :
    queue_init K space data capacity item_size =
      queue_init_with (fun size => (heap_malloc K.heap_offset size).1)
        { K with heap_offset := (heap_malloc K.heap_offset (u32 (capacity * item_size))).2 }
        space data capacity item_size := by
  unfold queue_init queue_init_with heap_malloc
  dsimp only
  by_cases hfull :
      (K.heap_offset + heap_align (u32 (capacity * item_size))) % 2 ^ 32 > HEAP_SIZE_BYTES
  · rw [if_pos hfull]
  · rw [if_neg hfull]

namespace Queue

/-- `(slot * q->item_size) + i`, an index of `q->buf`. -/
def index (q : Queue) (slot i : Nat) : Nat := u32 (u32 (slot * q.item_size) + i)

theorem address_index (q : Queue) (slot i : Nat) : q.address slot i = u32 (q.buf + q.index slot i) :=
  rfl

/-- An index of a slot of the ring is inside the product, when the product does not wrap. -/
theorem index_lt {q : Queue} {slot i : Nat} (hwrap : q.capacity * q.item_size < 2 ^ 32)
    (hslot : slot < q.capacity) (hi : i < q.item_size) :
    q.index slot i < q.capacity * q.item_size := by
  have hb := slot_bound (q := q) hslot
  unfold index u32
  rw [Nat.mod_eq_of_lt (a := slot * q.item_size) (by omega), Nat.mod_eq_of_lt (by omega)]
  omega

end Queue

/-- The accesses of the copies that tasks are before, in a buffer of `allocated` bytes. -/
structure QueueInBounds (allocated : Nat) (X : QueueSystem) : Prop where
  write : ∀ t, X.pc t = .send_copy → ∀ i < X.queue.item_size,
    X.queue.index X.queue.head i < allocated
  read : ∀ t, X.pc t = .recv_copy → ∀ i < X.queue.item_size,
    X.queue.index X.queue.tail i < allocated
  capacity : ∀ t, X.pc t = .send_copy ∨ X.pc t = .recv_copy → X.queue.capacity ≠ 0

theorem QueueAccount.in_bounds {max_count initial_count : SemaphoreId → Nat} {q : Queue}
    {X : QueueSystem} {h : List Event} {allocated : Nat}
    (hi : QueueAccount max_count initial_count q X h) (hq : q.Counted max_count initial_count)
    (hwrap : q.capacity * q.item_size < 2 ^ 32) (hall : q.capacity * q.item_size ≤ allocated) :
    QueueInBounds allocated X := by
  have hindex : ∀ {n i : Nat}, 0 < q.capacity → i < q.item_size →
      X.queue.index (n % q.capacity) i < allocated := by
    intro n i hpos hlt
    have hin : q.index (n % q.capacity) i < q.capacity * q.item_size :=
      Queue.index_lt hwrap (Nat.mod_lt _ hpos) hlt
    rw [hi.queue]
    exact Nat.lt_of_lt_of_le hin hall
  have hhead : X.queue.head = X.sent.length % q.capacity := by rw [hi.queue]
  have htail : X.queue.tail = X.received.length % q.capacity := by rw [hi.queue]
  have hcap : X.queue.capacity = q.capacity := by rw [hi.queue]
  have hitem : X.queue.item_size = q.item_size := by rw [hi.queue]
  refine ⟨fun t hpc i hlt => ?_, fun t hpc i hlt => ?_, fun t hpc => ?_⟩
  · rw [hhead]
    exact hindex (hi.pos_of_copy hq (d := .send) hpc) (hitem ▸ hlt)
  · rw [htail]
    exact hindex (hi.pos_of_copy hq (d := .recv) hpc) (hitem ▸ hlt)
  · rw [hcap]
    rcases hpc with hpc | hpc
    · exact Nat.ne_of_gt (hi.pos_of_copy hq (d := .send) hpc)
    · exact Nat.ne_of_gt (hi.pos_of_copy hq (d := .recv) hpc)

section Init

variable {malloc : Nat → Option Nat} {K K' : Kernel Links} {space data : SemaphoreId}
  {capacity item_size : Nat} {q : Queue}

theorem queue_init_counted
    (hinit : queue_init_with malloc K space data capacity item_size = (E_OK, some q, K'))
    (hne : space ≠ data) (hcap : capacity < 2 ^ 32) :
    q.Counted K'.max_count K'.count ∧ q.head = 0 ∧ q.tail = 0 ∧ q.capacity = capacity ∧
      q.item_size = item_size ∧ malloc (u32 (capacity * item_size)) = some q.buf := by
  unfold queue_init_with at hinit
  split at hinit
  · cases hinit
  · rename_i buf hbuf
    cases hinit
    refine ⟨⟨hcap, hne, fun d => ?_, ?_, ?_⟩, rfl, rfl, rfl, rfl, hbuf⟩
    · cases d <;> simp [semaphore_init, Side.taken, Ne.symm hne]
    · simp [semaphore_init]
    · simp [semaphore_init, Ne.symm hne]

/-- In every run of a queue whose product does not wrap, over every allocator that returns at least
what it is asked for (`allocated size` bytes for a request of `size`), the copies stay in the block. -/
theorem queue_in_bounds {allocated : Nat → Nat} {memory : Memory} {X : QueueSystem}
    (hmalloc : ∀ size, malloc size ≠ none → size ≤ allocated size)
    (hinit : queue_init_with malloc K space data capacity item_size = (E_OK, some q, K'))
    (hne : space ≠ data) (hcap : capacity < 2 ^ 32)
    (hwrap : capacity * item_size < 2 ^ 32)
    (hr : Reach QueueSystem.step anything (QueueSystem.boot K'.max_count K'.count q memory) X) :
    QueueInBounds (allocated (u32 (capacity * item_size))) X := by
  obtain ⟨hq, hh, ht, hqc, hqi, hbuf⟩ := queue_init_counted hinit hne hcap
  have hi : ∃ h, QueueAccount K'.max_count K'.count q X h := by
    refine hr.invariant (P := fun X => ∃ h, QueueAccount K'.max_count K'.count q X h)
      ⟨_, QueueAccount.boot hh ht⟩ ?_
    rintro X Y a ⟨h, hi⟩ - hstep
    exact hi.step hq hstep
  obtain ⟨h, hi⟩ := hi
  have hall := hmalloc (u32 (capacity * item_size)) (by rw [hbuf]; exact Option.some_ne_none _)
  rw [show u32 (capacity * item_size) = capacity * item_size from Nat.mod_eq_of_lt hwrap] at hall ⊢
  exact hi.in_bounds hq (by rw [hqc, hqi]; exact hwrap) (by rw [hqc, hqi]; exact hall)

end Init

/-- An allocator that returns what it is asked for. -/
def exact_malloc (size : Nat) : Option Nat := if size ≤ HEAP_SIZE_BYTES then some 0 else none

/-- A send up to its copy. -/
def send_to_copy : List QueueAction :=
  [.kernel (.scheduler_init 0), .kernel (.task_create 0 100 2), .kernel (.scheduler_start 0),
   .queue_send (.pool 0 0) (fun _ => 7) 0, .proceed (.pool 0 0)]

/-- The kernel that `queue_init` leaves, of a queue in the first block. -/
def exact_kernel (capacity item_size : Nat) : Kernel Links :=
  (queue_init_with exact_malloc queue_kernel 0 1 capacity item_size).2.2

theorem send_to_copy_run : (execute QueueSystem.step anything (QueueSystem.boot
    (exact_kernel 1 4).max_count (exact_kernel 1 4).count small_queue (fun _ => 0))
    send_to_copy).isSome = true := by rfl

theorem queue_in_bounds_one_slot : QueueInBounds 4 ((execute QueueSystem.step anything
    (QueueSystem.boot (exact_kernel 1 4).max_count (exact_kernel 1 4).count small_queue
      (fun _ => 0)) send_to_copy).get send_to_copy_run) :=
  queue_in_bounds
    (show ∀ size, exact_malloc size ≠ none → size ≤ id size from fun size _ => Nat.le_refl size)
    (show queue_init_with exact_malloc queue_kernel 0 1 1 4 =
      (E_OK, some small_queue, exact_kernel 1 4) from rfl) (by decide) (by decide) (by decide)
    (Reach.of_exec send_to_copy .start (Option.some_get send_to_copy_run).symm)

/-- A queue of 65536 items of 65536 bytes: `capacity * item_size` wraps to 0. -/
def empty_block_queue : Queue := ⟨0, 0, 0, 65536, 65536, 0, 1⟩

theorem send_outside_run : (execute QueueSystem.step anything (QueueSystem.boot
    (exact_kernel 65536 65536).max_count (exact_kernel 65536 65536).count empty_block_queue
    (fun _ => 0)) send_to_copy).isSome = true := by rfl

/-- The first send stores its item behind a block of no bytes. -/
theorem queue_out_of_bounds : ¬ ∀ (malloc : Nat → Option Nat) (allocated : Nat → Nat)
    (K K' : Kernel Links) (space data : SemaphoreId) (capacity item_size : Nat) (q : Queue)
    (memory : Memory) (X : QueueSystem),
    (∀ size, malloc size ≠ none → size ≤ allocated size) →
    queue_init_with malloc K space data capacity item_size = (E_OK, some q, K') → space ≠ data →
    capacity < 2 ^ 32 → item_size < 2 ^ 32 →
    Reach QueueSystem.step anything (QueueSystem.boot K'.max_count K'.count q memory) X →
    QueueInBounds (allocated (u32 (capacity * item_size))) X := by
  intro h
  have hin := h exact_malloc id queue_kernel (exact_kernel 65536 65536) 0 1 65536 65536
    empty_block_queue (fun _ => 0) _ (fun size _ => Nat.le_refl size) rfl (by decide) (by decide)
    (by decide)
    (Reach.of_exec send_to_copy .start (Option.some_get send_outside_run).symm)
  have hlt := hin.write (.pool 0 0) rfl 0 (by decide)
  exact absurd hlt (Nat.not_lt_zero _)

end Rpitos
