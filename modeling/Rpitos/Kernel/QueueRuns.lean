import Rpitos.Lib.Ring
import Rpitos.Kernel.Queue

/-!
# Kernel.QueueRuns

The queue over a whole run. Each semaphore conserves its units, so the calls between their take and
their give account for every slot of the ring: a send that copies has a free slot, a receive that
copies has an item, and no give finds the counter full.
-/

namespace Rpitos

open Function StatusCode ListOps

/-! ## Counting the calls -/

/-- How many tasks are at `k`. -/
def count_at (pc : Tcb → QueuePc) (k : QueuePc) : Nat := count_tasks fun t => decide (pc t = k)

/-- A move from `k` to `k`, or between two other places, is not seen at `k`. -/
theorem at_update_same {pc : Tcb → QueuePc} {t : Tcb} {k k' : QueuePc} (h : pc t = k ↔ k' = k) :
    (fun u => decide (update pc t k' u = k)) = fun u => decide (pc u = k) := by
  funext u
  by_cases hu : u = t
  · subst hu; simp [h]
  · simp [hu]

theorem count_at_update (pc : Tcb → QueuePc) (t : Tcb) (k k' : QueuePc) :
    count_at (update pc t k') k + (if pc t = k then 1 else 0) =
      count_at pc k + if k' = k then 1 else 0 := by
  unfold count_at
  by_cases h : pc t = k
  · by_cases h' : k' = k
    · rw [at_update_same (iff_of_true h h'), if_pos h, if_pos h']
    · rw [if_pos h, if_neg h', count_tasks_add (t := t) (p := fun u => decide (update pc t k' u = k))
        (q := fun u => decide (pc u = k)) (by simp [h']) (by simp [h])
        (fun u hu => by simp [hu])]
  · by_cases h' : k' = k
    · rw [if_neg h, if_pos h', count_tasks_add (t := t) (p := fun u => decide (pc u = k))
        (q := fun u => decide (update pc t k' u = k)) (by simp [h]) (by simp [h'])
        (fun u hu => by simp [hu])]
    · rw [at_update_same (iff_of_false h h'), if_neg h, if_neg h']

theorem count_at_pos {pc : Tcb → QueuePc} {t : Tcb} {k : QueuePc} (h : pc t = k) :
    0 < count_at pc k := by
  unfold count_at count_tasks
  exact Finset.card_pos.mpr ⟨t, by simp [h]⟩

/-! ## The buffer -/

namespace Queue

/-- The block the queue asked for is there: no 32-bit computation of an address wraps. -/
def Fits (q : Queue) : Prop := q.buf + q.capacity * q.item_size + 3 < 2 ^ 32

variable {q : Queue} {memory memory' src : Memory} {k n a : Nat}

theorem slot_bound (hk : k < q.capacity) :
    k * q.item_size + q.item_size ≤ q.capacity * q.item_size := by
  have : (k + 1) * q.item_size ≤ q.capacity * q.item_size :=
    Nat.mul_le_mul_right _ (Nat.succ_le_of_lt hk)
  rwa [Nat.add_mul, Nat.one_mul] at this

theorem address_eq (hf : q.Fits) (hk : k < q.capacity) {i : Nat} (hi : i < q.item_size) :
    q.address k i = q.buf + k * q.item_size + i := by
  have hb := slot_bound hk
  unfold Fits at hf
  unfold address u32
  rw [Nat.mod_eq_of_lt (a := k * q.item_size) (by omega),
    Nat.mod_eq_of_lt (a := k * q.item_size + i) (by omega), Nat.mod_eq_of_lt (by omega)]
  omega

/-- What the copy loop of `queue_send` has stored after `n` rounds. -/
theorem copy_in_eq (hf : q.Fits) (hh : q.head < q.capacity) :
    ∀ n, n ≤ q.item_size → q.copy_in memory src n = fun a =>
      if q.buf + q.head * q.item_size ≤ a ∧ a < q.buf + q.head * q.item_size + n then
        src (a - (q.buf + q.head * q.item_size))
      else memory a := by
  intro n
  induction n with
  | zero =>
    intro _
    funext a
    rw [if_neg (by omega)]; rfl
  | succ n ih =>
    intro hn
    funext a
    rw [copy_in, ih (by omega), address_eq hf hh (by omega)]
    by_cases ha : a = q.buf + q.head * q.item_size + n
    · subst ha
      rw [update_self, if_pos (by omega)]
      congr 1; omega
    · rw [update_of_ne ha]
      by_cases h : q.buf + q.head * q.item_size ≤ a ∧ a < q.buf + q.head * q.item_size + n
      · rw [if_pos h, if_pos (by omega)]
      · rw [if_neg h, if_neg (by omega)]

/-- The copy of `queue_send` fills the slot at `head`. -/
theorem item_at_head (hf : q.Fits) (hh : q.head < q.capacity) :
    q.item_at (q.copy_in memory src q.item_size) q.head = q.item_of src := by
  funext i
  unfold item_at item_of
  by_cases hi : i < q.item_size
  · rw [if_pos hi, if_pos hi, copy_in_eq hf hh _ (Nat.le_refl _), address_eq hf hh hi]
    dsimp only
    rw [if_pos (by omega)]
    congr 1; omega
  · rw [if_neg hi, if_neg hi]

/-- Two slots are apart. -/
theorem slots_apart {j : Nat} (hk : k < j) : k * q.item_size + q.item_size ≤ j * q.item_size := by
  have : (k + 1) * q.item_size ≤ j * q.item_size := Nat.mul_le_mul_right _ hk
  rwa [Nat.add_mul, Nat.one_mul] at this

/-- It leaves the other slots alone. -/
theorem item_at_other (hf : q.Fits) (hh : q.head < q.capacity) (hk : k < q.capacity)
    (hne : k ≠ q.head) :
    q.item_at (q.copy_in memory src q.item_size) k = q.item_at memory k := by
  funext i
  unfold item_at
  by_cases hi : i < q.item_size
  · rw [if_pos hi, if_pos hi, copy_in_eq hf hh _ (Nat.le_refl _), address_eq hf hk hi]
    dsimp only
    rw [if_neg]
    rcases Nat.lt_or_gt_of_ne hne with h | h
    · have := slots_apart (q := q) h; omega
    · have := slots_apart (q := q) h; omega
  · rw [if_neg hi, if_neg hi]

/-- A store outside the block changes no item. -/
theorem item_at_store {byte : UInt8} (hf : q.Fits) (hk : k < q.capacity) (ha : ¬ q.owns a) :
    q.item_at (update memory a byte) k = q.item_at memory k := by
  funext i
  unfold item_at
  by_cases hi : i < q.item_size
  · have hb := slot_bound hk
    have hal : q.capacity * q.item_size ≤ heap_align (u32 (q.capacity * q.item_size)) := by
      unfold Fits at hf
      unfold heap_align u32
      omega
    rw [if_pos hi, if_pos hi, address_eq hf hk hi, update_of_ne]
    rintro rfl
    exact ha ⟨by omega, by omega⟩
  · rw [if_neg hi, if_neg hi]

end Queue

/-! ## The two sides -/

/-- Senders and receivers do the same, with the semaphores exchanged. -/
inductive Side where
  | send | recv
  deriving DecidableEq, Repr

namespace Side

def take : Side → QueuePc
  | send => .send_take
  | recv => .recv_take

def copy : Side → QueuePc
  | send => .send_copy
  | recv => .recv_copy

def give : Side → QueuePc
  | send => .send_give
  | recv => .recv_give

/-- The semaphore a call of this side takes. -/
def taken (q : Queue) : Side → SemaphoreId
  | send => q.space_available
  | recv => q.data_available

/-- The semaphore a call of this side gives. -/
def given (q : Queue) : Side → SemaphoreId
  | send => q.data_available
  | recv => q.space_available

/-- How many copies this side has made. -/
def copied (X : QueueSystem) : Side → Nat
  | send => X.sent.length
  | recv => X.received.length

variable {q : Queue} {d e : Side}

theorem taken_inj (hq : q.space_available ≠ q.data_available) :
    d.taken q = e.taken q ↔ d = e := by
  cases d <;> cases e <;> simp [taken, hq, Ne.symm hq]

theorem given_inj (hq : q.space_available ≠ q.data_available) :
    d.given q = e.given q ↔ d = e := by
  cases d <;> cases e <;> simp [given, hq, Ne.symm hq]

@[simp] theorem take_inj : d.take = e.take ↔ d = e := by cases d <;> cases e <;> simp [take]
@[simp] theorem copy_inj : d.copy = e.copy ↔ d = e := by cases d <;> cases e <;> simp [copy]
@[simp] theorem give_inj : d.give = e.give ↔ d = e := by cases d <;> cases e <;> simp [give]
@[simp] theorem take_ne_copy : d.take ≠ e.copy := by cases d <;> cases e <;> simp [take, copy]
@[simp] theorem take_ne_give : d.take ≠ e.give := by cases d <;> cases e <;> simp [take, give]
@[simp] theorem copy_ne_take : d.copy ≠ e.take := by cases d <;> cases e <;> simp [take, copy]
@[simp] theorem copy_ne_give : d.copy ≠ e.give := by cases d <;> cases e <;> simp [copy, give]
@[simp] theorem give_ne_take : d.give ≠ e.take := by cases d <;> cases e <;> simp [take, give]
@[simp] theorem give_ne_copy : d.give ≠ e.copy := by cases d <;> cases e <;> simp [copy, give]
@[simp] theorem idle_ne_take : QueuePc.idle ≠ d.take := by cases d <;> simp [take]
@[simp] theorem idle_ne_copy : QueuePc.idle ≠ d.copy := by cases d <;> simp [copy]
@[simp] theorem idle_ne_give : QueuePc.idle ≠ d.give := by cases d <;> simp [give]

end Side

/-! ## What the sections of a call leave alone -/

namespace QueueSystem

variable {X Y : QueueSystem} {t : Tcb}

/-- The queue, the buffer and what went through are as before. -/
def Same (X Y : QueueSystem) : Prop :=
  Y.queue = X.queue ∧ Y.memory = X.memory ∧ Y.sent = X.sent ∧ Y.received = X.received

theorem call_same {smph : SemaphoreId} {timeout_ms : Int} {pc : QueuePc}
    (hstep : X.call t smph timeout_ms pc = some Y) : X.Same Y := by
  unfold call at hstep
  obtain ⟨-, hstep⟩ := Option.ite_none_right_eq_some.mp hstep
  cases hs : X.system.step (.semaphore_take t smph timeout_ms) with
  | none => rw [hs] at hstep; cases hstep
  | some r => rw [hs] at hstep; cases hstep; exact ⟨rfl, rfl, rfl, rfl⟩

theorem take_same {copy : QueuePc} (hstep : X.take t copy = some Y) : X.Same Y := by
  unfold take at hstep
  split at hstep
  · split at hstep <;> cases hstep <;> exact ⟨rfl, rfl, rfl, rfl⟩
  · cases hstep; exact ⟨rfl, rfl, rfl, rfl⟩
  · cases hstep

end QueueSystem

/-- The history of the two semaphores, the calls and the indices agree. `q` is the queue as
`queue_init` returned it. -/
structure QueueAccount (max_count initial_count : SemaphoreId → Nat) (q : Queue) (X : QueueSystem)
    (h : List Event) : Prop where
  run : Run anyStep (boot max_count initial_count) h X.system
  queue : X.queue = { q with
    head := X.sent.length % q.capacity, tail := X.received.length % q.capacity }
  calls : ∀ (d : Side) t, (X.system.call t).about = some (d.taken q) ↔ X.pc t = d.take
  takes : ∀ d : Side, takes_ok (d.taken q) h = d.copied X + count_at X.pc d.copy
  gives : ∀ d : Side, gives_ok (d.given q) h + count_at X.pc d.give = d.copied X

/-- What `queue_init` leaves in the two semaphores. -/
structure Queue.Counted (q : Queue) (max_count initial_count : SemaphoreId → Nat) : Prop where
  bound : q.capacity < 2 ^ 32
  apart : q.space_available ≠ q.data_available
  max : ∀ d : Side, max_count (d.taken q) = q.capacity
  space : initial_count q.space_available = q.capacity
  data : initial_count q.data_available = 0

namespace QueueAccount

variable {max_count initial_count : SemaphoreId → Nat} {q : Queue} {X X' : QueueSystem}
  {S : System Links} {h es : List Event} {t : Tcb}

theorem boot {memory : Memory} (hh : q.head = 0) (ht : q.tail = 0) :
    QueueAccount max_count initial_count q
      (QueueSystem.boot max_count initial_count q memory) [] := by
  have hz : ∀ k, k ≠ .idle → count_at (fun _ => QueuePc.idle) k = 0 := fun k hk => by
    simp [count_at, count_tasks, Ne.symm hk]
  refine ⟨.start, ?_, fun d t => ?_, fun d => ?_, fun d => ?_⟩
  · obtain ⟨buf, head, tail, capacity, item_size, space, data⟩ := q
    cases hh; cases ht
    simp [QueueSystem.boot]
  · simp [QueueSystem.boot, Rpitos.boot, System.boot, Call.about]
  · cases d <;> simp [QueueSystem.boot, takes_ok, hz, Side.copied, Side.copy]
  · cases d <;> simp [QueueSystem.boot, gives_ok, hz, Side.copied, Side.give]

/-- The account of the free slots and of the items. -/
theorem tokens (hi : QueueAccount max_count initial_count q X h)
    (hq : q.Counted max_count initial_count) :
    (∃ A, SSim X.system A grounded) ∧
    X.system.kernel.max_count q.space_available = q.capacity ∧
    X.system.kernel.max_count q.data_available = q.capacity ∧
    (∃ n, q.capacity + X.received.length = X.system.kernel.count q.space_available + n +
      X.sent.length + count_at X.pc .send_copy + count_at X.pc .recv_give) ∧
    ∃ n, X.sent.length = X.system.kernel.count q.data_available + n + X.received.length +
      count_at X.pc .recv_copy + count_at X.pc .send_give := by
  have hms : max_count q.space_available = q.capacity := hq.max .send
  have hmd : max_count q.data_available = q.capacity := hq.max .recv
  have hspace : initial_count q.space_available ≤ max_count q.space_available := by
    rw [hms, hq.space]
  have hdata : initial_count q.data_available ≤ max_count q.data_available := by
    rw [hq.data]; omega
  obtain ⟨A, hA, hS⟩ := hi.run.takeInv hspace
  obtain ⟨A', -, hD⟩ := hi.run.takeInv hdata
  have hus := hS.units
  have hud := hD.units
  have h1 : takes_ok q.space_available h = X.sent.length + count_at X.pc .send_copy :=
    hi.takes .send
  have h2 : takes_ok q.data_available h = X.received.length + count_at X.pc .recv_copy :=
    hi.takes .recv
  have h3 : gives_ok q.data_available h + count_at X.pc .send_give = X.sent.length :=
    hi.gives .send
  have h4 : gives_ok q.space_available h + count_at X.pc .recv_give = X.received.length :=
    hi.gives .recv
  rw [hq.space] at hus
  rw [hq.data] at hud
  refine ⟨⟨A, hA⟩, hS.max_eq.trans hms, hD.max_eq.trans hmd,
    ⟨handed_units q.space_available h, by omega⟩, ⟨handed_units q.data_available h, by omega⟩⟩

/-- A queue without slots lets no call past its take. -/
theorem pos_of_copy (hi : QueueAccount max_count initial_count q X h)
    (hq : q.Counted max_count initial_count) {d : Side} (hpc : X.pc t = d.copy) :
    0 < q.capacity := by
  obtain ⟨-, -, -, ⟨n, hn⟩, m, hm⟩ := hi.tokens hq
  have hat := count_at_pos hpc
  cases d
  · simp only [Side.copy] at hat; omega
  · simp only [Side.copy] at hat; omega

/-- A step that makes no copy and ends no take and no give of the queue. -/
theorem quiet (hi : QueueAccount max_count initial_count q X h)
    (hrun : Run anyStep (Rpitos.boot max_count initial_count) (h ++ es) X'.system)
    (hqueue : X'.queue = X.queue) (hsent : X'.sent = X.sent) (hrecv : X'.received = X.received)
    (hcalls : ∀ (d : Side) t, (X'.system.call t).about = some (d.taken q) ↔ X'.pc t = d.take)
    (hpc : ∀ d : Side, count_at X'.pc d.copy = count_at X.pc d.copy ∧
      count_at X'.pc d.give = count_at X.pc d.give)
    (ht : ∀ d : Side, takes_ok (d.taken q) (h ++ es) = takes_ok (d.taken q) h)
    (hg : ∀ d : Side, gives_ok (d.given q) (h ++ es) = gives_ok (d.given q) h) :
    QueueAccount max_count initial_count q X' (h ++ es) := by
  have hcop : ∀ d : Side, d.copied X' = d.copied X := fun d => by
    cases d <;> simp [Side.copied, hsent, hrecv]
  refine ⟨hrun, ?_, hcalls, fun d => ?_, fun d => ?_⟩
  · rw [hqueue, hsent, hrecv]; exact hi.queue
  · rw [ht, (hpc d).1, hcop]; exact hi.takes d
  · rw [hg, (hpc d).2, hcop]; exact hi.gives d

/-- Both semaphores are among those the sides take. -/
theorem untouched {a : Action} (hi : QueueAccount max_count initial_count q X h)
    (hf : X.foreign a) (d : Side) : X.system.touches (d.taken q) a = false ∧
      X.system.touches (d.given q) a = false := by
  have h1 := hf.2.1
  have h2 := hf.2.2
  rw [hi.queue] at h1 h2
  cases d
  · exact ⟨h1, h2⟩
  · exact ⟨h2, h1⟩

/-- A step of the rest of the program. -/
theorem kernel {a : Action} (hi : QueueAccount max_count initial_count q X h) (hf : X.foreign a)
    (hstep : X.system.step a = some (es, S)) :
    QueueAccount max_count initial_count q { X with system := S } (h ++ es) := by
  refine hi.quiet (hi.run.step trivial hstep) rfl rfl rfl (fun d t => ?_)
    (fun d => ⟨rfl, rfl⟩) (fun d => ?_) (fun d => ?_)
  · rw [← hi.calls d t]; exact (step_about hstep (hi.untouched hf d).1).2 t
  · exact takes_ok_other (step_about hstep (hi.untouched hf d).1).1
  · exact gives_ok_other (step_about hstep (hi.untouched hf d).2).1

/-- A call begins. -/
theorem call {d : Side} {timeout_ms : Int} {Y : QueueSystem}
    (hi : QueueAccount max_count initial_count q X h) (hq : q.Counted max_count initial_count)
    (hstep : X.call t (d.taken q) timeout_ms d.take = some Y) :
    ∃ es, QueueAccount max_count initial_count q Y (h ++ es) := by
  unfold QueueSystem.call at hstep
  obtain ⟨hidle, hstep⟩ := Option.ite_none_right_eq_some.mp hstep
  cases hs : X.system.step (.semaphore_take t (d.taken q) timeout_ms) with
  | none => rw [hs] at hstep; cases hstep
  | some r =>
    obtain ⟨es, S⟩ := r
    rw [hs] at hstep
    cases hstep
    refine ⟨es, ?_⟩
    have hrun := hi.run.step trivial hs
    obtain ⟨hfree, hs⟩ := Option.ite_none_right_eq_some.mp hs
    cases hs
    refine hi.quiet hrun rfl rfl rfl (fun e u => ?_) (fun e => ?_) (fun e => ?_)
      (fun e => ?_)
    · by_cases hut : u = t
      · subst hut; simp [Call.about, Side.taken_inj hq.apart]
      · simpa [hut] using hi.calls e u
    · have h1 := count_at_update X.pc t e.copy d.take
      have h2 := count_at_update X.pc t e.give d.take
      rw [hidle] at h1 h2
      exact ⟨by simpa using h1, by simpa using h2⟩
    · rw [takes_ok_concat]; simp
    · rw [gives_ok_concat]; simp

/-- A section of a call's `semaphore_take`. -/
theorem take {d : Side} {Y : QueueSystem} (hi : QueueAccount max_count initial_count q X h)
    (hq : q.Counted max_count initial_count)
    (hrun : X.system.kernel.runs t = true) (hpc : X.pc t = d.take)
    (hstep : X.take t d.copy = some Y) :
    (∃ es, QueueAccount max_count initial_count q Y (h ++ es)) ∧
      (Y.pc t = d.copy ∧ Y.result = X.result ∨
        Y.result = update X.result t (some E_TIMED_OUT) ∧ Y.system.kernel = X.system.kernel ∨
        Y.result = X.result ∧ Y.system.kernel.count = X.system.kernel.count) := by
  have hab : (X.system.call t).about = some (d.taken q) := (hi.calls d t).mpr hpc
  unfold QueueSystem.take at hstep
  cases hp : X.system.proceed t with
  | none => rw [hp] at hstep; cases hstep
  | some r =>
    obtain ⟨es, S⟩ := r
    rw [hp] at hstep
    have hS : X.system.step (.proceed t) = some (es, S) := by
      show (if X.system.kernel.runs t = true then X.system.proceed t else none) = _
      rw [if_pos hrun, hp]
    have hrun' := hi.run.step trivial hS
    obtain ⟨code, rfl, hcall, hcode⟩ | ⟨he, hcount, hcall⟩ := proceed_take hp hab
    · -- the take returns: the task is before its copy, or out of the call
      have hcalls : ∀ (k : QueuePc), (∀ e : Side, k ≠ e.take) → ∀ (e : Side) u,
          (S.call u).about = some (e.taken q) ↔ update X.pc t k u = e.take := by
        intro k hk e u
        by_cases hut : u = t
        · subst hut; simp [hcall, Call.about, hk e]
        · simpa [hcall, hut] using hi.calls e u
      have hg : ∀ e : Side, gives_ok (e.given q) (h ++ [.take_returns t (d.taken q) code]) =
          gives_ok (e.given q) h := fun e => by rw [gives_ok_concat]; simp
      have htk : ∀ e : Side, takes_ok (e.taken q) (h ++ [.take_returns t (d.taken q) code]) =
          takes_ok (e.taken q) h + if d = e ∧ code = E_OK then 1 else 0 := fun e => by
        rw [takes_ok_concat]; simp [Side.taken_inj hq.apart]
      rcases hcode with rfl | ⟨rfl, hsame⟩
      · cases hstep
        refine ⟨⟨_, hrun', hi.queue, hcalls _ (fun e => Side.copy_ne_take), fun e => ?_,
          fun e => ?_⟩, .inl ⟨by simp, rfl⟩⟩
        · have h1 := count_at_update X.pc t e.copy d.copy
          rw [hpc] at h1
          have h2 := hi.takes e
          rw [htk e]
          simp only [Side.take_ne_copy, if_false, Side.copy_inj, and_true] at h1 ⊢
          show _ = e.copied X + count_at (update X.pc t d.copy) e.copy
          omega
        · have h1 := count_at_update X.pc t e.give d.copy
          rw [hpc] at h1
          simp only [Side.take_ne_give, Side.copy_ne_give, if_false, Nat.add_zero] at h1
          show gives_ok _ _ + count_at (update X.pc t d.copy) e.give = _
          rw [hg, h1]; exact hi.gives e
      · cases hstep
        refine ⟨⟨_, hi.quiet hrun' rfl rfl rfl (hcalls _ (fun e => Side.idle_ne_take))
          (fun e => ?_) (fun e => by rw [htk]; simp) hg⟩, .inr (.inl ⟨rfl, hsame⟩)⟩
        have h1 := count_at_update X.pc t e.copy .idle
        have h2 := count_at_update X.pc t e.give .idle
        rw [hpc] at h1 h2
        exact ⟨by simpa using h1, by simpa using h2⟩
    · have hY : Y = { X with system := S } := by
        rcases he with rfl | rfl <;> cases hstep <;> rfl
      subst hY
      refine ⟨⟨es, hi.quiet hrun' rfl rfl rfl (fun e u => ?_) (fun e => ⟨rfl, rfl⟩)
        (fun e => ?_) (fun e => ?_)⟩, .inr (.inr ⟨rfl, hcount⟩)⟩
      · rw [hcall]; exact hi.calls e u
      · rcases he with rfl | rfl
        · rw [takes_ok_concat]; simp
        · rw [List.append_nil]
      · rcases he with rfl | rfl
        · rw [gives_ok_concat]; simp
        · rw [List.append_nil]

/-- The index that follows a position's. -/
theorem next_index {n cap : Nat} (hpos : 0 < cap) (hcap : cap < 2 ^ 32) :
    u32 (n % cap + 1) % cap = (n + 1) % cap := by
  have := Nat.mod_lt n hpos
  unfold u32
  rw [Nat.mod_eq_of_lt (a := n % cap + 1) (by omega), Nat.mod_add_mod]

/-- A copy moves its task from before the copy to before the give. -/
theorem copies {d : Side} (hi : QueueAccount max_count initial_count q X h)
    (hpc : X.pc t = d.copy)
    (hsys : X'.system = X.system) (hpc' : X'.pc = update X.pc t d.give)
    (hcop : ∀ e : Side, e.copied X' = e.copied X + if d = e then 1 else 0)
    (hqueue : X'.queue = { q with
      head := X'.sent.length % q.capacity, tail := X'.received.length % q.capacity }) :
    QueueAccount max_count initial_count q X' h := by
  refine ⟨by rw [hsys]; exact hi.run, hqueue, fun e u => ?_, fun e => ?_, fun e => ?_⟩
  · rw [hsys, hpc', hi.calls e u]
    by_cases hut : u = t
    · subst hut; simp [hpc]
    · simp [hut]
  · have h1 := count_at_update X.pc t e.copy d.give
    have h2 := hi.takes e
    rw [hpc] at h1
    rw [hpc', hcop]
    simp only [Side.copy_inj, Side.give_ne_copy, if_false] at h1
    omega
  · have h1 := count_at_update X.pc t e.give d.give
    have h2 := hi.gives e
    rw [hpc] at h1
    rw [hpc', hcop]
    simp only [Side.give_inj, Side.copy_ne_give, if_false] at h1
    omega

/-- The copy of a send. -/
theorem send (hi : QueueAccount max_count initial_count q X h)
    (hq : q.Counted max_count initial_count) (hpc : X.pc t = .send_copy) :
    QueueAccount max_count initial_count q (X.send t) h := by
  have hpos := hi.pos_of_copy hq (d := .send) hpc
  refine hi.copies (d := .send) hpc rfl rfl (fun e => ?_) ?_
  · cases e <;> simp [QueueSystem.send, Side.copied]
  · simp only [QueueSystem.send, List.length_append, List.length_singleton]
    rw [hi.queue]
    simp only [next_index hpos hq.bound]

/-- The copy of a receive. -/
theorem recv (hi : QueueAccount max_count initial_count q X h)
    (hq : q.Counted max_count initial_count) (hpc : X.pc t = .recv_copy) :
    QueueAccount max_count initial_count q (X.recv t) h := by
  have hpos := hi.pos_of_copy hq (d := .recv) hpc
  refine hi.copies (d := .recv) hpc rfl rfl (fun e => ?_) ?_
  · cases e <;> simp [QueueSystem.recv, Side.copied]
  · simp only [QueueSystem.recv, List.length_append, List.length_singleton]
    rw [hi.queue]
    simp only [next_index hpos hq.bound]

/-- No give finds the counter full. -/
theorem give_ok (hi : QueueAccount max_count initial_count q X h)
    (hq : q.Counted max_count initial_count) {d : Side} (hpc : X.pc t = d.give) :
    (semaphore_give X.system.kernel (d.given q)).1 = E_OK := by
  obtain ⟨⟨A, hs⟩, hms, hmd, ⟨n, hn⟩, m, hm⟩ := hi.tokens hq
  have hpos := count_at_pos hpc
  have hlt : X.system.kernel.count (d.given q) < X.system.kernel.max_count (d.given q) := by
    cases d
    · simp only [Side.given, Side.give] at hpos ⊢; omega
    · simp only [Side.given, Side.give] at hpos ⊢; omega
  obtain ⟨w, xs, lists, -, he⟩ | ⟨-, -, he⟩ | ⟨-, hc, -⟩ :=
    semaphore_give_effect hs.kernel (d.given q)
  · rw [he]
  · rw [he]
  · exact absurd hlt hc

/-- The give at the end of a call: it succeeds. -/
theorem give {d : Side} (hi : QueueAccount max_count initial_count q X h)
    (hq : q.Counted max_count initial_count) (hpc : X.pc t = d.give) :
    ∃ es, QueueAccount max_count initial_count q (X.give t (d.given q)) (h ++ es) := by
  have hok := hi.give_ok hq hpc
  obtain ⟨hg, htk⟩ := give_history h hok
  have hstep : X.system.step (.semaphore_give (d.given q)) = some (X.system.give (d.given q)) := rfl
  have hgo : ∀ e : Side, gives_ok (e.given q) (h ++ (X.system.give (d.given q)).1) =
      gives_ok (e.given q) h + if d = e then 1 else 0 := fun e => by
    by_cases hde : d = e
    · subst hde; rw [hg, if_pos rfl]
    · rw [if_neg hde, Nat.add_zero]
      exact gives_ok_other (give_about X.system (mt (Side.given_inj hq.apart).mp hde))
  refine ⟨(X.system.give (d.given q)).1, hi.run.step trivial hstep, hi.queue, fun e u => ?_,
    fun e => ?_, fun e => ?_⟩
  · show (X.system.call u).about = _ ↔ update X.pc t .idle u = e.take
    rw [hi.calls e u]
    by_cases hut : u = t
    · subst hut; simp [hpc]
    · simp [hut]
  · have h1 := count_at_update X.pc t e.copy .idle
    rw [hpc] at h1
    simp only [Side.give_ne_copy, Side.idle_ne_copy, if_false, Nat.add_zero] at h1
    rw [htk]
    show _ = e.copied X + count_at (update X.pc t .idle) e.copy
    rw [h1]; exact hi.takes e
  · have h1 := count_at_update X.pc t e.give .idle
    have h2 := hi.gives e
    rw [hpc] at h1
    simp only [Side.give_inj, Side.idle_ne_give, if_false] at h1
    rw [hgo]
    show _ + count_at (update X.pc t .idle) e.give = e.copied X
    omega

/-- The next step of a call. -/
theorem proceed {Y : QueueSystem} (hi : QueueAccount max_count initial_count q X h)
    (hq : q.Counted max_count initial_count) (hrun : X.system.kernel.runs t = true)
    (hstep : X.proceed t = some Y) : ∃ h, QueueAccount max_count initial_count q Y h := by
  unfold QueueSystem.proceed at hstep
  have hspace : X.queue.space_available = q.space_available := by rw [hi.queue]
  have hdata : X.queue.data_available = q.data_available := by rw [hi.queue]
  cases hpc : X.pc t with
  | idle => rw [hpc] at hstep; cases hstep
  | send_take =>
    rw [hpc] at hstep
    obtain ⟨⟨es, h'⟩, -⟩ := hi.take (d := .send) hq hrun hpc hstep
    exact ⟨_, h'⟩
  | send_copy => rw [hpc] at hstep; cases hstep; exact ⟨_, hi.send hq hpc⟩
  | send_give =>
    rw [hpc] at hstep; cases hstep
    obtain ⟨es, h'⟩ := hi.give (d := .send) hq hpc
    rw [hdata]
    exact ⟨_, h'⟩
  | recv_take =>
    rw [hpc] at hstep
    obtain ⟨⟨es, h'⟩, -⟩ := hi.take (d := .recv) hq hrun hpc hstep
    exact ⟨_, h'⟩
  | recv_copy => rw [hpc] at hstep; cases hstep; exact ⟨_, hi.recv hq hpc⟩
  | recv_give =>
    rw [hpc] at hstep; cases hstep
    obtain ⟨es, h'⟩ := hi.give (d := .recv) hq hpc
    rw [hspace]
    exact ⟨_, h'⟩

/-- Each step keeps the account. -/
theorem step {a : QueueAction} {Y : QueueSystem}
    (hi : QueueAccount max_count initial_count q X h) (hq : q.Counted max_count initial_count)
    (hstep : X.step a = some Y) : ∃ h, QueueAccount max_count initial_count q Y h := by
  have hspace : X.queue.space_available = q.space_available := by rw [hi.queue]
  have hdata : X.queue.data_available = q.data_available := by rw [hi.queue]
  unfold QueueSystem.step at hstep
  cases a with
  | kernel a =>
    obtain ⟨hf, hstep⟩ := Option.ite_none_right_eq_some.mp hstep
    cases hs : X.system.step a with
    | none => rw [hs] at hstep; cases hstep
    | some r => rw [hs] at hstep; cases hstep; exact ⟨_, hi.kernel hf hs⟩
  | store a byte =>
    obtain ⟨-, hstep⟩ := Option.ite_none_left_eq_some.mp hstep
    cases hstep
    exact ⟨h, hi.run, hi.queue, hi.calls, hi.takes, hi.gives⟩
  | queue_send t src timeout_ms =>
    dsimp only at hstep
    rw [hspace] at hstep
    cases hc : X.call t q.space_available timeout_ms .send_take with
    | none => rw [hc] at hstep; cases hstep
    | some Z =>
      rw [hc] at hstep
      cases hstep
      obtain ⟨es, h'⟩ := hi.call (d := .send) hq hc
      exact ⟨_, h'.run, h'.queue, h'.calls, h'.takes, h'.gives⟩
  | queue_recv t timeout_ms =>
    dsimp only at hstep
    rw [hdata] at hstep
    obtain ⟨es, h'⟩ := hi.call (d := .recv) hq hstep
    exact ⟨_, h'⟩
  | proceed t =>
    obtain ⟨hrun, hstep⟩ := Option.ite_none_right_eq_some.mp hstep
    exact hi.proceed hq hrun hstep

end QueueAccount

/-- The history of the two semaphores, the calls and the buffer agree. `q` is the queue as
`queue_init` returned it. -/
structure QueueInv (max_count initial_count : SemaphoreId → Nat) (q : Queue) (X : QueueSystem)
    (h : List Event) : Prop where
  run : Run anyStep (boot max_count initial_count) h X.system
  queue : X.queue = { q with
    head := X.sent.length % q.capacity, tail := X.received.length % q.capacity }
  calls : ∀ (d : Side) t, (X.system.call t).about = some (d.taken q) ↔ X.pc t = d.take
  takes : ∀ d : Side, takes_ok (d.taken q) h = d.copied X + count_at X.pc d.copy
  gives : ∀ d : Side, gives_ok (d.given q) h + count_at X.pc d.give = d.copied X
  ring : Ring q.capacity (q.item_at X.memory) X.sent X.received.length
  fifo : X.received = X.sent.take X.received.length

/-- What `queue_init` leaves, when the block fits. -/
structure Queue.Ready (q : Queue) (max_count initial_count : SemaphoreId → Nat) : Prop where
  fits : q.Fits
  pos : 0 < q.capacity
  bound : q.capacity < 2 ^ 32
  apart : q.space_available ≠ q.data_available
  max : ∀ d : Side, max_count (d.taken q) = q.capacity
  space : initial_count q.space_available = q.capacity
  data : initial_count q.data_available = 0

theorem Queue.Ready.counted {q : Queue} {max_count initial_count : SemaphoreId → Nat}
    (hq : q.Ready max_count initial_count) : q.Counted max_count initial_count :=
  ⟨hq.bound, hq.apart, hq.max, hq.space, hq.data⟩

/-- The items that went through and the buffer agree. -/
structure Queue.Holds (q : Queue) (X : QueueSystem) : Prop where
  ring : Ring q.capacity (q.item_at X.memory) X.sent X.received.length
  fifo : X.received = X.sent.take X.received.length

theorem Queue.Holds.same {q : Queue} {X Y : QueueSystem} (hh : q.Holds X) (hs : X.Same Y) :
    q.Holds Y := by
  obtain ⟨-, hmemory, hsent, hreceived⟩ := hs
  exact ⟨by rw [hmemory, hsent, hreceived]; exact hh.ring,
    by rw [hsent, hreceived]; exact hh.fifo⟩

namespace QueueInv

variable {max_count initial_count : SemaphoreId → Nat} {q : Queue} {X X' : QueueSystem}
  {S : System Links} {h es : List Event} {t : Tcb}

theorem account (hi : QueueInv max_count initial_count q X h) :
    QueueAccount max_count initial_count q X h :=
  ⟨hi.run, hi.queue, hi.calls, hi.takes, hi.gives⟩

theorem holds (hi : QueueInv max_count initial_count q X h) : q.Holds X := ⟨hi.ring, hi.fifo⟩

theorem of_account (ha : QueueAccount max_count initial_count q X h) (hh : q.Holds X) :
    QueueInv max_count initial_count q X h :=
  ⟨ha.run, ha.queue, ha.calls, ha.takes, ha.gives, hh.ring, hh.fifo⟩

theorem boot {memory : Memory} (hh : q.head = 0) (ht : q.tail = 0) :
    QueueInv max_count initial_count q (QueueSystem.boot max_count initial_count q memory) [] :=
  .of_account (.boot hh ht) ⟨Ring.empty _, rfl⟩

theorem store {a : Nat} {byte : UInt8} (hi : QueueInv max_count initial_count q X h)
    (hq : q.Ready max_count initial_count) (ha : ¬ X.queue.owns a) :
    q.Holds { X with memory := update X.memory a byte } := by
  have ha' : ¬ q.owns a := by rw [hi.queue] at ha; exact ha
  exact ⟨hi.ring.congr hq.pos fun k hk => Queue.item_at_store hq.fits hk ha', hi.fifo⟩

/-- The copy of a send: there is a free slot. -/
theorem send (hi : QueueInv max_count initial_count q X h)
    (hq : q.Ready max_count initial_count) (hpc : X.pc t = .send_copy) :
    q.Holds (X.send t) := by
  obtain ⟨-, -, -, ⟨n, hn⟩, -⟩ := hi.account.tokens hq.counted
  have hpos := count_at_pos hpc
  have hlt : X.sent.length % q.capacity < q.capacity := Nat.mod_lt _ hq.pos
  generalize hqd : X.queue = r at *
  have hr : r = { q with
    head := X.sent.length % q.capacity, tail := X.received.length % q.capacity } := by
      rw [← hqd]; exact hi.queue
  have hf : r.Fits := by rw [hr]; exact hq.fits
  have hh : r.head < r.capacity := by rw [hr]; exact hlt
  constructor
  · simp only [QueueSystem.send, hqd]
    refine hi.ring.push (by omega) ?_ (fun k hk hne => ?_)
    · have : r.item_at (r.copy_in X.memory (X.src t) r.item_size) r.head = r.item_of (X.src t) :=
        Queue.item_at_head hf hh
      rw [hr] at this ⊢
      exact this
    · have : r.item_at (r.copy_in X.memory (X.src t) r.item_size) k = r.item_at X.memory k :=
        Queue.item_at_other hf hh
        (by rw [hr]; exact hk) (by rw [hr]; exact hne)
      rw [hr] at this ⊢
      exact this
  · simp only [QueueSystem.send]
    rw [List.take_append_of_le_length hi.ring.le]
    exact hi.fifo

/-- The copy of a receive: there is an item. -/
theorem recv (hi : QueueInv max_count initial_count q X h)
    (hq : q.Ready max_count initial_count) (hpc : X.pc t = .recv_copy) :
    q.Holds (X.recv t) := by
  obtain ⟨-, -, -, -, n, hn⟩ := hi.account.tokens hq.counted
  have hpos := count_at_pos hpc
  have hlt : X.received.length < X.sent.length := by omega
  constructor
  · simp only [QueueSystem.recv, List.length_append, List.length_singleton]
    exact hi.ring.pop hlt
  · have hitem : X.queue.item_at X.memory X.queue.tail = X.sent[X.received.length] := by
      rw [← hi.ring.front hlt, hi.queue]; rfl
    simp only [QueueSystem.recv, List.length_append, List.length_singleton, hitem]
    rw [List.take_add_one, ← hi.fifo, List.getElem?_eq_getElem hlt]
    rfl

/-- What the next step of a call leaves in the buffer. -/
theorem proceed_holds {Y : QueueSystem} (hi : QueueInv max_count initial_count q X h)
    (hq : q.Ready max_count initial_count) (hstep : X.proceed t = some Y) : q.Holds Y := by
  unfold QueueSystem.proceed at hstep
  cases hpc : X.pc t with
  | idle => rw [hpc] at hstep; cases hstep
  | send_take => rw [hpc] at hstep; exact hi.holds.same (QueueSystem.take_same hstep)
  | send_copy => rw [hpc] at hstep; cases hstep; exact hi.send hq hpc
  | send_give => rw [hpc] at hstep; cases hstep; exact hi.holds.same ⟨rfl, rfl, rfl, rfl⟩
  | recv_take => rw [hpc] at hstep; exact hi.holds.same (QueueSystem.take_same hstep)
  | recv_copy => rw [hpc] at hstep; cases hstep; exact hi.recv hq hpc
  | recv_give => rw [hpc] at hstep; cases hstep; exact hi.holds.same ⟨rfl, rfl, rfl, rfl⟩

/-- What a step leaves in the buffer. -/
theorem step_holds {a : QueueAction} {Y : QueueSystem}
    (hi : QueueInv max_count initial_count q X h) (hq : q.Ready max_count initial_count)
    (hstep : X.step a = some Y) : q.Holds Y := by
  unfold QueueSystem.step at hstep
  cases a with
  | kernel a =>
    obtain ⟨-, hstep⟩ := Option.ite_none_right_eq_some.mp hstep
    cases hs : X.system.step a with
    | none => rw [hs] at hstep; cases hstep
    | some r => rw [hs] at hstep; cases hstep; exact hi.holds.same ⟨rfl, rfl, rfl, rfl⟩
  | store a byte =>
    obtain ⟨ha, hstep⟩ := Option.ite_none_left_eq_some.mp hstep
    cases hstep
    exact hi.store hq ha
  | queue_send t src timeout_ms =>
    dsimp only at hstep
    cases hc : X.call t X.queue.space_available timeout_ms .send_take with
    | none => rw [hc] at hstep; cases hstep
    | some Z =>
      rw [hc] at hstep
      cases hstep
      obtain ⟨h1, h2, h3, h4⟩ := QueueSystem.call_same hc
      exact hi.holds.same ⟨h1, h2, h3, h4⟩
  | queue_recv t timeout_ms => exact hi.holds.same (QueueSystem.call_same hstep)
  | proceed t =>
    obtain ⟨-, hstep⟩ := Option.ite_none_right_eq_some.mp hstep
    exact hi.proceed_holds hq hstep

/-- Each step keeps the invariant. -/
theorem step {a : QueueAction} {Y : QueueSystem} (hi : QueueInv max_count initial_count q X h)
    (hq : q.Ready max_count initial_count) (hstep : X.step a = some Y) :
    ∃ h, QueueInv max_count initial_count q Y h := by
  obtain ⟨h', ha⟩ := hi.account.step hq.counted hstep
  exact ⟨h', .of_account ha (hi.step_holds hq hstep)⟩

end QueueInv

/-! ## Runs -/

/-- A step leaves the indices, the buffer and the counters of the queue as they are. -/
def QueueSystem.Untouched (X Y : QueueSystem) : Prop :=
  Y.queue = X.queue ∧ Y.memory = X.memory ∧ Y.system.kernel.count = X.system.kernel.count

/-- What the queue promises in a state. -/
structure QueueSafe (X : QueueSystem) : Prop where
  /-- The items copied out are the first of the items copied in, in order. -/
  fifo : X.received <+: X.sent
  bound : X.sent.length ≤ X.received.length + X.queue.capacity
  /-- Every item that has not been read is in its slot. -/
  unread : ∀ i (h : i < X.sent.length), X.received.length ≤ i →
    X.queue.item_at X.memory (i % X.queue.capacity) = X.sent[i]
  send_give : ∀ t, X.pc t = .send_give →
    (semaphore_give X.system.kernel X.queue.data_available).1 = E_OK
  recv_give : ∀ t, X.pc t = .recv_give →
    (semaphore_give X.system.kernel X.queue.space_available).1 = E_OK
  /-- A call changes nothing before its take has succeeded, so a call that times out does not. -/
  call : ∀ t src timeout_ms Y, (X.step (.queue_send t src timeout_ms) = some Y ∨
    X.step (.queue_recv t timeout_ms) = some Y) → X.Untouched Y
  take : ∀ t Y, X.pc t = .send_take ∨ X.pc t = .recv_take → X.step (.proceed t) = some Y →
    X.Untouched Y ∨ Y.pc t = .send_copy ∨ Y.pc t = .recv_copy
  timed_out : ∀ t a Y, X.step a = some Y → Y.result t = some E_TIMED_OUT →
    X.result t = some E_TIMED_OUT ∨ X.Untouched Y ∧ Y.system.kernel = X.system.kernel

section Safe

variable {max_count initial_count : SemaphoreId → Nat} {q : Queue} {X Y : QueueSystem}
  {h : List Event} {t : Tcb}

theorem QueueSystem.call_untouched {smph : SemaphoreId} {timeout_ms : Int} {pc : QueuePc}
    (hstep : X.call t smph timeout_ms pc = some Y) :
    X.Untouched Y ∧ Y.result = update X.result t none := by
  unfold QueueSystem.call at hstep
  obtain ⟨-, hstep⟩ := Option.ite_none_right_eq_some.mp hstep
  cases hs : X.system.step (.semaphore_take t smph timeout_ms) with
  | none => rw [hs] at hstep; cases hstep
  | some r =>
    rw [hs] at hstep
    cases hstep
    obtain ⟨-, hs⟩ := Option.ite_none_right_eq_some.mp hs
    cases hs
    exact ⟨⟨rfl, rfl, rfl⟩, rfl⟩

/-- The call starts are those of `call`. -/
theorem QueueSystem.send_untouched {src : Memory} {timeout_ms : Int}
    (hstep : X.step (.queue_send t src timeout_ms) = some Y) :
    X.Untouched Y ∧ Y.result = update X.result t none := by
  unfold QueueSystem.step at hstep
  cases hc : X.call t X.queue.space_available timeout_ms .send_take with
  | none =>
    simp only [hc] at hstep
    cases hstep
  | some Z =>
    simp only [hc] at hstep
    cases hstep
    obtain ⟨⟨h1, h2, h3⟩, h4⟩ := QueueSystem.call_untouched hc
    exact ⟨⟨h1, h2, h3⟩, h4⟩

/-- A task before or in its take either gets past it or changes nothing. -/
theorem QueueInv.take_untouched {d : Side} (hi : QueueInv max_count initial_count q X h)
    (hq : q.Ready max_count initial_count) (hrun : X.system.kernel.runs t = true)
    (hpc : X.pc t = d.take) (hstep : X.take t d.copy = some Y) :
    X.Untouched Y ∨ Y.pc t = d.copy := by
  obtain ⟨h1, h2, -⟩ := QueueSystem.take_same hstep
  obtain ⟨-, ⟨h3, -⟩ | ⟨-, h3⟩ | ⟨-, h3⟩⟩ := hi.account.take hq.counted hrun hpc hstep
  · exact .inr h3
  · exact .inl ⟨h1, h2, by rw [h3]⟩
  · exact .inl ⟨h1, h2, h3⟩

theorem QueueInv.take_times_out {d : Side} {u : Tcb}
    (hi : QueueInv max_count initial_count q X h)
    (hq : q.Ready max_count initial_count) (hrun : X.system.kernel.runs u = true)
    (hpc : X.pc u = d.take) (hstep : X.take u d.copy = some Y)
    (hres : Y.result t = some E_TIMED_OUT) :
    X.result t = some E_TIMED_OUT ∨ X.Untouched Y ∧ Y.system.kernel = X.system.kernel := by
  obtain ⟨h1, h2, -⟩ := QueueSystem.take_same hstep
  obtain ⟨-, ⟨-, h3⟩ | ⟨h3, h4⟩ | ⟨h3, -⟩⟩ := hi.account.take hq.counted hrun hpc hstep
  · exact .inl (h3 ▸ hres)
  · exact .inr ⟨⟨h1, h2, by rw [h4]⟩, h4⟩
  · exact .inl (h3 ▸ hres)

theorem QueueInv.timed_out {a : QueueAction} (hi : QueueInv max_count initial_count q X h)
    (hq : q.Ready max_count initial_count) (hstep : X.step a = some Y)
    (hres : Y.result t = some E_TIMED_OUT) :
    X.result t = some E_TIMED_OUT ∨ X.Untouched Y ∧ Y.system.kernel = X.system.kernel := by
  have hother : ∀ {u : Tcb} {r : Option StatusCode}, r ≠ some E_TIMED_OUT →
      update X.result u r t = some E_TIMED_OUT → X.result t = some E_TIMED_OUT := by
    intro u r hr h
    by_cases htu : t = u
    · subst htu; rw [update_self] at h; exact absurd h hr
    · rwa [update_of_ne htu] at h
  cases a with
  | kernel a =>
    obtain ⟨-, hstep⟩ := Option.ite_none_right_eq_some.mp hstep
    cases hs : X.system.step a with
    | none => rw [hs] at hstep; cases hstep
    | some r => rw [hs] at hstep; cases hstep; exact .inl hres
  | store a byte =>
    obtain ⟨-, hstep⟩ := Option.ite_none_left_eq_some.mp hstep
    cases hstep
    exact .inl hres
  | queue_send u src timeout_ms =>
    rw [(QueueSystem.send_untouched hstep).2] at hres
    exact .inl (hother (by simp) hres)
  | queue_recv u timeout_ms =>
    rw [(QueueSystem.call_untouched hstep).2] at hres
    exact .inl (hother (by simp) hres)
  | proceed u =>
    obtain ⟨hrun, hstep⟩ := Option.ite_none_right_eq_some.mp hstep
    unfold QueueSystem.proceed at hstep
    cases hpc : X.pc u with
    | idle => rw [hpc] at hstep; cases hstep
    | send_take =>
      rw [hpc] at hstep
      exact hi.take_times_out (d := .send) hq hrun hpc hstep hres
    | send_copy => rw [hpc] at hstep; cases hstep; exact .inl hres
    | send_give => rw [hpc] at hstep; cases hstep; exact .inl (hother (by simp) hres)
    | recv_take =>
      rw [hpc] at hstep
      exact hi.take_times_out (d := .recv) hq hrun hpc hstep hres
    | recv_copy => rw [hpc] at hstep; cases hstep; exact .inl hres
    | recv_give => rw [hpc] at hstep; cases hstep; exact .inl (hother (by simp) hres)

theorem QueueInv.safe (hi : QueueInv max_count initial_count q X h)
    (hq : q.Ready max_count initial_count) : QueueSafe X := by
  have hcap : X.queue.capacity = q.capacity := by rw [hi.queue]
  have hspace : X.queue.space_available = q.space_available := by rw [hi.queue]
  have hdata : X.queue.data_available = q.data_available := by rw [hi.queue]
  have hitem : X.queue.item_at X.memory = q.item_at X.memory := by rw [hi.queue]; rfl
  refine ⟨?_, ?_, fun i hlt hle => ?_, fun t hpc => ?_, fun t hpc => ?_,
    fun t src timeout_ms Y hstep => ?_, fun t Y hpc hstep => ?_,
    fun t a Y hstep hres => hi.timed_out hq hstep hres⟩
  · rw [hi.fifo]; exact List.take_prefix _ _
  · rw [hcap]; exact hi.ring.room
  · rw [hitem, hcap]; exact hi.ring.slots i hlt hle
  · rw [hdata]; exact hi.account.give_ok hq.counted (d := .send) hpc
  · rw [hspace]; exact hi.account.give_ok hq.counted (d := .recv) hpc
  · rcases hstep with hstep | hstep
    · exact (QueueSystem.send_untouched hstep).1
    · exact (QueueSystem.call_untouched hstep).1
  · obtain ⟨hrun, hstep⟩ := Option.ite_none_right_eq_some.mp hstep
    unfold QueueSystem.proceed at hstep
    rcases hpc with hpc | hpc
    · rw [hpc] at hstep
      rcases hi.take_untouched (d := .send) hq hrun hpc hstep with h1 | h1
      · exact .inl h1
      · exact .inr (.inl h1)
    · rw [hpc] at hstep
      rcases hi.take_untouched (d := .recv) hq hrun hpc hstep with h1 | h1
      · exact .inl h1
      · exact .inr (.inr h1)

end Safe

theorem queue_init_ready {K K' : Kernel Links} {space data : SemaphoreId}
    {capacity item_size : Nat} {q : Queue}
    (hinit : queue_init K space data capacity item_size = (E_OK, some q, K'))
    (hne : space ≠ data) (hpos : 1 ≤ capacity) (hcap : capacity < 2 ^ 32)
    (hfit : K.heap_offset + capacity * item_size ≤ HEAP_SIZE_BYTES) :
    q.Ready K'.max_count K'.count ∧ q.head = 0 ∧ q.tail = 0 := by
  unfold queue_init heap_malloc at hinit
  dsimp only at hinit
  split at hinit
  · cases hinit
  · rename_i buf off hm
    split at hm
    · cases hm
    · cases hm
      cases hinit
      unfold HEAP_SIZE_BYTES at hfit
      refine ⟨⟨?_, hpos, hcap, hne, fun d => ?_, ?_, ?_⟩, rfl, rfl⟩
      · unfold Queue.Fits; dsimp only; omega
      · cases d <;> simp [semaphore_init, Side.taken, Ne.symm hne]
      · simp [semaphore_init]
      · simp [semaphore_init, Ne.symm hne]

/-- In every run of a queue whose block fits in the heap, the queue is a bounded FIFO. -/
theorem queue_fifo {K K' : Kernel Links} {space data : SemaphoreId} {capacity item_size : Nat}
    {q : Queue} {memory : Memory} {X : QueueSystem}
    (hinit : queue_init K space data capacity item_size = (E_OK, some q, K'))
    (hne : space ≠ data) (hpos : 1 ≤ capacity) (hcap : capacity < 2 ^ 32)
    (hfit : K.heap_offset + capacity * item_size ≤ HEAP_SIZE_BYTES)
    (hr : Reach QueueSystem.step anything (QueueSystem.boot K'.max_count K'.count q memory) X) :
    QueueSafe X := by
  obtain ⟨hq, hh, ht⟩ := queue_init_ready hinit hne hpos hcap hfit
  have hi : ∃ h, QueueInv K'.max_count K'.count q X h := by
    refine hr.invariant (P := fun X => ∃ h, QueueInv K'.max_count K'.count q X h)
      ⟨_, QueueInv.boot hh ht⟩ ?_
    rintro X Y a ⟨h, hi⟩ - hstep
    exact hi.step hq hstep
  obtain ⟨h, hi⟩ := hi
  exact hi.safe hq

/-- One item through a queue of one slot. -/
def send_and_recv : List QueueAction :=
  [.kernel (.scheduler_init 0), .kernel (.task_create 0 100 2), .kernel (.scheduler_start 0),
   .queue_send (.pool 0 0) (fun _ => 7) 5, .proceed (.pool 0 0), .proceed (.pool 0 0),
   .proceed (.pool 0 0), .queue_recv (.pool 0 0) 0, .proceed (.pool 0 0), .proceed (.pool 0 0),
   .proceed (.pool 0 0)]

/-- The kernel before `queue_init`. -/
def queue_kernel : Kernel Links := Kernel.boot Heap.empty (fun _ => 0) (fun _ => 0)

def small_queue : Queue := ⟨0, 0, 0, 1, 4, 0, 1⟩

theorem send_and_recv_run : (execute QueueSystem.step anything (QueueSystem.boot
    (queue_init queue_kernel 0 1 1 4).2.2.max_count (queue_init queue_kernel 0 1 1 4).2.2.count
    small_queue (fun _ => 0)) send_and_recv).isSome = true := by rfl

theorem queue_fifo_send_and_recv : QueueSafe ((execute QueueSystem.step anything
    (QueueSystem.boot (queue_init queue_kernel 0 1 1 4).2.2.max_count
      (queue_init queue_kernel 0 1 1 4).2.2.count small_queue (fun _ => 0))
    send_and_recv).get send_and_recv_run) :=
  queue_fifo (show queue_init queue_kernel 0 1 1 4 =
      (E_OK, some small_queue, (queue_init queue_kernel 0 1 1 4).2.2) from rfl) (by decide) (by decide)
    (by decide) (by decide)
    (Reach.of_exec send_and_recv .start (Option.some_get send_and_recv_run).symm)

/-- A queue of 2^30 + 1 items of 4 bytes: `capacity * item_size` wraps to 4, a block of one item. -/
def huge_queue : Queue := ⟨0, 0, 0, 1073741825, 4, 0, 1⟩

/-- Two sends, a store to the block that `heap_malloc` returns next, two receives. -/
def store_between : List QueueAction :=
  [.kernel (.scheduler_init 0), .kernel (.task_create 0 100 2), .kernel (.scheduler_start 0),
   .queue_send (.pool 0 0) (fun _ => 1) 0, .proceed (.pool 0 0), .proceed (.pool 0 0),
   .proceed (.pool 0 0), .queue_send (.pool 0 0) (fun _ => 2) 0, .proceed (.pool 0 0),
   .proceed (.pool 0 0), .proceed (.pool 0 0), .store 4 3,
   .queue_recv (.pool 0 0) 0, .proceed (.pool 0 0), .proceed (.pool 0 0), .proceed (.pool 0 0),
   .queue_recv (.pool 0 0) 0, .proceed (.pool 0 0), .proceed (.pool 0 0)]

theorem store_between_run : (execute QueueSystem.step anything (QueueSystem.boot
    (queue_init queue_kernel 0 1 1073741825 4).2.2.max_count
    (queue_init queue_kernel 0 1 1073741825 4).2.2.count
    huge_queue (fun _ => 0)) store_between).isSome = true := by rfl

/-- The store changes the second item while it is in the queue. -/
theorem queue_overlap : ¬ ∀ (K K' : Kernel Links) (space data : SemaphoreId)
    (capacity item_size : Nat) (q : Queue) (memory : Memory) (X : QueueSystem),
    queue_init K space data capacity item_size = (E_OK, some q, K') → space ≠ data →
    1 ≤ capacity → capacity < 2 ^ 32 → item_size < 2 ^ 32 →
    Reach QueueSystem.step anything (QueueSystem.boot K'.max_count K'.count q memory) X →
    QueueSafe X := by
  intro h
  have hs := h queue_kernel (queue_init queue_kernel 0 1 1073741825 4).2.2 0 1 1073741825 4
    huge_queue (fun _ => 0) _ rfl (by decide) (by decide) (by decide) (by decide)
    (Reach.of_exec store_between .start (Option.some_get store_between_run).symm)
  obtain ⟨rest, hrest⟩ := hs.fifo
  have hsecond : (some 3 : Option UInt8) = some 2 :=
    congrArg (fun items => items.tail.head?.map (fun item => item 0)) hrest
  exact absurd hsecond (by decide)

end Rpitos
