import Rpitos.Lib.Ring
import Rpitos.Drivers.Uart

/-!
# Drivers.UartRuns

The buffered channel over a whole run. `UartRing` is the buffer: slot `(i + 1) % UART_BUFFER_SIZE`
holds the `i`-th byte enqueued until it is transmitted, and `released` bytes have been given back to
the producers, which is behind the transmitted ones while a run is in flight and one ahead of them
while the task has a byte in hand. `UartUnits` is the two semaphores: what a producer or the
interrupt handler gives is there until the task takes it.
-/

namespace Rpitos

open Function StatusCode ListOps

/-! ## The buffer -/

/-- The slot of the `i`-th byte. -/
def uart_slot (i : Nat) : Nat := (i + 1) % UART_BUFFER_SIZE

/-- Where the task stands, when `released` bytes are free again. -/
def UartPhase (pc : UartTxPc) (dma : Option DmaRun) (enqueued transmitted : List UInt8)
    (released : Nat) : Prop :=
  match pc with
  | .take_data | .taking_data | .loop => dma = none ∧ transmitted.length = released
  | .dma_start left => dma = none ∧ transmitted.length = released ∧ released < enqueued.length ∧
      left = released % UART_BUFFER_SIZE
  | .take_done left run | .taking_done left run =>
    left = released % UART_BUFFER_SIZE ∧ 1 ≤ run ∧
      uart_slot released + run ≤ UART_BUFFER_SIZE ∧ released + run ≤ enqueued.length ∧
      (dma = none ∧ transmitted.length = released + run ∨
        ∃ beats, beats ≤ run ∧ dma = some ⟨uart_slot released, run, beats⟩ ∧
          transmitted.length = released + beats)
  | .dma_advance left run => dma = none ∧ left = released % UART_BUFFER_SIZE ∧
      released + run ≤ enqueued.length ∧ transmitted.length = released + run
  | .pio_advance => dma = none ∧ transmitted.length = released ∧ released < enqueued.length
  | .pio_load => dma = none ∧ transmitted.length + 1 = released
  | .pio_write byte => dma = none ∧ transmitted.length + 1 = released ∧
      enqueued[transmitted.length]? = some byte

structure UartRing (uart_buf : Nat → UInt32) (left right : Nat) (pc : UartTxPc)
    (dma : Option DmaRun) (enqueued transmitted : List UInt8) (released : Nat) : Prop where
  left : left = released % UART_BUFFER_SIZE
  right : right = enqueued.length % UART_BUFFER_SIZE
  le : released ≤ enqueued.length
  room : enqueued.length < released + UART_BUFFER_SIZE
  ring : Ring UART_BUFFER_SIZE (fun k => (uart_buf (uart_slot k)).toUInt8) enqueued
    transmitted.length
  in_order : transmitted = enqueued.take transmitted.length
  phase : UartPhase pc dma enqueued transmitted released

abbrev UartSystem.Buffer (X : UartSystem) (released : Nat) : Prop :=
  UartRing X.uart_buf X.p_uart_buf_left X.p_uart_buf_right X.pc X.dma X.enqueued X.transmitted
    released

theorem uart_slot_mod (i : Nat) : uart_slot (i % UART_BUFFER_SIZE) = uart_slot i := by
  unfold uart_slot UART_BUFFER_SIZE; omega

/-- Longer input leaves the task where it is. -/
theorem UartPhase.append {pc : UartTxPc} {dma : Option DmaRun} {enqueued transmitted : List UInt8}
    {n : Nat} (h : UartPhase pc dma enqueued transmitted n) (bytes : List UInt8) :
    UartPhase pc dma (enqueued ++ bytes) transmitted n := by
  unfold UartPhase at h ⊢
  rw [List.length_append]
  cases pc with
  | take_data => exact h
  | taking_data => exact h
  | loop => exact h
  | dma_start left => exact ⟨h.1, h.2.1, by omega, h.2.2.2⟩
  | take_done left run => exact ⟨h.1, h.2.1, h.2.2.1, by omega, h.2.2.2.2⟩
  | taking_done left run => exact ⟨h.1, h.2.1, h.2.2.1, by omega, h.2.2.2.2⟩
  | dma_advance left run => exact ⟨h.1, h.2.1, by omega, h.2.2.2⟩
  | pio_advance => exact ⟨h.1, h.2.1, by omega⟩
  | pio_load => exact h
  | pio_write byte =>
    obtain ⟨hlt, -⟩ := List.getElem?_eq_some_iff.mp h.2.2
    exact ⟨h.1, h.2.1, by rw [List.getElem?_append_left hlt]; exact h.2.2⟩

namespace UartRing

variable {uart_buf : Nat → UInt32} {left right n : Nat} {pc : UartTxPc} {dma : Option DmaRun}
  {enqueued transmitted : List UInt8} {X : UartSystem}

/-- The difference of the indices is what is stored. -/
theorem stored_eq (hr : UartRing uart_buf left right pc dma enqueued transmitted n) :
    (right + UART_BUFFER_SIZE - left) % UART_BUFFER_SIZE = enqueued.length - n := by
  have h1 := hr.left
  have h2 := hr.right
  have h3 := hr.le
  have h4 := hr.room
  simp only [UART_BUFFER_SIZE] at *
  omega

theorem empty_iff (hr : UartRing uart_buf left right pc dma enqueued transmitted n) :
    right = left ↔ enqueued.length = n := by
  have h1 := hr.left
  have h2 := hr.right
  have h3 := hr.le
  have h4 := hr.room
  simp only [UART_BUFFER_SIZE] at *
  omega

theorem full_iff (hr : UartRing uart_buf left right pc dma enqueued transmitted n) :
    (right + 1) % UART_BUFFER_SIZE = left ↔ enqueued.length - n = UART_BUFFER_SIZE - 1 := by
  have h1 := hr.left
  have h2 := hr.right
  have h3 := hr.le
  have h4 := hr.room
  simp only [UART_BUFFER_SIZE] at *
  omega

/-- At most the byte in hand has been released and not transmitted. -/
theorem released_le (hr : UartRing uart_buf left right pc dma enqueued transmitted n) :
    n ≤ transmitted.length + 1 := by
  have h := hr.phase
  unfold UartPhase at h
  cases pc with
  | take_done left run =>
    obtain ⟨-, -, -, -, ⟨-, h⟩ | ⟨beats, -, -, h⟩⟩ := h
    · omega
    · omega
  | taking_done left run =>
    obtain ⟨-, -, -, -, ⟨-, h⟩ | ⟨beats, -, -, h⟩⟩ := h
    · omega
    · omega
  | _ => dsimp only at h; omega

theorem sent_le (hr : UartRing uart_buf left right pc dma enqueued transmitted n) :
    transmitted.length ≤ enqueued.length := hr.ring.le

/-- Every byte not yet transmitted is in its slot. -/
theorem slot_eq (hr : UartRing uart_buf left right pc dma enqueued transmitted n) {i : Nat}
    (hi : i < enqueued.length) (ht : transmitted.length ≤ i) :
    (uart_buf (uart_slot i)).toUInt8 = enqueued[i] := by
  have h := hr.ring.slots i hi ht
  rwa [uart_slot_mod] at h

/-- The slot a producer writes holds no byte that is still to be transmitted. -/
theorem next_ne_slot (hr : UartRing uart_buf left right pc dma enqueued transmitted n)
    (hnext : (right + 1) % UART_BUFFER_SIZE ≠ left) {i : Nat} (hi : i < enqueued.length)
    (ht : transmitted.length ≤ i) : (right + 1) % UART_BUFFER_SIZE ≠ uart_slot i := by
  have h1 := hr.left
  have h2 := hr.right
  have h3 := hr.released_le
  have h4 := hr.room
  simp only [uart_slot, UART_BUFFER_SIZE] at *
  omega

/-- One byte of a producer. -/
theorem channel_tx (hr : X.Buffer n) (byte : UInt8) : (X.uart_channel_tx byte).Buffer n := by
  unfold UartSystem.uart_channel_tx
  dsimp only
  by_cases hfull : (X.p_uart_buf_right + 1) % UART_BUFFER_SIZE = X.p_uart_buf_left
  · rw [if_pos hfull]; exact hr
  · rw [if_neg hfull]
    have hlt := mt hr.full_iff.mpr hfull
    have hsize : UART_BUFFER_SIZE = 2056 := rfl
    have hroom := hr.room
    have hrel := hr.released_le
    have hle := hr.le
    have hslot : (X.p_uart_buf_right + 1) % UART_BUFFER_SIZE = uart_slot X.enqueued.length := by
      rw [hr.right]; exact uart_slot_mod _
    refine ⟨hr.left, ?_, ?_, ?_, ?_, ?_, hr.phase.append [byte]⟩
    · rw [List.length_append, List.length_singleton]; exact hslot
    · rw [List.length_append]; omega
    · rw [List.length_append, List.length_singleton]; omega
    · refine hr.ring.push (by omega) ?_ (fun k hk hne => ?_)
      · dsimp only
        rw [uart_slot_mod, hslot, update_self, UInt8.toUInt8_toUInt32]
      · dsimp only
        rw [update_of_ne]
        rw [hslot]
        simp only [uart_slot, UART_BUFFER_SIZE] at hk hne ⊢
        omega
    · rw [List.take_append_of_le_length hr.sent_le]; exact hr.in_order

theorem print (str : List UInt8) : ∀ {X : UartSystem}, X.Buffer n →
    (X.uart_channel_print str).Buffer n := by
  induction str with
  | nil => intro X hr; exact hr
  | cons byte str ih => intro X hr; exact ih (hr.channel_tx byte)

/-- The next byte goes out. -/
theorem send {byte : UInt8} {pc' : UartTxPc} {dma' : Option DmaRun}
    (hr : UartRing uart_buf left right pc dma enqueued transmitted n)
    (hb : enqueued[transmitted.length]? = some byte)
    (hp : UartPhase pc' dma' enqueued (transmitted ++ [byte]) n) :
    UartRing uart_buf left right pc' dma' enqueued (transmitted ++ [byte]) n := by
  obtain ⟨hlt, he⟩ := List.getElem?_eq_some_iff.mp hb
  refine ⟨hr.left, hr.right, hr.le, hr.room, ?_, ?_, hp⟩
  · rw [List.length_append, List.length_singleton]; exact hr.ring.pop hlt
  · rw [List.length_append, List.length_singleton, List.take_add_one, ← hr.in_order, hb]; rfl

end UartRing

/-! ## The semaphores -/

namespace UartTxPc

/-- The semaphore of the `semaphore_take` that the task is in. -/
@[simp] def takes (ch : UartChannel) : UartTxPc → Option SemaphoreId
  | .taking_data => some ch.uart_data_ready
  | .taking_done _ _ => some ch.uart_dma_done
  | _ => none

/-- The task is in the loop of the DMA mode. -/
@[simp] def dma_mode : UartTxPc → Bool
  | .dma_start _ => true
  | .take_done _ _ => true
  | .taking_done _ _ => true
  | .dma_advance _ _ => true
  | _ => false

end UartTxPc

/-- The unit of `uart_dma_done` that is given and not taken. -/
@[simp] def done_due : UartTxPc → Option DmaRun → Nat
  | .take_done _ _, none => 1
  | .taking_done _ _, none => 1
  | _, _ => 0

theorem done_due_some (pc : UartTxPc) (d : DmaRun) : done_due pc (some d) = 0 := by
  cases pc <;> rfl

/-- What `uart_channel_task_start` leaves of the semaphores. -/
structure UartChannel.Ready (ch : UartChannel) (max_count initial_count : SemaphoreId → Nat) :
    Prop where
  apart : ch.uart_data_ready ≠ ch.uart_dma_done
  data_max : max_count ch.uart_data_ready = 1
  data : initial_count ch.uart_data_ready = 0
  done_max : ch.is_dma_enabled = true → max_count ch.uart_dma_done = 1
  done : ch.is_dma_enabled = true → initial_count ch.uart_dma_done = 0

def UartChannel.owns (ch : UartChannel) (smph : SemaphoreId) : Prop :=
  smph = ch.uart_data_ready ∨ smph = ch.uart_dma_done

/-- The history of the two semaphores fits the task, with `waiting` bytes in the buffer. -/
structure UartUnits (max_count initial_count : SemaphoreId → Nat) (ch : UartChannel)
    (S : System Links) (pc : UartTxPc) (dma : Option DmaRun) (gives_due waiting : Nat)
    (h : List Event) : Prop where
  run : Run anyStep (boot max_count initial_count) h S
  about : ∀ t smph, ch.owns smph → (S.call t).about = some smph →
    t = ch.uart_tcb ∧ pc.takes ch = some smph
  call : ∀ smph, pc.takes ch = some smph → (S.call ch.uart_tcb).takes_forever smph
  mode : pc.dma_mode = true → ch.is_dma_enabled = true
  wake : 0 < waiting → gives_due = 0 → pc.draining = true ∨
    takes_ok ch.uart_data_ready h < gives_ok ch.uart_data_ready h
  done : ch.is_dma_enabled = true →
    gives_ok ch.uart_dma_done h = takes_ok ch.uart_dma_done h + done_due pc dma

abbrev UartSystem.Units (max_count initial_count : SemaphoreId → Nat) (ch : UartChannel)
    (X : UartSystem) (n : Nat) (h : List Event) : Prop :=
  UartUnits max_count initial_count ch X.system X.pc X.dma X.gives_due (X.enqueued.length - n) h

namespace UartUnits

variable {max_count initial_count : SemaphoreId → Nat} {ch : UartChannel} {S S' : System Links}
  {pc pc' : UartTxPc} {dma dma' : Option DmaRun} {gives_due waiting waiting' : Nat}
  {smph : SemaphoreId} {h es : List Event}

/-- A step of the rest of the program. -/
theorem kernel {a : Action}
    (hu : UartUnits max_count initial_count ch S pc dma gives_due waiting h)
    (ha : a.caller ≠ some ch.uart_tcb) (htouch : ∀ smph, ch.owns smph → S.touches smph a = false)
    (hstep : S.step a = some (es, S')) :
    UartUnits max_count initial_count ch S' pc dma gives_due waiting (h ++ es) := by
  have hcall := step_call hstep ha
  have hdata := (step_about hstep (htouch _ (.inl rfl))).1
  have hdone := (step_about hstep (htouch _ (.inr rfl))).1
  refine ⟨hu.run.step trivial hstep, fun t s hs ht => ?_, fun s hs => ?_, hu.mode,
    fun hw hg => ?_, fun hen => ?_⟩
  · exact hu.about t s hs (((step_about hstep (htouch s hs)).2 t).mp ht)
  · rw [hcall]; exact hu.call s hs
  · rw [takes_ok_other hdata, gives_ok_other hdata]; exact hu.wake hw hg
  · rw [takes_ok_other hdone, gives_ok_other hdone]; exact hu.done hen

/-- A producer has enqueued, and is about to give. -/
theorem produce (hu : UartUnits max_count initial_count ch S pc dma gives_due waiting h) :
    UartUnits max_count initial_count ch S pc dma (gives_due + 1) waiting' h :=
  { hu with wake := fun _ hg => by omega }

/-- A step of the task outside its takes. -/
theorem goto (hu : UartUnits max_count initial_count ch S pc dma gives_due waiting h)
    (ht : pc.takes ch = none) (ht' : pc'.takes ch = none)
    (hd : done_due pc' dma' = done_due pc dma) (hw : pc'.draining = true ∨ waiting' = 0)
    (hm : pc'.dma_mode = true → ch.is_dma_enabled = true) :
    UartUnits max_count initial_count ch S pc' dma' gives_due waiting' h := by
  refine ⟨hu.run, fun t s hs h1 => ?_, fun s h1 => ?_, hm, fun h1 _ => ?_, fun hen => ?_⟩
  · have := (hu.about t s hs h1).2
    rw [ht] at this; cases this
  · rw [ht'] at h1; cases h1
  · rcases hw with hw | hw
    · exact .inl hw
    · omega
  · rw [hd]; exact hu.done hen

/-- No more units are taken than were given. -/
theorem takes_le (hr : Run anyStep (boot max_count initial_count) h S)
    (hz : initial_count smph = 0) : takes_ok smph h ≤ gives_ok smph h := by
  have hle : initial_count smph ≤ max_count smph := by rw [hz]; exact Nat.zero_le _
  obtain ⟨A, -, hi⟩ := hr.takeInv hle
  have := hi.units
  omega

/-- The task begins to take. -/
theorem begin_take (hu : UartUnits max_count initial_count ch S pc dma gives_due waiting h)
    (hstep : S.step (.semaphore_take ch.uart_tcb smph SEMAPHORE_TAKE_BLOCKING) = some (es, S'))
    (ht : pc.takes ch = none) (ht' : pc'.takes ch = some smph)
    (hd : done_due pc' dma = done_due pc dma) (hw : pc'.draining = pc.draining)
    (hm : pc'.dma_mode = pc.dma_mode) :
    UartUnits max_count initial_count ch S' pc' dma gives_due waiting (h ++ es) := by
  have hrun := hu.run.step trivial hstep
  obtain ⟨-, hstep⟩ := Option.ite_none_right_eq_some.mp hstep
  cases hstep
  refine ⟨hrun, fun t s hs' h1 => ?_, fun s h1 => ?_, by rw [hm]; exact hu.mode, fun h1 h2 => ?_,
    fun hen => ?_⟩
  · by_cases hut : t = ch.uart_tcb
    · subst hut
      rw [System.setCall_call, update_self] at h1
      exact ⟨rfl, ht'.trans h1⟩
    · rw [System.setCall_call, update_of_ne hut] at h1
      have := (hu.about t s hs' h1).2
      rw [ht] at this; cases this
  · obtain rfl : smph = s := Option.some.inj (ht'.symm.trans h1)
    rw [System.setCall_call, update_self]
    exact ⟨rfl, by decide⟩
  · rw [hw, takes_ok_concat, gives_ok_concat]
    simpa using hu.wake h1 h2
  · rw [hd, takes_ok_concat, gives_ok_concat]
    simpa using hu.done hen

/-- A section of a take that does not return. -/
theorem go_on (hu : UartUnits max_count initial_count ch S pc dma gives_due waiting h)
    (ht : pc.takes ch = some smph) {k : Call} (hk : k.takes_forever smph)
    (hab : k.about = some smph) (hcall : S'.call = update S.call ch.uart_tcb k)
    (hes : es = [.take_waits ch.uart_tcb smph] ∨ es = [])
    (hrun : Run anyStep (boot max_count initial_count) (h ++ es) S') :
    UartUnits max_count initial_count ch S' pc dma gives_due waiting (h ++ es) := by
  have hsame : ∀ s, takes_ok s (h ++ es) = takes_ok s h ∧ gives_ok s (h ++ es) = gives_ok s h := by
    intro s
    rcases hes with rfl | rfl
    · rw [takes_ok_concat, gives_ok_concat]; simp
    · rw [List.append_nil]; exact ⟨rfl, rfl⟩
  refine ⟨hrun, fun t s hs h1 => ?_, fun s h1 => ?_, hu.mode, fun h1 h2 => ?_, fun hen => ?_⟩
  · by_cases hut : t = ch.uart_tcb
    · subst hut
      rw [hcall, update_self, hab] at h1
      exact ⟨rfl, ht.trans h1⟩
    · rw [hcall, update_of_ne hut] at h1
      exact hu.about t s hs h1
  · obtain rfl : smph = s := Option.some.inj (ht.symm.trans h1)
    rw [hcall, update_self]; exact hk
  · rw [(hsame _).1, (hsame _).2]; exact hu.wake h1 h2
  · rw [(hsame _).1, (hsame _).2]; exact hu.done hen

/-- A take returns: the unit it takes had been given. -/
theorem returns (hu : UartUnits max_count initial_count ch S pc dma gives_due waiting h)
    (hq : ch.Ready max_count initial_count) (ht : pc.takes ch = some smph)
    (ht' : pc'.takes ch = none) (hw : pc'.draining = true)
    (hm : pc'.dma_mode = true → ch.is_dma_enabled = true) (hd' : done_due pc' dma = 0)
    (hcall : S'.call = update S.call ch.uart_tcb .own)
    (hrun : Run anyStep (boot max_count initial_count)
      (h ++ [.take_returns ch.uart_tcb smph E_OK]) S') :
    UartUnits max_count initial_count ch S' pc' dma gives_due waiting
      (h ++ [.take_returns ch.uart_tcb smph E_OK]) ∧
      (smph = ch.uart_dma_done → ch.is_dma_enabled = true → done_due pc dma = 1) := by
  have hg : ∀ s, gives_ok s (h ++ [.take_returns ch.uart_tcb smph E_OK]) = gives_ok s h := by
    intro s; rw [gives_ok_concat]; simp
  have htk : ∀ s, takes_ok s (h ++ [.take_returns ch.uart_tcb smph E_OK]) =
      takes_ok s h + if smph = s then 1 else 0 := by
    intro s; rw [takes_ok_concat]; simp
  have hdue : smph = ch.uart_dma_done → ch.is_dma_enabled = true → done_due pc dma = 1 := by
    intro hsm hen
    have h1 := hu.done hen
    have h2 := takes_le hrun (hq.done hen)
    rw [hg, htk, if_pos hsm] at h2
    have h3 : done_due pc dma ≤ 1 := by
      cases pc <;> cases dma <;> simp
    omega
  refine ⟨⟨hrun, fun t s hs h1 => ?_, fun s h1 => ?_, hm, fun _ _ => .inl hw, fun hen => ?_⟩, hdue⟩
  · exfalso
    by_cases hut : t = ch.uart_tcb
    · subst hut
      rw [hcall, update_self] at h1; cases h1
    · rw [hcall, update_of_ne hut] at h1
      exact hut (hu.about t s hs h1).1
  · rw [ht'] at h1; cases h1
  · rw [hg, htk, hd', hu.done hen]
    by_cases hsm : smph = ch.uart_dma_done
    · rw [if_pos hsm, hdue hsm hen]
    · rw [if_neg hsm]
      cases pc with
      | taking_done left run => exact absurd (Option.some.inj ht).symm hsm
      | taking_data => rfl
      | _ => cases ht

/-- After a give there is a unit, whether the counter had room for it or not. -/
theorem give_leaves_unit (hr : Run anyStep (boot max_count initial_count) h S)
    (hmax : max_count smph = 1) (hz : initial_count smph = 0) :
    takes_ok smph (h ++ (S.give smph).1) < gives_ok smph (h ++ (S.give smph).1) := by
  have hle := takes_le hr hz
  have hmax : initial_count smph ≤ max_count smph := by rw [hz]; exact Nat.zero_le _
  obtain ⟨A, hs, hi⟩ := hr.takeInv hmax
  obtain ⟨w, xs, lists, -, he⟩ | ⟨-, -, he⟩ | ⟨-, hfull, he⟩ := semaphore_give_effect hs.kernel smph
  · obtain ⟨h1, h2⟩ := give_history (S := S) (s := smph) h (by rw [he])
    rw [h1, h2]; omega
  · obtain ⟨h1, h2⟩ := give_history (S := S) (s := smph) h (by rw [he])
    rw [h1, h2]; omega
  · have hunits := hi.units
    have hcount := hi.max_eq
    have hnone : (S.give smph).1 = [.give_returns smph E_RESOURCE_EXHAUSTED] := by
      unfold System.give
      rw [he]; rfl
    rw [hnone, takes_ok_concat, gives_ok_concat]
    simp only [Event.give_returns.injEq, reduceCtorEq, and_false, if_false, Nat.add_zero]
    omega

/-- A producer gives. -/
theorem give_data (hu : UartUnits max_count initial_count ch S pc dma gives_due waiting h)
    (hq : ch.Ready max_count initial_count) :
    UartUnits max_count initial_count ch (S.give ch.uart_data_ready).2 pc dma (gives_due - 1)
      waiting (h ++ (S.give ch.uart_data_ready).1) := by
  have hstep : S.step (.semaphore_give ch.uart_data_ready) = some (S.give ch.uart_data_ready) := rfl
  have hother := give_about S hq.apart
  refine ⟨hu.run.step trivial hstep, hu.about, hu.call, hu.mode,
    fun _ _ => .inr (give_leaves_unit hu.run hq.data_max hq.data), fun hen => ?_⟩
  rw [takes_ok_other hother, gives_ok_other hother]
  exact hu.done hen

/-- The interrupt handler gives: the run it ends is the one that the task waits for. -/
theorem give_done {d : DmaRun}
    (hu : UartUnits max_count initial_count ch S pc (some d) gives_due waiting h)
    (hq : ch.Ready max_count initial_count) (hen : ch.is_dma_enabled = true)
    (hd : done_due pc none = 1) :
    UartUnits max_count initial_count ch (S.give ch.uart_dma_done).2 pc none gives_due waiting
      (h ++ (S.give ch.uart_dma_done).1) := by
  have hstep : S.step (.semaphore_give ch.uart_dma_done) = some (S.give ch.uart_dma_done) := rfl
  have hother := give_about S (Ne.symm hq.apart)
  refine ⟨hu.run.step trivial hstep, hu.about, hu.call, hu.mode, fun hw hg => ?_, fun _ => ?_⟩
  · rw [takes_ok_other hother, gives_ok_other hother]
    exact hu.wake hw hg
  · have hbal := hu.done hen
    rw [done_due_some] at hbal
    have hmax : initial_count ch.uart_dma_done ≤ max_count ch.uart_dma_done := by
      rw [hq.done hen]; exact Nat.zero_le _
    obtain ⟨A, hs, hi⟩ := hu.run.takeInv hmax
    have hunits := hi.units
    have hmax := hi.max_eq
    rw [hq.done hen] at hunits
    rw [hq.done_max hen] at hmax
    have hok : (semaphore_give S.kernel ch.uart_dma_done).1 = E_OK := by
      obtain ⟨w, xs, lists, -, he⟩ | ⟨-, -, he⟩ | ⟨-, hfull, -⟩ :=
        semaphore_give_effect hs.kernel ch.uart_dma_done
      · rw [he]
      · rw [he]
      · omega
    obtain ⟨h1, h2⟩ := give_history h hok
    rw [h1, h2, hd]; omega

end UartUnits

/-! ## One step -/

/-- What the locked section of a producer leaves alone. -/
structure UartSystem.Produces (X Y : UartSystem) : Prop where
  system : Y.system = X.system
  channel : Y.channel = X.channel
  pc : Y.pc = X.pc
  dma : Y.dma = X.dma
  gives_due : Y.gives_due = X.gives_due
  transmitted : Y.transmitted = X.transmitted
  enqueued : X.enqueued <+: Y.enqueued

theorem UartSystem.tx_frame (X : UartSystem) (byte : UInt8) : X.Produces (X.uart_channel_tx byte) := by
  unfold UartSystem.uart_channel_tx
  dsimp only
  by_cases hfull : (X.p_uart_buf_right + 1) % UART_BUFFER_SIZE = X.p_uart_buf_left
  · rw [if_pos hfull]; exact ⟨rfl, rfl, rfl, rfl, rfl, rfl, List.prefix_refl _⟩
  · rw [if_neg hfull]; exact ⟨rfl, rfl, rfl, rfl, rfl, rfl, List.prefix_append _ _⟩

theorem UartSystem.print_frame (str : List UInt8) : ∀ X : UartSystem,
    X.Produces (X.uart_channel_print str) := by
  induction str with
  | nil => intro X; exact ⟨rfl, rfl, rfl, rfl, rfl, rfl, List.prefix_refl _⟩
  | cons byte str ih =>
    intro X
    have h1 := X.tx_frame byte
    have h2 := ih (X.uart_channel_tx byte)
    exact ⟨h2.system.trans h1.system, h2.channel.trans h1.channel, h2.pc.trans h1.pc,
      h2.dma.trans h1.dma, h2.gives_due.trans h1.gives_due, h2.transmitted.trans h1.transmitted,
      h1.enqueued.trans h2.enqueued⟩

theorem UartSystem.Produces.units {max_count initial_count : SemaphoreId → Nat} {ch : UartChannel}
    {X Y : UartSystem} {h : List Event} {n : Nat} (hp : X.Produces Y)
    (hu : X.Units max_count initial_count ch n h) :
    UartUnits max_count initial_count ch Y.system Y.pc Y.dma (X.gives_due + 1)
      (Y.enqueued.length - n) h := by
  rw [hp.system, hp.pc, hp.dma]
  exact hu.produce

/-- The buffer and the semaphores of a state with history `h` and `n` bytes released. -/
structure UartInv (max_count initial_count : SemaphoreId → Nat) (ch : UartChannel) (X : UartSystem)
    (h : List Event) (n : Nat) : Prop where
  channel : X.channel = ch
  buffer : X.Buffer n
  units : X.Units max_count initial_count ch n h

/-- While a run is in flight the task waits for it. -/
theorem UartPhase.in_flight {pc : UartTxPc} {d : DmaRun} {enqueued transmitted : List UInt8}
    {n : Nat} (h : UartPhase pc (some d) enqueued transmitted n) :
    ∃ left run beats, (pc = .take_done left run ∨ pc = .taking_done left run) ∧
      left = n % UART_BUFFER_SIZE ∧ 1 ≤ run ∧ uart_slot n + run ≤ UART_BUFFER_SIZE ∧
      n + run ≤ enqueued.length ∧ beats ≤ run ∧ d = ⟨uart_slot n, run, beats⟩ ∧
      transmitted.length = n + beats := by
  unfold UartPhase at h
  cases pc with
  | take_done left run =>
    obtain ⟨h1, h2, h3, h4, ⟨h5, -⟩ | ⟨beats, h5, h6, h7⟩⟩ := h
    · cases h5
    · exact ⟨left, run, beats, .inl rfl, h1, h2, h3, h4, h5, Option.some.inj h6, h7⟩
  | taking_done left run =>
    obtain ⟨h1, h2, h3, h4, ⟨h5, -⟩ | ⟨beats, h5, h6, h7⟩⟩ := h
    · cases h5
    · exact ⟨left, run, beats, .inr rfl, h1, h2, h3, h4, h5, Option.some.inj h6, h7⟩
  | _ => exact absurd h.1 (by simp)

/-- The run that the task is about to start: not empty, stored, and inside `uart_buf`. -/
theorem UartRing.run_length {X : UartSystem} {n : Nat} (hr : X.Buffer n)
    (hlt : n < X.enqueued.length) : 1 ≤ X.run_length (n % UART_BUFFER_SIZE) ∧
      uart_slot n + X.run_length (n % UART_BUFFER_SIZE) ≤ UART_BUFFER_SIZE ∧
      n + X.run_length (n % UART_BUFFER_SIZE) ≤ X.enqueued.length := by
  have hstored := hr.stored_eq
  rw [hr.left] at hstored
  have hslot : uart_slot n < UART_BUFFER_SIZE := Nat.mod_lt _ (by decide)
  have hstart : (n % UART_BUFFER_SIZE + 1) % UART_BUFFER_SIZE = uart_slot n := uart_slot_mod n
  unfold UartSystem.run_length
  dsimp only
  rw [hstored, hstart]
  by_cases hwrap : UART_BUFFER_SIZE < uart_slot n + (X.enqueued.length - n)
  · rw [if_pos hwrap]; omega
  · rw [if_neg hwrap]; omega

namespace UartInv

variable {max_count initial_count : SemaphoreId → Nat} {ch : UartChannel} {X Y : UartSystem}
  {h : List Event} {n : Nat}

/-- The task outside its takes. -/
theorem goto {n' : Nat} (hi : UartInv max_count initial_count ch X h n)
    (hsys : Y.system = X.system) (hch : Y.channel = X.channel) (hdue : Y.gives_due = X.gives_due)
    (hb : Y.Buffer n') (ht : X.pc.takes ch = none) (ht' : Y.pc.takes ch = none)
    (hd : done_due Y.pc Y.dma = done_due X.pc X.dma)
    (hw : Y.pc.draining = true ∨ Y.enqueued.length - n' = 0)
    (hm : Y.pc.dma_mode = true → ch.is_dma_enabled = true) :
    UartInv max_count initial_count ch Y h n' := by
  refine ⟨hch.trans hi.channel, hb, ?_⟩
  have := hi.units.goto ht ht' hd hw hm
  unfold UartSystem.Units
  rw [hsys, hdue]
  exact this

/-- The task begins to take. -/
theorem take {smph : SemaphoreId} {pc' : UartTxPc} (hi : UartInv max_count initial_count ch X h n)
    (hstep : X.take smph pc' = some Y) (ht : X.pc.takes ch = none)
    (ht' : pc'.takes ch = some smph) (hd : done_due pc' X.dma = done_due X.pc X.dma)
    (hw : pc'.draining = X.pc.draining) (hm : pc'.dma_mode = X.pc.dma_mode)
    (hp : UartPhase pc' X.dma X.enqueued X.transmitted n) :
    ∃ h, UartInv max_count initial_count ch Y h n := by
  obtain rfl := hi.channel
  unfold UartSystem.take at hstep
  cases hs : X.system.step (.semaphore_take X.channel.uart_tcb smph SEMAPHORE_TAKE_BLOCKING) with
  | none => rw [hs] at hstep; cases hstep
  | some r =>
    rw [hs] at hstep
    cases hstep
    exact ⟨h ++ r.1, hi.channel, { hi.buffer with phase := hp },
      hi.units.begin_take hs ht ht' hd hw hm⟩

/-- A section of a take: the task is where it was, or past it. -/
theorem taking {smph : SemaphoreId} {pc' : UartTxPc}
    (hi : UartInv max_count initial_count ch X h n) (hq : ch.Ready max_count initial_count)
    (hrun : X.system.kernel.runs ch.uart_tcb = true) (hstep : X.taking pc' = some Y)
    (ht : X.pc.takes ch = some smph) (ht' : pc'.takes ch = none) (hw : pc'.draining = true)
    (hm : pc'.dma_mode = true → ch.is_dma_enabled = true) (hd' : done_due pc' X.dma = 0)
    (hp : (smph = ch.uart_dma_done → ch.is_dma_enabled = true → done_due X.pc X.dma = 1) →
      UartPhase pc' X.dma X.enqueued X.transmitted n) :
    ∃ h, UartInv max_count initial_count ch Y h n := by
  obtain rfl := hi.channel
  unfold UartSystem.taking at hstep
  cases hs : X.system.proceed X.channel.uart_tcb with
  | none => rw [hs] at hstep; cases hstep
  | some r =>
    obtain ⟨es, S⟩ := r
    rw [hs] at hstep
    have hS : X.system.step (.proceed X.channel.uart_tcb) = some (es, S) := by
      show (if X.system.kernel.runs X.channel.uart_tcb = true then
        X.system.proceed X.channel.uart_tcb else none) = _
      rw [if_pos hrun, hs]
    have hrun' := hi.units.run.step trivial hS
    obtain ⟨rfl, hcall⟩ | ⟨hes, k, hk, hab, hcall⟩ := proceed_forever hs (hi.units.call smph ht)
    · cases hstep
      obtain ⟨hu, hdue⟩ := hi.units.returns hq ht ht' hw hm hd' hcall hrun'
      exact ⟨_, hi.channel, { hi.buffer with phase := hp hdue }, hu⟩
    · have hY : Y = { X with system := S } := by
        rcases hes with rfl | rfl <;> cases hstep <;> rfl
      subst hY
      exact ⟨_, hi.channel, hi.buffer, hi.units.go_on ht hk hab hcall hes hrun'⟩

/-- A step of `uart_tx_task`. -/
theorem tx_task (hi : UartInv max_count initial_count ch X h n)
    (hq : ch.Ready max_count initial_count) (hrun : X.system.kernel.runs ch.uart_tcb = true)
    (hstep : X.uart_tx_task = some Y) : ∃ h n, UartInv max_count initial_count ch Y h n := by
  obtain rfl := hi.channel
  have hb := hi.buffer
  have hp := hb.phase
  have hmode := hi.units.mode
  unfold UartSystem.uart_tx_task at hstep
  cases hpc : X.pc with
  | take_data =>
    rw [hpc] at hstep hp
    obtain ⟨h', hi'⟩ := hi.take hstep (by rw [hpc]; rfl) rfl (by rw [hpc]; rfl) (by rw [hpc]; rfl)
      (by rw [hpc]; rfl) hp
    exact ⟨h', n, hi'⟩
  | taking_data =>
    rw [hpc] at hstep hp
    obtain ⟨h', hi'⟩ := hi.taking hq hrun hstep (by rw [hpc]; rfl) rfl rfl (by simp) rfl
      (fun _ => hp)
    exact ⟨h', n, hi'⟩
  | loop =>
    rw [hpc] at hstep hp
    by_cases hne : X.p_uart_buf_right ≠ X.p_uart_buf_left
    · have hlt : n < X.enqueued.length :=
        Nat.lt_of_le_of_ne hb.le (fun e => hne (hb.empty_iff.mpr e.symm))
      dsimp only at hstep
      rw [if_pos hne] at hstep
      by_cases hen : X.channel.is_dma_enabled = true
      · rw [if_pos hen] at hstep
        cases hstep
        refine ⟨h, n, hi.goto rfl rfl rfl { hb with phase := ⟨hp.1, hp.2, hlt, hb.left⟩ }
          (by rw [hpc]; rfl) rfl (by rw [hpc]; rfl) (.inl rfl) (fun _ => hen)⟩
      · rw [if_neg hen] at hstep
        cases hstep
        refine ⟨h, n, hi.goto rfl rfl rfl { hb with phase := ⟨hp.1, hp.2, hlt⟩ }
          (by rw [hpc]; rfl) rfl (by rw [hpc]; rfl) (.inl rfl) (by simp)⟩
    · dsimp only at hstep
      rw [if_neg hne] at hstep
      cases hstep
      have hz := hb.empty_iff.mp (not_not.mp hne)
      exact ⟨h, n, hi.goto rfl rfl rfl { hb with phase := hp } (by rw [hpc]; rfl) rfl
        (by rw [hpc]; rfl) (.inr (by dsimp only; omega)) (by simp)⟩
  | dma_start left =>
    rw [hpc] at hstep hp hmode
    cases hstep
    obtain ⟨hdma, hT, hlt, rfl⟩ := hp
    obtain ⟨h1, h2, h3⟩ := hb.run_length hlt
    refine ⟨h, n, hi.goto rfl rfl rfl ⟨hb.left, hb.right, hb.le, hb.room, hb.ring, hb.in_order,
      ?_⟩ (by rw [hpc]; rfl) rfl (by rw [hpc]; rfl) (.inl rfl) hmode⟩
    refine ⟨rfl, h1, h2, h3, .inr ⟨0, Nat.zero_le _, ?_, hT⟩⟩
    dsimp only [UartSystem.uart_dma_tx_run]
    rw [← uart_slot_mod n]; rfl
  | take_done left run =>
    rw [hpc] at hstep hp
    obtain ⟨h', hi'⟩ := hi.take hstep (by rw [hpc]; rfl) rfl
      (by rw [hpc]; cases X.dma <;> rfl) (by rw [hpc]; rfl) (by rw [hpc]; rfl) hp
    exact ⟨h', n, hi'⟩
  | taking_done left run =>
    rw [hpc] at hstep hp hmode
    -- the unit of this take is the one its own run gave: the run is complete
    have hnext : (X.channel.uart_dma_done = X.channel.uart_dma_done →
        X.channel.is_dma_enabled = true → done_due X.pc X.dma = 1) →
        UartPhase (.dma_advance left run) X.dma X.enqueued X.transmitted n := by
      intro hdue
      have h1 := hdue rfl (hmode rfl)
      rw [hpc] at h1
      obtain ⟨hl, -, -, hle, ⟨hdma, hT⟩ | ⟨beats, -, hdma, -⟩⟩ := hp
      · exact ⟨hdma, hl, hle, hT⟩
      · rw [hdma] at h1; cases h1
    obtain ⟨h', hi'⟩ := hi.taking hq hrun hstep (by rw [hpc]; rfl) rfl rfl hmode
      (by cases X.dma <;> rfl) hnext
    exact ⟨h', n, hi'⟩
  | dma_advance left run =>
    rw [hpc] at hstep hp
    cases hstep
    obtain ⟨hdma, rfl, hle, hT⟩ := hp
    have hroom := hb.room
    refine ⟨h, n + run, hi.goto rfl rfl rfl ⟨?_, hb.right, hle, by dsimp only; omega, hb.ring, hb.in_order,
      ⟨hdma, hT⟩⟩ (by rw [hpc]; rfl) rfl (by rw [hpc]; rfl) (.inl rfl) (by simp)⟩
    exact Nat.mod_add_mod _ _ _
  | pio_advance =>
    rw [hpc] at hstep hp
    cases hstep
    obtain ⟨hdma, hT, hlt⟩ := hp
    have hroom := hb.room
    refine ⟨h, n + 1, hi.goto rfl rfl rfl ⟨?_, hb.right, hlt, by dsimp only; omega, hb.ring, hb.in_order,
      ⟨hdma, by dsimp only; omega⟩⟩ (by rw [hpc]; rfl) rfl (by rw [hpc]; rfl) (.inl rfl) (by simp)⟩
    dsimp only
    rw [hb.left, Nat.mod_add_mod]
  | pio_load =>
    rw [hpc] at hstep hp
    cases hstep
    obtain ⟨hdma, hT⟩ := hp
    have hle := hb.le
    have hlt : X.transmitted.length < X.enqueued.length := by omega
    refine ⟨h, n, hi.goto rfl rfl rfl { hb with phase := ⟨hdma, hT, ?_⟩ } (by rw [hpc]; rfl) rfl
      (by rw [hpc]; rfl) (.inl rfl) (by simp)⟩
    have hslot : X.p_uart_buf_left = uart_slot X.transmitted.length := by
      rw [hb.left, ← hT]; rfl
    rw [List.getElem?_eq_getElem hlt, ← hb.slot_eq hlt (Nat.le_refl _), hslot]
  | pio_write byte =>
    rw [hpc] at hstep hp
    cases hstep
    obtain ⟨hdma, hT, hbyte⟩ := hp
    refine ⟨h, n, hi.goto rfl rfl rfl (hb.send hbyte ⟨hdma, ?_⟩) (by rw [hpc]; rfl) rfl
      (by rw [hpc]; rfl) (.inl rfl) (by simp)⟩
    rw [List.length_append, List.length_singleton]; exact hT

/-- A beat of the DMA engine. -/
theorem beat (hi : UartInv max_count initial_count ch X h n) (hstep : X.dma_beat = some Y) :
    UartInv max_count initial_count ch Y h n := by
  have hb := hi.buffer
  unfold UartSystem.dma_beat at hstep
  cases hdma : X.dma with
  | none => rw [hdma] at hstep; cases hstep
  | some d =>
    rw [hdma] at hstep
    obtain ⟨hlt, hstep⟩ := Option.ite_none_right_eq_some.mp hstep
    cases hstep
    have hp := hb.phase
    rw [hdma] at hp
    obtain ⟨left, run, beats, hpc, hl, hrun, hin, hle, hbeats, rfl, hT⟩ := hp.in_flight
    dsimp only at hlt
    have hslot : uart_slot n + beats = uart_slot X.transmitted.length := by
      rw [hT]
      simp only [uart_slot, UART_BUFFER_SIZE] at hin ⊢
      omega
    have hlt' : X.transmitted.length < X.enqueued.length := by omega
    have hphase : UartPhase X.pc (some ⟨uart_slot n, run, beats + 1⟩) X.enqueued
        (X.transmitted ++ [(X.uart_buf (uart_slot n + beats)).toUInt8]) n := by
      have hlen : (X.transmitted ++ [(X.uart_buf (uart_slot n + beats)).toUInt8]).length =
          n + (beats + 1) := by
        rw [List.length_append, List.length_singleton, hT]; rfl
      rcases hpc with hpc | hpc
      · rw [hpc]; exact ⟨hl, hrun, hin, hle, .inr ⟨beats + 1, hlt, rfl, hlen⟩⟩
      · rw [hpc]; exact ⟨hl, hrun, hin, hle, .inr ⟨beats + 1, hlt, rfl, hlen⟩⟩
    refine ⟨hi.channel, hb.send ?_ hphase, ?_⟩
    · rw [List.getElem?_eq_getElem hlt', hslot, hb.slot_eq hlt' (Nat.le_refl _)]
    · have hu := hi.units
      refine ⟨hu.run, hu.about, hu.call, hu.mode, hu.wake, fun hen => ?_⟩
      have := hu.done hen
      rw [hdma, done_due_some] at this
      rw [done_due_some]
      exact this

/-- The interrupt of a complete run. -/
theorem irq (hi : UartInv max_count initial_count ch X h n)
    (hq : ch.Ready max_count initial_count) (hstep : X.uart_dma_irq_handler = some Y) :
    ∃ h, UartInv max_count initial_count ch Y h n := by
  obtain rfl := hi.channel
  have hb := hi.buffer
  have hu := hi.units
  unfold UartSystem.uart_dma_irq_handler at hstep
  cases hdma : X.dma with
  | none => rw [hdma] at hstep; cases hstep
  | some d =>
    rw [hdma] at hstep
    obtain ⟨hlt, hstep⟩ := Option.ite_none_left_eq_some.mp hstep
    cases hstep
    have hp := hb.phase
    rw [hdma] at hp
    obtain ⟨left, run, beats, hpc, hl, hrun, hin, hle, hbeats, rfl, hT⟩ := hp.in_flight
    dsimp only at hlt
    have hdone : X.transmitted.length = n + run := by omega
    unfold UartSystem.Units at hu
    rw [hdma] at hu
    -- the writer stands in either of two places, and both see the same of it
    rcases hpc with hpc | hpc
    all_goals
      rw [hpc] at hu
      refine ⟨h ++ (X.system.give X.channel.uart_dma_done).1, rfl, { hb with phase := ?_ }, ?_⟩
      · dsimp only; rw [hpc]; exact ⟨hl, hrun, hin, hle, .inl ⟨rfl, hdone⟩⟩
      · unfold UartSystem.Units
        dsimp only
        rw [hpc]
        exact hu.give_done hq (hu.mode rfl) rfl

/-- Each step keeps the invariant. -/
theorem step {a : UartAction} (hi : UartInv max_count initial_count ch X h n)
    (hq : ch.Ready max_count initial_count) (hstep : X.step a = some Y) :
    ∃ h n, UartInv max_count initial_count ch Y h n := by
  unfold UartSystem.step at hstep
  cases a with
  | kernel a =>
    obtain ⟨⟨ha, hdata, hdone⟩, hstep⟩ := Option.ite_none_right_eq_some.mp hstep
    rw [hi.channel] at ha hdata hdone
    cases hs : X.system.step a with
    | none => rw [hs] at hstep; cases hstep
    | some r =>
      rw [hs] at hstep
      cases hstep
      have htouch : ∀ s, ch.owns s → X.system.touches s a = false := by
        rintro s (rfl | rfl)
        · exact hdata
        · exact hdone
      exact ⟨_, n, hi.channel, hi.buffer, hi.units.kernel ha htouch hs⟩
  | uart_channel_send_byte byte =>
    cases hstep
    refine ⟨h, n, ?_, hi.buffer.channel_tx byte, ?_⟩
    · exact (UartSystem.print_frame [byte] X).channel.trans hi.channel
    · exact (UartSystem.print_frame [byte] X).units hi.units
  | uart_channel_print str =>
    cases hstep
    refine ⟨h, n, ?_, UartRing.print str hi.buffer, ?_⟩
    · exact (UartSystem.print_frame str X).channel.trans hi.channel
    · exact (UartSystem.print_frame str X).units hi.units
  | semaphore_give =>
    obtain ⟨-, hstep⟩ := Option.ite_none_right_eq_some.mp hstep
    cases hstep
    obtain rfl := hi.channel
    exact ⟨h ++ (X.system.give X.channel.uart_data_ready).1, n, rfl, hi.buffer,
      hi.units.give_data hq⟩
  | uart_tx_task =>
    obtain ⟨hrun, hstep⟩ := Option.ite_none_right_eq_some.mp hstep
    rw [hi.channel] at hrun
    exact hi.tx_task hq hrun hstep
  | dma_beat => exact ⟨h, n, hi.beat hstep⟩
  | uart_dma_irq_handler =>
    obtain ⟨h', hi'⟩ := hi.irq hq hstep
    exact ⟨h', n, hi'⟩

/-- At the start nothing is stored and nothing is due. -/
theorem boot (hq : ch.Ready max_count initial_count) {K : Kernel Links} (hmax : K.max_count = max_count)
    (hcount : K.count = initial_count) :
    UartInv max_count initial_count ch (UartSystem.boot K ch) [] 0 := by
  subst hmax hcount
  refine ⟨rfl, ⟨rfl, rfl, Nat.le_refl _, show 0 < 0 + UART_BUFFER_SIZE by decide, Ring.empty _, rfl,
      ⟨rfl, rfl⟩⟩,
    ⟨.start, fun t s _ ht => ?_, fun s hs => ?_, fun hm => ?_, fun hw => ?_, fun hen => rfl⟩⟩
  · cases ht
  · cases hs
  · cases hm
  · cases hw

end UartInv

/-! ## Stores to the buffer -/

section Stores

variable {X Y : UartSystem} {n i : Nat}

theorem UartRing.tx_keeps (hr : X.Buffer n) (byte : UInt8) (hi : i < X.enqueued.length)
    (ht : X.transmitted.length ≤ i) :
    (X.uart_channel_tx byte).uart_buf (uart_slot i) = X.uart_buf (uart_slot i) := by
  unfold UartSystem.uart_channel_tx
  dsimp only
  by_cases hfull : (X.p_uart_buf_right + 1) % UART_BUFFER_SIZE = X.p_uart_buf_left
  · rw [if_pos hfull]
  · rw [if_neg hfull]
    exact update_of_ne (Ne.symm (hr.next_ne_slot hfull hi ht)) _ _

theorem UartRing.print_keeps (str : List UInt8) : ∀ {X : UartSystem}, X.Buffer n →
    i < X.enqueued.length → X.transmitted.length ≤ i →
    (X.uart_channel_print str).uart_buf (uart_slot i) = X.uart_buf (uart_slot i) := by
  induction str with
  | nil => intro X _ _ _; rfl
  | cons byte str ih =>
    intro X hr hi ht
    have hf := X.tx_frame byte
    have hlen := hf.enqueued.length_le
    refine Eq.trans (ih (hr.channel_tx byte) (by omega) ?_) (hr.tx_keeps byte hi ht)
    rw [hf.transmitted]; exact ht

theorem UartSystem.take_buf {smph : SemaphoreId} {pc : UartTxPc} (hstep : X.take smph pc = some Y) :
    Y.uart_buf = X.uart_buf := by
  unfold UartSystem.take at hstep
  cases hs : X.system.step (.semaphore_take X.channel.uart_tcb smph SEMAPHORE_TAKE_BLOCKING) with
  | none => rw [hs] at hstep; cases hstep
  | some r => rw [hs] at hstep; cases hstep; rfl

theorem UartSystem.taking_buf {pc : UartTxPc} (hstep : X.taking pc = some Y) :
    Y.uart_buf = X.uart_buf := by
  unfold UartSystem.taking at hstep
  split at hstep
  · cases hstep; rfl
  · cases hstep; rfl
  · cases hstep

theorem UartSystem.tx_task_buf (hstep : X.uart_tx_task = some Y) : Y.uart_buf = X.uart_buf := by
  unfold UartSystem.uart_tx_task at hstep
  cases hpc : X.pc with
  | take_data => rw [hpc] at hstep; exact UartSystem.take_buf hstep
  | taking_data => rw [hpc] at hstep; exact UartSystem.taking_buf hstep
  | take_done left run => rw [hpc] at hstep; exact UartSystem.take_buf hstep
  | taking_done left run => rw [hpc] at hstep; exact UartSystem.taking_buf hstep
  | loop =>
    rw [hpc] at hstep
    dsimp only at hstep
    split at hstep
    · split at hstep
      · cases hstep; rfl
      · cases hstep; rfl
    · cases hstep; rfl
  | _ => rw [hpc] at hstep; cases hstep; rfl

/-- Only a producer stores to `uart_buf`. -/
theorem UartSystem.step_buf {a : UartAction} (hstep : X.step a = some Y) :
    Y.uart_buf = X.uart_buf ∨
      ∃ str, Y.uart_buf = (X.uart_channel_print str).uart_buf ∧ Y.transmitted = X.transmitted := by
  unfold UartSystem.step at hstep
  cases a with
  | kernel a =>
    obtain ⟨-, hstep⟩ := Option.ite_none_right_eq_some.mp hstep
    cases hs : X.system.step a with
    | none => rw [hs] at hstep; cases hstep
    | some r => rw [hs] at hstep; cases hstep; exact .inl rfl
  | uart_channel_send_byte byte =>
    cases hstep
    exact .inr ⟨[byte], rfl, (X.tx_frame byte).transmitted⟩
  | uart_channel_print str =>
    cases hstep
    exact .inr ⟨str, rfl, (UartSystem.print_frame str X).transmitted⟩
  | semaphore_give =>
    obtain ⟨-, hstep⟩ := Option.ite_none_right_eq_some.mp hstep
    cases hstep
    exact .inl rfl
  | uart_tx_task =>
    obtain ⟨-, hstep⟩ := Option.ite_none_right_eq_some.mp hstep
    exact .inl (UartSystem.tx_task_buf hstep)
  | dma_beat =>
    have hstep : X.dma_beat = some Y := hstep
    unfold UartSystem.dma_beat at hstep
    cases hd : X.dma with
    | none => rw [hd] at hstep; cases hstep
    | some d =>
      rw [hd] at hstep
      obtain ⟨-, hstep⟩ := Option.ite_none_right_eq_some.mp hstep
      cases hstep
      exact .inl rfl
  | uart_dma_irq_handler =>
    have hstep : X.uart_dma_irq_handler = some Y := hstep
    unfold UartSystem.uart_dma_irq_handler at hstep
    cases hd : X.dma with
    | none => rw [hd] at hstep; cases hstep
    | some d =>
      rw [hd] at hstep
      obtain ⟨-, hstep⟩ := Option.ite_none_left_eq_some.mp hstep
      cases hstep
      exact .inl rfl

end Stores

/-! ## Runs -/

/-- What the buffered channel promises in a state. -/
structure UartSafe (X : UartSystem) : Prop where
  /-- The bytes transmitted are the first of the bytes enqueued, in order. -/
  in_order : X.transmitted <+: X.enqueued
  /-- Every other byte enqueued is in its slot. -/
  kept : ∀ i (h : i < X.enqueued.length), X.transmitted.length ≤ i →
    (X.uart_buf (uart_slot i)).toUInt8 = X.enqueued[i]
  /-- No step overwrites the slot of a byte that is still to be transmitted after it. -/
  not_overwritten : ∀ a Y, X.step a = some Y → ∀ i, i < X.enqueued.length →
    Y.transmitted.length ≤ i → Y.uart_buf (uart_slot i) = X.uart_buf (uart_slot i)
  /-- A byte of a string is dropped only when the buffer is full. -/
  dropped : ∀ str byte,
    ((X.uart_channel_print str).uart_channel_tx byte).enqueued =
      (X.uart_channel_print str).enqueued →
    (X.uart_channel_print str).stored = UART_BUFFER_SIZE - 1
  /-- Outside the drain loop, what is stored is all that has not been transmitted. -/
  settled : X.pc.draining = false →
    X.enqueued.length = X.transmitted.length + X.stored
  dma_run : ∀ d, X.dma = some d → 1 ≤ d.len ∧ d.start + d.len ≤ UART_BUFFER_SIZE
  /-- With bytes stored, the task drains or has a unit of `uart_data_ready` to take. -/
  woken : 0 < X.stored → X.gives_due = 0 → X.pc.draining = true ∨
    0 < X.system.kernel.count X.channel.uart_data_ready ∨
    (X.system.taking X.channel.uart_data_ready X.channel.uart_tcb).isHanded = true

/-- A unit given and not taken is in the counter, or handed to the task. -/
theorem UartUnits.available {max_count initial_count : SemaphoreId → Nat} {ch : UartChannel}
    {S : System Links} {pc : UartTxPc} {dma : Option DmaRun} {gives_due waiting : Nat}
    {h : List Event} (hu : UartUnits max_count initial_count ch S pc dma gives_due waiting h)
    (hq : ch.Ready max_count initial_count)
    (hlt : takes_ok ch.uart_data_ready h < gives_ok ch.uart_data_ready h) :
    0 < S.kernel.count ch.uart_data_ready ∨
      (S.taking ch.uart_data_ready ch.uart_tcb).isHanded = true := by
  have hmax : initial_count ch.uart_data_ready ≤ max_count ch.uart_data_ready := by
    rw [hq.data]; exact Nat.zero_le _
  obtain ⟨A, -, hi⟩ := hu.run.takeInv hmax
  have hunits := hi.units
  rw [hq.data] at hunits
  by_cases hc : 0 < S.kernel.count ch.uart_data_ready
  · exact .inl hc
  · right
    have hpos : 0 < handed_units ch.uart_data_ready h := by omega
    unfold handed_units count_tasks at hpos
    obtain ⟨t, ht⟩ := Finset.card_pos.mp hpos
    have ht : (takeStatus ch.uart_data_ready t h).isHanded = true := (Finset.mem_filter.mp ht).2
    rw [hi.status] at ht
    have habout : (S.call t).about = some ch.uart_data_ready := by
      by_contra hne
      rw [taking_out hne] at ht
      cases ht
    obtain ⟨rfl, -⟩ := hu.about t _ (.inl rfl) habout
    exact ht

theorem UartInv.safe {max_count initial_count : SemaphoreId → Nat} {ch : UartChannel}
    {X : UartSystem} {h : List Event} {n : Nat} (hi : UartInv max_count initial_count ch X h n)
    (hq : ch.Ready max_count initial_count) : UartSafe X := by
  obtain rfl := hi.channel
  have hb := hi.buffer
  have hstored : X.stored = X.enqueued.length - n := hb.stored_eq
  refine ⟨?_, fun i hlt ht => hb.slot_eq hlt ht, fun a Y hstep i hlt ht => ?_,
    fun str byte hdrop => ?_, fun hpc => ?_, fun d hd => ?_, fun hs hg => ?_⟩
  · rw [hb.in_order]; exact List.take_prefix _ _
  · rcases UartSystem.step_buf hstep with hbuf | ⟨str, hbuf, hT⟩
    · rw [hbuf]
    · rw [hbuf]
      rw [hT] at ht
      exact UartRing.print_keeps str hb hlt ht
  · have hp := UartRing.print str hb
    have hfull : ((X.uart_channel_print str).p_uart_buf_right + 1) % UART_BUFFER_SIZE =
        (X.uart_channel_print str).p_uart_buf_left := by
      by_contra hne
      unfold UartSystem.uart_channel_tx at hdrop
      dsimp only at hdrop
      rw [if_neg hne] at hdrop
      have := congrArg List.length hdrop
      simp at this
    exact hp.stored_eq.trans (hp.full_iff.mp hfull)
  · have hT : X.transmitted.length = n := by
      have hp := hb.phase
      cases hk : X.pc with
      | take_data => rw [hk] at hp; exact hp.2
      | taking_data => rw [hk] at hp; exact hp.2
      | _ => rw [hk] at hpc; cases hpc
    have hle := hb.le
    omega
  · have hp := hb.phase
    rw [hd] at hp
    obtain ⟨left, run, beats, -, -, hrun, hin, -, -, rfl, -⟩ := hp.in_flight
    exact ⟨hrun, hin⟩
  · rcases hi.units.wake (by omega) hg with hdr | hlt
    · exact .inl hdr
    · exact .inr (hi.units.available hq hlt)

theorem uart_semaphores_ready (K : Kernel Links) {ch : UartChannel}
    (hne : ch.uart_data_ready ≠ ch.uart_dma_done) :
    ch.Ready (uart_semaphores_init K ch).max_count (uart_semaphores_init K ch).count := by
  unfold uart_semaphores_init
  dsimp only
  by_cases hen : ch.is_dma_enabled = true
  · rw [if_pos hen]
    refine ⟨hne, ?_, ?_, fun _ => ?_, fun _ => ?_⟩ <;> simp [semaphore_init, hne]
  · rw [if_neg hen]
    exact ⟨hne, by simp [semaphore_init], by simp [semaphore_init], fun h => absurd h hen,
      fun h => absurd h hen⟩

/-- In every run of the buffered channel, in either mode, the bytes transmitted are the bytes
enqueued, in order, and the task never sleeps on a byte. -/
theorem uart_byte_stream {K : Kernel Links} {ch : UartChannel} {X : UartSystem}
    (hne : ch.uart_data_ready ≠ ch.uart_dma_done)
    (hr : Reach UartSystem.step anything (UartSystem.boot (uart_semaphores_init K ch) ch) X) :
    UartSafe X := by
  have hq := uart_semaphores_ready K hne
  have hi : ∃ h n, UartInv (uart_semaphores_init K ch).max_count
      (uart_semaphores_init K ch).count ch X h n := by
    refine hr.invariant (P := fun X => ∃ h n, UartInv (uart_semaphores_init K ch).max_count
      (uart_semaphores_init K ch).count ch X h n) ⟨[], 0, UartInv.boot hq rfl rfl⟩ ?_
    rintro X Y a ⟨h, n, hi⟩ - hstep
    exact hi.step hq hstep
  obtain ⟨h, n, hi⟩ := hi
  exact hi.safe hq

/-- The task waits for data, and a producer prints two bytes. -/
def wait_and_print : List UartAction :=
  [.kernel (.scheduler_init 0), .kernel (.task_create 0 100 2), .kernel (.scheduler_start 0),
   .uart_tx_task, .uart_tx_task, .uart_channel_print [72, 105], .semaphore_give]

/-- The bytes go out in one run of the engine; the task waits for its end. -/
def print_by_dma : List UartAction :=
  wait_and_print ++ List.replicate 5 .uart_tx_task ++
    [.dma_beat, .dma_beat, .uart_dma_irq_handler, .uart_tx_task, .uart_tx_task, .uart_tx_task]

/-- The task writes them one by one. -/
def print_by_pio : List UartAction := wait_and_print ++ List.replicate 10 .uart_tx_task

/-- A channel of core 0, before `uart_channel_task_start`. -/
def print_channel (is_dma_enabled : Bool) : UartChannel := ⟨is_dma_enabled, .pool 0 0, 0, 1⟩

def print_boot (is_dma_enabled : Bool) : UartSystem :=
  let ch := print_channel is_dma_enabled
  UartSystem.boot (uart_semaphores_init (Kernel.boot Heap.empty (fun _ => 0) (fun _ => 0)) ch) ch

theorem uart_byte_stream_print :
    (∃ X, execute UartSystem.step anything (print_boot true) print_by_dma = some X ∧
      X.transmitted = [72, 105] ∧ UartSafe X) ∧
    ∃ X, execute UartSystem.step anything (print_boot false) print_by_pio = some X ∧
      X.transmitted = [72, 105] ∧ UartSafe X := by
  have hne : ∀ dma, (print_channel dma).uart_data_ready ≠ (print_channel dma).uart_dma_done := by
    decide
  have hdma : (execute UartSystem.step anything (print_boot true) print_by_dma).map
      (fun X => X.transmitted) = some [72, 105] := by
    decide +kernel
  have hpio : (execute UartSystem.step anything (print_boot false) print_by_pio).map
      (fun X => X.transmitted) = some [72, 105] := by
    decide +kernel
  obtain ⟨X, hX, htx⟩ := Option.map_eq_some_iff.mp hdma
  obtain ⟨Y, hY, hty⟩ := Option.map_eq_some_iff.mp hpio
  exact ⟨⟨X, hX, htx, uart_byte_stream (hne true) (Reach.of_exec _ .start hX)⟩,
    Y, hY, hty, uart_byte_stream (hne false) (Reach.of_exec _ .start hY)⟩

end Rpitos
