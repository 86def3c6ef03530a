import Rpitos.Boot.BootloaderRuns
import Rpitos.Boot.HostTool
import Rpitos.Kernel.Programs

/-!
# Boot.DfuTrigger

The recovery path of every app: each byte that the UART receives goes through the matcher, which gives
a semaphore when the last four bytes are the key; `dfu_reboot_task` takes it, stores the request in the
shared flags and enters the bootloader. The message it prints is left out.

`recovery_key_reboots`: under every interleaving nothing is requested before the key has arrived, and
from then on nothing keeps the task from the request: five instructions of it store all of it, and the
bootloader then waits for an update, whatever is on the card.
-/

namespace Rpitos

open Function StatusCode

/-! ## The matcher -/

/-- `dfu_trigger_feed`: the new register, and whether it is the key. -/
def dfu_trigger_feed (shift_reg : UInt32) (byte : UInt8) : UInt32 × Bool :=
  let shift_reg := (shift_reg <<< 8) ||| byte.toUInt32
  (shift_reg, shift_reg = DFU_TRIGGER_KEY)

/-- The register after these bytes. -/
def shifted (bytes : List UInt8) : UInt32 := bytes.foldl (fun r b => (dfu_trigger_feed r b).1) 0

theorem dfu_trigger_feed_toNat (r : UInt32) (b : UInt8) :
    (dfu_trigger_feed r b).1.toNat = (r.toNat * 256 + b.toNat) % 2 ^ 32 := by
  have hb : b.toNat < 2 ^ 8 := b.toNat_lt
  have hor : (r.toNat * 2 ^ 8) % 2 ^ 32 ||| b.toNat = (r.toNat * 2 ^ 8) % 2 ^ 32 + b.toNat := by
    have hdvd : (r.toNat * 2 ^ 8) % 2 ^ 32 = 2 ^ 8 * (r.toNat % 2 ^ 24) := by omega
    rw [hdvd, Nat.two_pow_add_eq_or_of_lt hb]
  show ((r <<< 8) ||| b.toUInt32).toNat = _
  rw [UInt32.toNat_or, UInt32.toNat_shiftLeft, UInt8.toNat_toUInt32]
  rw [show (8 : UInt32).toNat % 32 = 8 from rfl, Nat.shiftLeft_eq, hor]
  omega

theorem shifted_concat (bs : List UInt8) (b : UInt8) :
    shifted (bs ++ [b]) = (dfu_trigger_feed (shifted bs) b).1 := List.foldl_concat ..

theorem shifted_concat_toNat (bs : List UInt8) (b : UInt8) :
    (shifted (bs ++ [b])).toNat = ((shifted bs).toNat * 256 + b.toNat) % 2 ^ 32 := by
  rw [shifted_concat]
  exact dfu_trigger_feed_toNat _ b

theorem shifted_lt (bs : List UInt8) : (shifted bs).toNat < 2 ^ (8 * bs.length) := by
  induction bs using List.reverseRecOn with
  | nil => decide
  | append_singleton bs b ih =>
    have hb : b.toNat < 2 ^ 8 := b.toNat_lt
    rw [shifted_concat_toNat, List.length_append, List.length_singleton, Nat.mul_add, Nat.pow_add]
    have := Nat.mod_le ((shifted bs).toNat * 256 + b.toNat) (2 ^ 32)
    omega

/-- The register is the key just after the four bytes of the key. -/
theorem shifted_key (bs : List UInt8) : shifted bs = DFU_TRIGGER_KEY ↔ TRIGGER_KEY <:+ bs := by
  rw [← UInt32.toNat_inj, show DFU_TRIGGER_KEY.toNat = 0xDF00DF00 from rfl]
  by_cases hlen : bs.length < 4
  · have hlt := shifted_lt bs
    have hpow : 2 ^ (8 * bs.length) ≤ 2 ^ 24 := Nat.pow_le_pow_right (by decide) (by omega)
    refine ⟨fun h => by omega, fun h => ?_⟩
    have hle := h.length_le
    simp only [TRIGGER_KEY, List.length_cons, List.length_nil] at hle
    omega
  · obtain ⟨xs, ys, rfl, hys⟩ : ∃ xs ys, bs = xs ++ ys ∧ ys.length = 4 :=
      ⟨bs.take (bs.length - 4), bs.drop (bs.length - 4), (List.take_append_drop _ _).symm,
        by rw [List.length_drop]; omega⟩
    obtain ⟨a, b, c, d, rfl⟩ := List.length_eq_four.mp hys
    have hsuffix : TRIGGER_KEY <:+ xs ++ [a, b, c, d] ↔ TRIGGER_KEY = [a, b, c, d] := by
      rw [List.suffix_iff_eq_drop]
      simp [TRIGGER_KEY]
    have hsplit : xs ++ [a, b, c, d] = xs ++ [a] ++ [b] ++ [c] ++ [d] := by simp
    have ha := a.toNat_lt
    have hb := b.toNat_lt
    have hc := c.toNat_lt
    have hd := d.toNat_lt
    rw [hsuffix, hsplit, shifted_concat_toNat, shifted_concat_toNat, shifted_concat_toNat,
      shifted_concat_toNat]
    simp only [TRIGGER_KEY, List.cons.injEq, and_true, ← UInt8.toNat_inj, UInt8.toNat_ofNat]
    omega

/-- The key has just arrived. -/
theorem fired_iff (bytes : List UInt8) (b : UInt8) :
    (dfu_trigger_feed (shifted bytes) b).2 = true ↔ TRIGGER_KEY <:+ bytes ++ [b] := by
  rw [← shifted_key, shifted_concat]
  exact decide_eq_true_iff

/-! ## The recovery path -/

/-- Where `dfu_reboot_task` is; `enter_bootloader` does not return. -/
inductive RebootPc where
  | take
  | request
  | reason
  | magic
  | enter_bootloader
  deriving DecidableEq, Repr

/-- The units it has taken. -/
def RebootPc.taken : RebootPc → Nat
  | .take => 0
  | _ => 1

/-- `dfu_tcb` and `dfu_semaphore`. -/
structure Recovery where
  dfu_tcb : Tcb
  dfu_semaphore : SemaphoreId

structure RecoveryState where
  tasks : Tasks RebootPc BootFlags
  shift_reg : UInt32
  /-- The bytes received so far. -/
  received : List UInt8

inductive RecoveryAction where
  /-- `uart_rx_irq_handler` reads a byte. -/
  | rx (byte : UInt8)
  | tasks (a : TaskAction)
  deriving DecidableEq, Repr

namespace Recovery

variable (C : Recovery)

def dfu_reboot_task : RebootPc → Instr RebootPc BootFlags
  | .take => .call (.semaphore_take C.dfu_semaphore (-1)) fun _ => .request
  | .request => .own fun _ _ flags => ({ flags with dfu_requested := DFU_REQUEST }, .reason)
  | .reason => .own fun _ _ flags => ({ flags with reset_reason := RESET_REASON_SOFTWARE }, .magic)
  | .magic => .own fun _ _ flags => ({ flags with magic := BOOT_FLAGS_MAGIC }, .enter_bootloader)
  | .enter_bootloader => .own fun _ _ flags => (flags, .enter_bootloader)

/-- Nobody else takes the semaphore. -/
def program : Program RebootPc BootFlags where
  code := C.dfu_reboot_task
  tasks t := t = C.dfu_tcb
  entry _ := .take
  uses S a := S.touches C.dfu_semaphore a && a != .semaphore_give C.dfu_semaphore

def dfu_trigger_feed_isr (X : RecoveryState) (byte : UInt8) : Option RecoveryState :=
  let r := dfu_trigger_feed X.shift_reg byte
  let X := { X with shift_reg := r.1, received := X.received ++ [byte] }
  if r.2 then
    (C.program.step X.tasks (.kernel (.semaphore_give C.dfu_semaphore))).map
      fun tasks => { X with tasks := tasks }
  else some X

/-- One step; only the interrupt gives the semaphore. -/
def step (X : RecoveryState) : RecoveryAction → Option RecoveryState
  | .rx byte => C.dfu_trigger_feed_isr X byte
  | .tasks a =>
    if a = .kernel (.semaphore_give C.dfu_semaphore) then none
    else (C.program.step X.tasks a).map fun tasks => { X with tasks := tasks }

/-- Before the scheduler starts, with `flags` in the shared memory. -/
def boot (max_count initial_count : SemaphoreId → Nat) (flags : BootFlags) : RecoveryState where
  tasks := C.program.boot max_count initial_count flags
  shift_reg := 0
  received := []

/-- As `dfu_trigger_task_start` sets the semaphore up. -/
structure Ready (max_count initial_count : SemaphoreId → Nat) : Prop where
  max : max_count C.dfu_semaphore = 1
  initial : initial_count C.dfu_semaphore = 0

def Reached (max_count initial_count : SemaphoreId → Nat) (flags : BootFlags)
    (X : RecoveryState) : Prop :=
  Reach C.step anything (C.boot max_count initial_count flags) X

/-- A step, with what made it possible. -/
inductive Move (X : RecoveryState) : RecoveryAction → RecoveryState → Prop
  | quiet {b : UInt8} (hb : (dfu_trigger_feed X.shift_reg b).2 = false) :
      Move X (.rx b) { X with
        shift_reg := (dfu_trigger_feed X.shift_reg b).1, received := X.received ++ [b] }
  | fires {b : UInt8} (hb : (dfu_trigger_feed X.shift_reg b).2 = true) :
      Move X (.rx b) {
        shift_reg := (dfu_trigger_feed X.shift_reg b).1, received := X.received ++ [b]
        tasks := { X.tasks with
          system := (X.tasks.system.give C.dfu_semaphore).2
          history := X.tasks.history ++ (X.tasks.system.give C.dfu_semaphore).1 } }
  | tasks {a : TaskAction} {T : Tasks RebootPc BootFlags}
      (ha : a ≠ .kernel (.semaphore_give C.dfu_semaphore))
      (hm : C.program.Move X.tasks a T) : Move X (.tasks a) { X with tasks := T }

variable {C} {X Y : RecoveryState} {a : RecoveryAction}
  {max_count initial_count : SemaphoreId → Nat} {flags : BootFlags}

/-- The give of the interrupt is always possible. -/
theorem give_step (T : Tasks RebootPc BootFlags) :
    C.program.step T (.kernel (.semaphore_give C.dfu_semaphore)) = some { T with
      system := (T.system.give C.dfu_semaphore).2
      history := T.history ++ (T.system.give C.dfu_semaphore).1 } := by
  have hf : C.program.foreign T.system (.semaphore_give C.dfu_semaphore) = true := by
    simp [Program.foreign, Action.caller, program]
  show (if _ then _ else _) = _
  rw [if_pos hf]
  rfl

theorem step_move (h : C.step X a = some Y) : C.Move X a Y := by
  cases a with
  | rx b =>
    have h : C.dfu_trigger_feed_isr X b = some Y := h
    unfold dfu_trigger_feed_isr at h
    dsimp only at h
    by_cases hb : (dfu_trigger_feed X.shift_reg b).2 = true
    · rw [if_pos hb, give_step] at h
      cases h
      exact .fires hb
    · rw [if_neg hb] at h
      cases h
      exact .quiet (eq_false_of_ne_true hb)
  | tasks b =>
    obtain ⟨hb, h⟩ := Option.ite_none_left_eq_some.mp h
    obtain ⟨T, hT, rfl⟩ := Option.map_eq_some_iff.mp h
    exact .tasks hb (Program.step_move hT)

/-- The tasks make a run of their program, in which the rest of the system gives. -/
theorem Reached.tasks (hr : C.Reached max_count initial_count flags X) :
    C.program.Reached max_count initial_count flags X.tasks := by
  induction hr with
  | start => exact .start
  | @step X Y a _ _ hs hX =>
    cases a with
    | rx b =>
      cases step_move hs with
      | quiet _ => exact hX
      | fires _ => exact hX.step trivial (give_step X.tasks)
    | tasks b =>
      obtain ⟨hb, hs⟩ := Option.ite_none_left_eq_some.mp hs
      obtain ⟨T, hT, rfl⟩ := Option.map_eq_some_iff.mp hs
      exact hX.step trivial hT

/-- The flags that the task has stored when it is at `pc`. -/
def flags_at (flags : BootFlags) : RebootPc → BootFlags
  | .take | .request => flags
  | .reason => { flags with dfu_requested := DFU_REQUEST }
  | .magic => { flags with dfu_requested := DFU_REQUEST, reset_reason := RESET_REASON_SOFTWARE }
  | .enter_bootloader => Device.trigger_flags flags

/-- What holds in every run: what was received, given and taken, and what is stored. -/
structure Inv (C : Recovery) (flags : BootFlags) (X : RecoveryState) : Prop where
  shift : X.shift_reg = shifted X.received
  given : 0 < gives_ok C.dfu_semaphore X.tasks.history ↔ TRIGGER_KEY <:+: X.received
  taken : takes_ok C.dfu_semaphore X.tasks.history = (X.tasks.place C.dfu_tcb).taken
  stored : X.tasks.mem = flags_at flags (X.tasks.place C.dfu_tcb)

theorem uses_take (S : System Links) (b : Action) (h : C.program.uses S b = false) :
    S.touches C.dfu_semaphore b = false ∨ b = .semaphore_give C.dfu_semaphore := by
  rcases Bool.and_eq_false_iff.mp h with h | h
  · exact .inl h
  · exact .inr (by simpa using h)

/-- The units of the semaphore, where the task is the only one that can hold one. -/
theorem Reached.units (hr : C.Reached max_count initial_count flags X)
    (hd : C.Ready max_count initial_count) : ∃ A, SSim X.tasks.system A grounded ∧
      TakeInv 1 0 X.tasks.system A C.dfu_semaphore X.tasks.history := by
  have hle : initial_count C.dfu_semaphore ≤ max_count C.dfu_semaphore := by
    rw [hd.initial]; exact Nat.zero_le _
  obtain ⟨A, hs, ht⟩ := hr.tasks.take_inv hle
  rw [hd.max, hd.initial] at ht
  exact ⟨A, hs, ht⟩

namespace Inv

theorem boot : C.Inv flags (C.boot max_count initial_count flags) := by
  refine ⟨rfl, ⟨fun h => absurd h (Nat.lt_irrefl 0), fun h => ?_⟩, rfl, rfl⟩
  have hle := h.length_le
  simp [TRIGGER_KEY, Recovery.boot] at hle

/-- One more byte. -/
theorem received_iff (hi : C.Inv flags X) (b : UInt8) :
    TRIGGER_KEY <:+: X.received ++ [b] ↔
      (dfu_trigger_feed X.shift_reg b).2 = true ∨ TRIGGER_KEY <:+: X.received := by
  rw [List.infix_concat_iff, hi.shift, fired_iff]

/-- Each step keeps it. -/
theorem move (hi : C.Inv flags X) (hr : C.Reached max_count initial_count flags X)
    (hd : C.Ready max_count initial_count) (hm : C.Move X a Y) : C.Inv flags Y := by
  cases hm with
  | @quiet b hb =>
    refine ⟨by rw [hi.shift, shifted_concat], ?_, hi.taken, hi.stored⟩
    rw [hi.received_iff b, hb]
    simpa using hi.given
  | @fires b hb =>
    obtain ⟨htakes, hgives⟩ := Program.give_units X.tasks.system C.dfu_semaphore X.tasks.history
    refine ⟨by rw [hi.shift, shifted_concat], ?_, htakes.trans hi.taken, hi.stored⟩
    -- the give counts, or the semaphore holds a unit that was given before
    have hpos : 0 < gives_ok C.dfu_semaphore
        (X.tasks.history ++ (X.tasks.system.give C.dfu_semaphore).1) := by
      rw [hgives]
      obtain ⟨A, hs, ht⟩ := hr.units hd
      obtain ⟨_, _, _, -, he⟩ | ⟨-, -, he⟩ | ⟨-, hfull, he⟩ :=
        semaphore_give_effect hs.kernel C.dfu_semaphore
      · rw [he]; simp
      · rw [he]; simp
      · have hunits := ht.units
        have hmax := ht.max_eq
        omega
    exact ⟨fun _ => (hi.received_iff b).mpr (.inl hb), fun _ => hpos⟩
  | @tasks a T ha hm =>
    cases hm with
    | @own t f ht _ hc =>
      obtain rfl : t = C.dfu_tcb := of_decide_eq_true ht
      refine ⟨hi.shift, hi.given, ?_, ?_⟩
      · have htaken := hi.taken
        dsimp only
        rw [update_self]
        cases hpc : X.tasks.place C.dfu_tcb <;> rw [hpc] at hc htaken <;> cases hc <;> exact htaken
      · have hstored := hi.stored
        dsimp only
        rw [update_self]
        cases hpc : X.tasks.place C.dfu_tcb <;> rw [hpc] at hc hstored <;> cases hc <;>
          rw [hstored] <;> rfl
    | @call t c k es S ht _ hc hstep =>
      obtain rfl : t = C.dfu_tcb := of_decide_eq_true ht
      have hin := hr.tasks.in_calls.at_call ht hc
      have htaken := hi.taken
      have hstored := hi.stored
      cases hpc : X.tasks.place C.dfu_tcb <;> rw [hpc] at hc htaken hstored <;> cases hc
      obtain ⟨hgives, ⟨ho, -, htakes⟩ | ⟨ho, htakes⟩⟩ :=
        Program.section_take (by decide) hin hstep X.tasks.history
      · refine ⟨hi.shift, (by rw [hgives]; exact hi.given), ?_, ?_⟩
        · dsimp only
          rw [htakes, htaken, if_pos ho, update_self]
          rfl
        · dsimp only
          rw [if_pos ho, update_self]
          exact hstored
      · refine ⟨hi.shift, (by rw [hgives]; exact hi.given), ?_, ?_⟩
        · dsimp only
          rw [htakes, htaken, if_neg ho, hpc]
        · dsimp only
          rw [if_neg ho, hpc]
          exact hstored
    | @kernel b es S hf hstep =>
      have hb : X.tasks.system.touches C.dfu_semaphore b = false :=
        (uses_take _ _ (Program.foreign_uses hf)).resolve_right fun h => ha (by rw [h])
      have hn := (step_about hstep hb).1
      refine ⟨hi.shift, ?_, ?_, hi.stored⟩
      · dsimp only
        rw [gives_ok_other hn]
        exact hi.given
      · dsimp only
        rw [takes_ok_other hn]
        exact hi.taken

end Inv

theorem Reached.inv (hr : C.Reached max_count initial_count flags X)
    (hd : C.Ready max_count initial_count) : C.Inv flags X := by
  induction hr with
  | start => exact .boot
  | step hr _ hs ih => exact ih.move hr hd (step_move hs)

/-! ## Behind the key -/

/-- The unit of the key is in the semaphore or in the task's hand until the task has taken it. -/
theorem Reached.takeable (hr : C.Reached max_count initial_count flags X)
    (hd : C.Ready max_count initial_count) (hkey : TRIGGER_KEY <:+: X.received)
    (hpc : X.tasks.place C.dfu_tcb = .take) :
    (X.tasks.system.taking C.dfu_semaphore C.dfu_tcb).isWaiting = false ∧
      (0 < X.tasks.system.kernel.count C.dfu_semaphore ∨
        (X.tasks.system.taking C.dfu_semaphore C.dfu_tcb).isHanded = true) := by
  obtain ⟨A, -, ht⟩ := hr.units hd
  have hi := hr.inv hd
  have hle : initial_count C.dfu_semaphore ≤ max_count C.dfu_semaphore := by
    rw [hd.initial]; exact Nat.zero_le _
  have honly : ∀ u, takeStatus C.dfu_semaphore u X.tasks.history ≠ .out → u = C.dfu_tcb :=
    fun u hu => of_decide_eq_true (hr.tasks.at_take uses_take hle hu).1
  have hhanded := Program.handed_units_alone honly
  rw [ht.status] at hhanded
  have hgiven := hi.given.mpr hkey
  have htaken := hi.taken
  have hunits := ht.units
  rw [hpc] at htaken
  simp only [RebootPc.taken] at htaken
  by_cases hh : (X.tasks.system.taking C.dfu_semaphore C.dfu_tcb).isHanded = true
  · refine ⟨?_, .inr hh⟩
    cases hst : X.tasks.system.taking C.dfu_semaphore C.dfu_tcb <;> simp [hst] at hh ⊢
  · rw [if_neg hh] at hhanded
    have hcount : 0 < X.tasks.system.kernel.count C.dfu_semaphore := by omega
    refine ⟨eq_false_of_ne_true fun hw => ?_, .inl hcount⟩
    have hzero := ht.waiting _ hw
    omega

/-- The instructions that the task has left, at most. -/
def left (C : Recovery) (X : RecoveryState) : Nat :=
  match X.tasks.place C.dfu_tcb with
  | .take =>
    match X.tasks.system.call C.dfu_tcb with
    | .semaphore_take _ _ _ => 4
    | _ => 5
  | .request => 3
  | .reason => 2
  | .magic => 1
  | .enter_bootloader => 0

theorem left_le (X : RecoveryState) : C.left X ≤ 5 := by
  unfold left
  repeat' split
  all_goals decide

theorem left_congr (hp : Y.tasks.place C.dfu_tcb = X.tasks.place C.dfu_tcb)
    (hc : Y.tasks.system.call C.dfu_tcb = X.tasks.system.call C.dfu_tcb) : C.left Y = C.left X := by
  unfold left
  rw [hp, hc]

/-- A section of the take, once the key has arrived. -/
theorem left_take {es : List Event} {S : System Links}
    (hr : C.Reached max_count initial_count flags X) (hd : C.Ready max_count initial_count)
    (hkey : TRIGGER_KEY <:+: X.received) (hpc : X.tasks.place C.dfu_tcb = .take)
    (hin : X.tasks.system.call C.dfu_tcb = .own ∨
      (KernelCall.semaphore_take C.dfu_semaphore (-1)).spans (X.tasks.system.call C.dfu_tcb))
    (hstep : X.tasks.system.step (Program.section_of X.tasks.system C.dfu_tcb
      (.semaphore_take C.dfu_semaphore (-1))) = some (es, S)) :
    C.left { X with tasks := { X.tasks with
      system := S
      history := X.tasks.history ++ es
      place := if S.call C.dfu_tcb = .own then update X.tasks.place C.dfu_tcb .request
        else X.tasks.place } } + 1 ≤ C.left X := by
  rcases Program.section_cases hin hstep with ⟨ho, hm⟩ | ⟨hspans, hp⟩
  · cases hm
    simp [left, hpc, ho]
  · obtain ⟨deadline, hk | hk⟩ := hspans
    · -- nobody else has taken the unit
      have hcount : 0 < X.tasks.system.kernel.count C.dfu_semaphore := by
        refine (hr.takeable hd hkey hpc).2.resolve_right fun hh => ?_
        rw [TakeInv.trying_of_call hk] at hh
        cases hh
      cases hp with
      | @semaphore_take s timeout_ms deadline' hk' =>
        rw [hk] at hk'
        cases hk'
        unfold System.take
        obtain ⟨-, he⟩ | ⟨hz, -⟩ | ⟨hz, -⟩ := semaphore_take_effect X.tasks.system.kernel
          C.dfu_semaphore C.dfu_tcb (-1) deadline
        · rw [he]
          simp [left, hpc, hk]
        · omega
        · omega
      | block_until hk' | delayed hk' | mutex_lock hk' | semaphore_wait hk' =>
        rw [hk] at hk'
        cases hk'
    · cases hp with
      | @semaphore_wait s timeout_ms deadline' hk' =>
        rw [hk] at hk'
        cases hk'
        unfold System.takeWake semaphore_take_wake
        by_cases hw : X.tasks.system.kernel.wakeup_reason C.dfu_tcb = .RESOURCE_ACQUIRED
        · simp [left, hpc, hk, hw]
        · simp [left, hpc, hk, hw]
      | block_until hk' | delayed hk' | mutex_lock hk' | semaphore_take hk' =>
        rw [hk] at hk'
        cases hk'

/-- Once the key has arrived, nothing holds the task up, and it gets on with each instruction. -/
theorem left_move (hr : C.Reached max_count initial_count flags X)
    (hd : C.Ready max_count initial_count) (hkey : TRIGGER_KEY <:+: X.received)
    (hm : C.Move X a Y) :
    C.left Y + (if a = .tasks (.run C.dfu_tcb) ∧ C.left X ≠ 0 then 1 else 0) ≤ C.left X := by
  cases hm with
  | quiet _ => simp [left]
  | fires _ => simp [left, System.give]
  | @tasks a T ha hm =>
    cases hm with
    | @own t f ht _ hc =>
      obtain rfl : t = C.dfu_tcb := of_decide_eq_true ht
      cases hpc : X.tasks.place C.dfu_tcb <;> rw [hpc] at hc <;> cases hc <;> simp [left, hpc]
    | @call t c k es S ht _ hc hstep =>
      obtain rfl : t = C.dfu_tcb := of_decide_eq_true ht
      have hin := hr.tasks.in_calls.at_call ht hc
      cases hpc : X.tasks.place C.dfu_tcb <;> rw [hpc] at hc <;> cases hc
      have hone : ∀ p : Prop, [Decidable p] → (if p then 1 else 0) ≤ 1 := fun p _ => by
        split <;> decide
      exact (Nat.add_le_add_left (hone _) _).trans (left_take hr hd hkey hpc hin hstep)
    | @kernel b es S hf hstep =>
      have hb : b.caller ≠ some C.dfu_tcb :=
        Program.foreign_caller hf (by simp [program])
      have hsame := left_congr (C := C) (X := X) (Y := { X with tasks := { X.tasks with
        system := S, history := X.tasks.history ++ es } }) rfl (step_call hstep hb)
      rw [hsame]
      simp

/-- A run behind the key. -/
theorem left_run (hd : C.Ready max_count initial_count) (as : List RecoveryAction) :
    ∀ {X : RecoveryState}, C.Reached max_count initial_count flags X →
      TRIGGER_KEY <:+: X.received → execute C.step anything X as = some Y →
      C.Reached max_count initial_count flags Y ∧
        (C.left X ≤ as.count (.tasks (.run C.dfu_tcb)) → C.left Y = 0) := by
  induction as with
  | nil =>
    intro X hr _ he
    cases he
    exact ⟨hr, fun h => Nat.le_zero.mp h⟩
  | cons a as ih =>
    intro X hr hkey he
    obtain ⟨ha, X₁, hs, he⟩ := execute_cons_some he
    have hm := step_move hs
    have hleft := left_move hr hd hkey hm
    have hkey₁ : TRIGGER_KEY <:+: X₁.received := by
      cases hm with
      | quiet _ => exact hkey.trans (List.prefix_append ..).isInfix
      | fires _ => exact hkey.trans (List.prefix_append ..).isInfix
      | tasks _ _ => exact hkey
    obtain ⟨hY, hzero⟩ := ih (hr.step ha hs) hkey₁ he
    refine ⟨hY, fun hle => hzero ?_⟩
    rw [List.count_cons] at hle
    by_cases hrun : a = .tasks (.run C.dfu_tcb)
    · simp only [hrun, beq_self_eq_true, if_true, true_and] at hle hleft
      split at hleft <;> omega
    · simp only [hrun, beq_iff_eq, if_false, false_and] at hle hleft
      omega

/-- In its own code, and in the take once the key has arrived, the task is not blocked. -/
theorem Reached.not_blocked (hr : C.Reached max_count initial_count flags X)
    (hd : C.Ready max_count initial_count) (hkey : TRIGGER_KEY <:+: X.received)
    (hc : X.tasks.system.kernel.created C.dfu_tcb = true) :
    X.tasks.system.kernel.current_state C.dfu_tcb ≠ .BLOCKED := by
  intro hb
  obtain ⟨A, hs, -⟩ := hr.units hd
  have hspins := hs.kernel.tasks.blocked _ hc hb
  have hne : X.tasks.system.call C.dfu_tcb ≠ .own := fun h => by rw [h] at hspins; cases hspins
  obtain ⟨c, k, hcode, hin⟩ := hr.tasks.in_calls C.dfu_tcb (by simp [program]) hne
  cases hpc : X.tasks.place C.dfu_tcb <;> rw [hpc] at hcode <;> cases hcode
  have hnot := (hr.takeable hd hkey hpc).1
  obtain ⟨deadline, hk | hk⟩ := hin
  · rw [hk] at hspins
    cases hspins
  · simp [System.taking, hk, hb] at hnot

end Recovery

/-- With the request in the flags the bootloader waits for an update. -/
theorem trigger_enters_dfu (D : Device) (flags : BootFlags) (ram : Dfu) (buf : Sector) (io : BootIo)
    (img_expected_crc crc_ctx : UInt32) :
    (((D.reboot (Device.trigger_flags flags) ram buf).bootloader_init io).bootloader_execute
      NUM_RETRIES img_expected_crc crc_ctx).pc = .session NUM_RETRIES := by
  obtain ⟨forced, checked, ok, -, hflags, -⟩ :=
    (D.reboot (Device.trigger_flags flags) ram buf).bootloader_init_spec io
  have hvalid : boot_flags_init (D.reboot (Device.trigger_flags flags) ram buf).dfu.boot_flags =
      Device.trigger_flags flags := if_pos (decide_eq_true rfl)
  have hrequest : ((D.reboot (Device.trigger_flags flags) ram buf).bootloader_init io).enters_dfu
      NUM_RETRIES = true := by
    unfold Device.enters_dfu
    rw [hflags, hvalid]
    cases forced <;> simp [Device.trigger_flags]
  unfold Device.bootloader_execute
  rw [if_pos hrequest]

/-- What the recovery path keeps. -/
structure RecoverySafe (C : Recovery) (flags : BootFlags) (X : RecoveryState) : Prop where
  spurious : ¬ TRIGGER_KEY <:+: X.received →
    X.tasks.place C.dfu_tcb = .take ∧ X.tasks.mem = flags
  ready : TRIGGER_KEY <:+: X.received → X.tasks.system.kernel.created C.dfu_tcb = true →
    X.tasks.system.kernel.current_state C.dfu_tcb ≠ .BLOCKED
  reboots : TRIGGER_KEY <:+: X.received → ∀ as Y, execute C.step anything X as = some Y →
    5 ≤ as.count (.tasks (.run C.dfu_tcb)) → Y.tasks.place C.dfu_tcb = .enter_bootloader ∧
      ∀ (D : Device) (ram : Dfu) (buf : Sector) (io : BootIo) (img_expected_crc crc_ctx : UInt32),
        (((D.reboot Y.tasks.mem ram buf).bootloader_init io).bootloader_execute NUM_RETRIES
          img_expected_crc crc_ctx).pc = .session NUM_RETRIES

/-- In every run, however the bytes arrive between the steps of the kernel and of the tasks, nothing is
requested before the four bytes of the key have arrived one behind the other; from then on the task
that stores the request is never blocked, five of its instructions suffice, and the bootloader then
waits for an update. -/
theorem recovery_key_reboots {C : Recovery} {max_count initial_count : SemaphoreId → Nat}
    {flags : BootFlags} {X : RecoveryState} (hd : C.Ready max_count initial_count)
    (hr : C.Reached max_count initial_count flags X) : RecoverySafe C flags X := by
  refine ⟨fun hkey => ?_, fun hkey hc => hr.not_blocked hd hkey hc, fun hkey as Y he hcount => ?_⟩
  · have hi := hr.inv hd
    obtain ⟨A, -, ht⟩ := hr.units hd
    have hgiven := mt hi.given.mp hkey
    have hunits := ht.units
    have htaken := hi.taken
    have hpc : X.tasks.place C.dfu_tcb = .take := by
      cases hpc : X.tasks.place C.dfu_tcb <;> rw [hpc] at htaken <;>
        simp only [RebootPc.taken] at htaken <;> first | rfl | omega
    refine ⟨hpc, ?_⟩
    rw [hi.stored, hpc]
    rfl
  · obtain ⟨hY, hzero⟩ := Recovery.left_run hd as hr hkey he
    have hleft := hzero ((Recovery.left_le X).trans hcount)
    have hpc : Y.tasks.place C.dfu_tcb = .enter_bootloader := by
      unfold Recovery.left at hleft
      cases hpc : Y.tasks.place C.dfu_tcb <;> rw [hpc] at hleft <;> simp only at hleft
      · split at hleft <;> omega
      all_goals first | rfl | omega
    refine ⟨hpc, fun D ram buf io img_expected_crc crc_ctx => ?_⟩
    rw [(hY.inv hd).stored, hpc]
    exact trigger_enters_dfu D flags ram buf io img_expected_crc crc_ctx

/-- The key arrives while `dfu_reboot_task` waits, behind a byte of something else. -/
def key_arrives : List RecoveryAction :=
  [.tasks (.kernel (.scheduler_init 0)), .tasks (.kernel (.task_create 0 1024 5)),
   .tasks (.kernel (.scheduler_start 0)), .tasks (.run (.pool 0 0)), .tasks (.run (.pool 0 0)),
   .rx 0x41, .rx 0xDF, .rx 0x00, .tasks (.kernel (.tick 0 [])), .rx 0xDF, .rx 0x00]

def recovery : Recovery := ⟨.pool 0 0, 0⟩

def cold_flags : BootFlags := { magic := 0, reset_reason := 0, dfu_requested := 0, fw_crc_ok := 0 }

theorem key_arrives_run : (execute recovery.step anything
    (recovery.boot (fun _ => 1) (fun _ => 0) cold_flags) key_arrives).isSome = true := by rfl

theorem recovery_key_reboots_key_arrives : RecoverySafe recovery cold_flags
    ((execute recovery.step anything (recovery.boot (fun _ => 1) (fun _ => 0) cold_flags)
      key_arrives).get key_arrives_run) :=
  recovery_key_reboots ⟨rfl, rfl⟩
    (Reach.of_exec _ .start (Option.some_get key_arrives_run).symm)

end Rpitos
