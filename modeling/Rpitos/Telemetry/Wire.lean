import Mathlib.Data.List.FinRange
import Rpitos.Kernel.Types
import Rpitos.Lib.Reach
import Rpitos.Telemetry.Frame

/-!
# Telemetry.Wire

The telemetry channel under all its senders, one byte at a time. `telemetry_lock` excludes the other
cores only: a core skips its own ticket. The publisher's task calls `telemetry_send` with IRQs
enabled, so a tick on its core can report an unblocked task from inside such a call.
`telemetry_frames_whole`: without such a tick the wire carries whole outputs of
`telemetry_send_framed`; `telemetry_frames_mixed`: with one it need not.
-/

namespace Rpitos

open Function (update update_self update_of_ne)

/-- Where code that sends frames runs: a core's tasks and kernel operations, or the timer tick of the
publisher's core. -/
inductive SendCtx where
  | task (core : CoreId)
  | tick
  deriving DecidableEq, Repr

/-- A locked send. -/
inductive SendPc where
  | idle
  /-- In the second loop of `spinlock_acquire`, with a ticket drawn. -/
  | acquiring (call : FramedCall)
  /-- In `telemetry_send_framed`, with these bytes to send; then `spinlock_release`. -/
  | sending (todo : List UInt8)

def SendPc.isIdle : SendPc → Bool
  | .idle => true
  | _ => false

/-- `ticket` is that of `telemetry_lock`, as an unbounded number. `masked` says whether the task of
the publisher's core sends with IRQs masked. `outputs` are the outputs of the calls of
`telemetry_send_framed` so far, in the order in which they began. -/
structure Wire where
  ticket : CoreId → Nat
  seq_counters : Nat → UInt8
  tx : List UInt8
  pc : SendCtx → SendPc
  masked : Bool
  outputs : List (List UInt8)

inductive WireStep where
  /-- The publisher's task, in its loop or in `telemetry_drain_tick_rings`. -/
  | telemetry_send (call : FramedCall)
  /-- A `telemetry_report_*` or the like: under `enter_critical()`, or from an IRQ. -/
  | report (ctx : SendCtx) (call : FramedCall)
  /-- The code in `ctx` goes on. -/
  | go (ctx : SendCtx)

/-- The first loop of `spinlock_acquire`. -/
def max_ticket (ticket : CoreId → Nat) : Nat :=
  (List.finRange COMPANION_CORE_MAX_CORES).foldl
    (fun max_ticket i => if ticket i > max_ticket then ticket i else max_ticket) 0

/-- The second loop does not hold `me` up at core `i`. -/
def goes_first (ticket : CoreId → Nat) (me i : CoreId) : Prop :=
  ticket i = 0 ∨ ticket i > ticket me ∨ ticket i = ticket me ∧ i.val > me.val

instance (ticket : CoreId → Nat) (me i : CoreId) : Decidable (goes_first ticket me i) :=
  inferInstanceAs (Decidable (_ ∨ _ ∨ _ ∧ _))

/-- The second loop is over: every core but `me` itself lets it through. -/
def admitted (ticket : CoreId → Nat) (me : CoreId) : Bool :=
  (List.finRange COMPANION_CORE_MAX_CORES).all fun i => i = me || goes_first ticket me i

namespace Wire

def boot : Wire where
  ticket _ := 0
  seq_counters _ := 0
  tx := []
  pc _ := .idle
  masked := false
  outputs := []

variable (publisher : CoreId)

def core : SendCtx → CoreId
  | .task core => core
  | .tick => publisher

/-- The tick runs to its end before the task it interrupted. -/
def runs (X : Wire) (ctx : SendCtx) : Bool :=
  ctx != .task publisher || (X.pc .tick).isIdle

/-- `spinlock_acquire` up to its second loop. -/
def acquire (X : Wire) (ctx : SendCtx) (call : FramedCall) : Wire :=
  { X with
    ticket := update X.ticket (core publisher ctx) (max_ticket X.ticket + 1)
    pc := update X.pc ctx (.acquiring call) }

/-- `spinlock_acquire` returns, and `telemetry_send_framed` makes the frame. -/
def enter (X : Wire) (ctx : SendCtx) (call : FramedCall) : Wire :=
  let T := call.send ⟨X.seq_counters, []⟩
  { X with
    seq_counters := T.seq_counters
    pc := update X.pc ctx (.sending T.tx)
    outputs := X.outputs ++ [T.tx] }

/-- `uart_channel_tx_raw`. -/
def send_byte (X : Wire) (ctx : SendCtx) (b : UInt8) (todo : List UInt8) : Wire :=
  { X with tx := X.tx ++ [b], pc := update X.pc ctx (.sending todo) }

/-- `spinlock_release`. -/
def release (X : Wire) (ctx : SendCtx) : Wire :=
  { X with ticket := update X.ticket (core publisher ctx) 0, pc := update X.pc ctx .idle }

def step (X : Wire) : WireStep → Option Wire
  | .telemetry_send call =>
    if (X.pc (.task publisher)).isIdle && X.runs publisher (.task publisher) then
      some ({ X with masked := false }.acquire publisher (.task publisher) call)
    else none
  | .report (.task i) call =>
    if (X.pc (.task i)).isIdle && X.runs publisher (.task i) then
      some ({ X with masked := if i = publisher then true else X.masked }.acquire publisher (.task i)
        call)
    else none
  | .report .tick call =>
    -- no tick while IRQs are masked on its core
    if (X.pc .tick).isIdle && ((X.pc (.task publisher)).isIdle || !X.masked) then
      some (X.acquire publisher .tick call)
    else none
  | .go ctx =>
    if X.runs publisher ctx then
      match X.pc ctx with
      | .idle => none
      | .acquiring call =>
        if admitted X.ticket (core publisher ctx) then some (X.enter ctx call) else some X
      | .sending (b :: todo) => some (X.send_byte ctx b todo)
      | .sending [] => some (X.release publisher ctx)
    else none

/-- No tick reports an unblocked task while the publisher is inside `telemetry_send`. -/
def apart (X : Wire) : WireStep → Prop
  | .report .tick _ => (X.pc (.task publisher)).isIdle = true
  | _ => True

instance (X : Wire) (a : WireStep) : Decidable (X.apart publisher a) :=
  match a with
  | .report .tick _ => inferInstanceAs (Decidable (_ = true))
  | .report (.task _) _ | .telemetry_send _ | .go _ => isTrue trivial

/-- Somebody is in `telemetry_send_framed`. -/
def Busy (X : Wire) : Prop := ∃ ctx todo, X.pc ctx = .sending todo

/-- The bytes on the wire are whole outputs of the calls, one behind the other. While a call is in
progress it may have sent the first part of its output, behind the others. -/
def Framed (X : Wire) : Prop :=
  ∃ done part, X.tx = done.flatten ++ part ∧
    (part = [] ∧ done.Perm X.outputs ∨
      X.Busy ∧ ∃ out, part <+: out ∧ (done ++ [out]).Perm X.outputs)

end Wire

section Ticket

variable {ticket : CoreId → Nat} {me i : CoreId}

theorem le_max_ticket (ticket : CoreId → Nat) (i : CoreId) : ticket i ≤ max_ticket ticket := by
  have hfold : ∀ (l : List CoreId) (m : Nat),
      let r := l.foldl (fun max_ticket i => if ticket i > max_ticket then ticket i else max_ticket) m
      m ≤ r ∧ ∀ i ∈ l, ticket i ≤ r := by
    intro l
    induction l with
    | nil => exact fun m => ⟨Nat.le_refl m, fun i hi => nomatch hi⟩
    | cons j l ih =>
      intro m
      obtain ⟨hm, hall⟩ := ih (if ticket j > m then ticket j else m)
      have hboth : m ≤ (if ticket j > m then ticket j else m) ∧
          ticket j ≤ (if ticket j > m then ticket j else m) := by
        split <;> omega
      refine ⟨Nat.le_trans hboth.1 hm, fun i hi => ?_⟩
      rcases List.mem_cons.mp hi with rfl | hi
      · exact Nat.le_trans hboth.2 hm
      · exact hall i hi
  exact (hfold _ 0).2 i (List.mem_finRange i)

theorem admitted_first (h : admitted ticket me = true) (hne : i ≠ me) : goes_first ticket me i := by
  have hi := List.all_eq_true.mp h i (List.mem_finRange i)
  rcases Bool.or_eq_true_iff.mp hi with hi | hi
  · exact absurd (of_decide_eq_true hi) hne
  · exact of_decide_eq_true hi

/-- Two cores cannot both be first. -/
theorem goes_first_asymm (hi : 0 < ticket i) (hme : 0 < ticket me) (h : goes_first ticket me i)
    (h' : goes_first ticket i me) : False := by
  unfold goes_first at h h'
  omega

theorem goes_first_congr {ticket' : CoreId → Nat} (hme : ticket' me = ticket me)
    (hi : ticket' i = ticket i) : goes_first ticket' me i ↔ goes_first ticket me i := by
  unfold goes_first
  rw [hme, hi]

end Ticket

section Run

variable {publisher : CoreId} {X Y : Wire} {ctx x y : SendCtx} {call : FramedCall}

/-- What holds while ticks keep apart from the publisher's sends: no core is in two sends, a send has
a ticket, the one that is in `telemetry_send_framed` has the first ticket, and what it has still to
send is the rest of the last output. -/
structure WireInv (publisher : CoreId) (X : Wire) : Prop where
  alone : X.pc .tick = .idle ∨ X.pc (.task publisher) = .idle
  ticket : ∀ x, X.pc x ≠ .idle → 0 < X.ticket (Wire.core publisher x)
  first : ∀ x todo, X.pc x = .sending todo → ∀ i, i ≠ Wire.core publisher x →
    goes_first X.ticket (Wire.core publisher x) i
  sent : ∀ x todo, X.pc x = .sending todo → ∃ done part,
    X.outputs = done ++ [part ++ todo] ∧ X.tx = done.flatten ++ part
  rest : ¬ X.Busy → X.tx = X.outputs.flatten

theorem WireInv.boot (publisher : CoreId) : WireInv publisher .boot :=
  ⟨.inl rfl, fun _ h => absurd rfl h, fun _ _ h => (nomatch h), fun _ _ h => (nomatch h), fun _ => rfl⟩

/-- Only one context of a core is in a send. -/
theorem WireInv.same_core (h : WireInv publisher X) (hx : X.pc x ≠ .idle) (hy : X.pc y ≠ .idle)
    (hcore : Wire.core publisher x = Wire.core publisher y) : x = y := by
  cases x with
  | task i =>
    cases y with
    | task j => exact congrArg SendCtx.task hcore
    | tick =>
      cases hcore
      exact h.alone.elim (fun ht => absurd ht hy) fun ht => absurd ht hx
  | tick =>
    cases y with
    | task j =>
      cases hcore
      exact h.alone.elim (fun ht => absurd ht hx) fun ht => absurd ht hy
    | tick => rfl

/-- One send at a time is in `telemetry_send_framed`. -/
theorem WireInv.exclusive (h : WireInv publisher X) {todo todo' : List UInt8}
    (hx : X.pc x = .sending todo) (hy : X.pc y = .sending todo') : x = y := by
  have hx' : X.pc x ≠ .idle := fun hi => nomatch hx.symm.trans hi
  have hy' : X.pc y ≠ .idle := fun hi => nomatch hy.symm.trans hi
  by_cases hcore : Wire.core publisher x = Wire.core publisher y
  · exact h.same_core hx' hy' hcore
  · exact (goes_first_asymm (h.ticket y hy') (h.ticket x hx') (h.first x todo hx _ (Ne.symm hcore))
      (h.first y todo' hy _ hcore)).elim

/-- A send draws a ticket behind all others. -/
theorem WireInv.acquire (h : WireInv publisher X) (hidle : X.pc x = .idle)
    (halone : ∀ y, Wire.core publisher y = Wire.core publisher x → X.pc y = .idle) (call : FramedCall) :
    WireInv publisher (X.acquire publisher x call) := by
  have hother : ∀ y, y ≠ x → (X.acquire publisher x call).pc y = X.pc y :=
    fun y hy => update_of_ne hy ..
  have hsending : ∀ y todo, (X.acquire publisher x call).pc y = .sending todo →
      y ≠ x ∧ X.pc y = .sending todo ∧ Wire.core publisher y ≠ Wire.core publisher x := by
    intro y todo hy
    by_cases hyx : y = x
    · subst hyx
      exact nomatch (update_self ..).symm.trans hy
    · have hy := (hother y hyx).symm.trans hy
      exact ⟨hyx, hy, fun hcore => nomatch (halone y hcore).symm.trans hy⟩
  refine ⟨?_, fun y hy => ?_, fun y todo hy i hi => ?_, fun y todo hy => ?_, fun hbusy => h.rest ?_⟩
  · by_cases hcore : Wire.core publisher x = publisher
    · -- the other context of the publisher's core is idle
      cases x with
      | task i =>
        exact .inl ((hother .tick SendCtx.noConfusion).trans (halone .tick hcore.symm))
      | tick => exact .inr ((hother (.task publisher) SendCtx.noConfusion).trans (halone _ rfl))
    · have hne : ∀ y, Wire.core publisher y = publisher → y ≠ x := fun y hy he => hcore (he ▸ hy)
      rw [hother .tick (hne _ rfl), hother (.task publisher) (hne _ rfl)]
      exact h.alone
  · by_cases hcore : Wire.core publisher y = Wire.core publisher x
    · show 0 < update X.ticket _ _ _
      rw [hcore, update_self]
      exact Nat.succ_pos _
    · have hyx : y ≠ x := fun he => hcore (congrArg _ he)
      rw [hother y hyx] at hy
      show 0 < update X.ticket _ _ _
      rw [update_of_ne hcore]
      exact h.ticket y hy
  · obtain ⟨-, hy, hcore⟩ := hsending y todo hy
    by_cases hix : i = Wire.core publisher x
    · subst hix
      refine .inr (.inl ?_)
      show update X.ticket _ _ _ < update X.ticket _ _ _
      rw [update_self, update_of_ne hcore]
      exact Nat.lt_succ_of_le (le_max_ticket ..)
    · exact (goes_first_congr (update_of_ne hcore ..) (update_of_ne hix ..)).mpr
        (h.first y todo hy i hi)
  · obtain ⟨-, hy, -⟩ := hsending y todo hy
    exact h.sent y todo hy
  · rintro ⟨y, todo, hy⟩
    have hyx : y ≠ x := by
      rintro rfl
      exact nomatch hidle.symm.trans hy
    exact hbusy ⟨y, todo, (hother y hyx).trans hy⟩

/-- Whoever is in `telemetry_send_framed` keeps the others out of it. -/
theorem WireInv.not_busy (h : WireInv publisher X) (hx : X.pc x = .acquiring call)
    (hadm : admitted X.ticket (Wire.core publisher x) = true) : ¬ X.Busy := by
  rintro ⟨y, todo, hy⟩
  have hx' : X.pc x ≠ .idle := fun hi => nomatch hx.symm.trans hi
  have hy' : X.pc y ≠ .idle := fun hi => nomatch hy.symm.trans hi
  have hcore : Wire.core publisher y ≠ Wire.core publisher x := by
    intro hcore
    have hyx := h.same_core hy' hx' hcore
    subst hyx
    exact nomatch hx.symm.trans hy
  exact goes_first_asymm (h.ticket y hy') (h.ticket x hx') (admitted_first hadm hcore)
    (h.first y todo hy _ hcore.symm)

/-- A context that was in a send is in one after the step. -/
theorem WireInv.goto (h : WireInv publisher X) (hx : X.pc x ≠ .idle) (pc : SendPc)
    (hY : Y.pc = update X.pc x pc) (ht : Y.ticket = X.ticket) :
    (Y.pc .tick = .idle ∨ Y.pc (.task publisher) = .idle) ∧
      ∀ y, Y.pc y ≠ .idle → 0 < Y.ticket (Wire.core publisher y) := by
  have hidle : ∀ y, X.pc y = .idle → Y.pc y = .idle := by
    intro y hy
    have hyx : y ≠ x := by
      rintro rfl
      exact hx hy
    rw [hY, update_of_ne hyx]
    exact hy
  refine ⟨h.alone.imp (hidle _) (hidle _), fun y hy => ?_⟩
  rw [ht]
  exact h.ticket y fun hi => hy (hidle y hi)

theorem WireInv.enter (h : WireInv publisher X) (hx : X.pc x = .acquiring call)
    (hadm : admitted X.ticket (Wire.core publisher x) = true) : WireInv publisher (X.enter x call) := by
  have hbusy := h.not_busy hx hadm
  have honly : ∀ y todo, (X.enter x call).pc y = .sending todo → y = x := by
    intro y todo hy
    by_contra hyx
    exact hbusy ⟨y, todo, (update_of_ne hyx ..).symm.trans hy⟩
  have hx' : X.pc x ≠ .idle := fun hi => nomatch hx.symm.trans hi
  obtain ⟨halone, hticket⟩ := h.goto (Y := X.enter x call) hx' _ rfl rfl
  refine ⟨halone, hticket, fun y todo hy i hi => ?_, fun y todo hy => ?_, fun hn => ?_⟩
  · obtain rfl := honly y todo hy
    exact admitted_first hadm hi
  · obtain rfl := honly y todo hy
    obtain rfl := SendPc.sending.inj ((update_self ..).symm.trans hy)
    exact ⟨X.outputs, [], rfl, (h.rest hbusy).trans (List.append_nil _).symm⟩
  · exact (hn ⟨x, _, update_self ..⟩).elim

theorem WireInv.send_byte (h : WireInv publisher X) {b : UInt8} {todo : List UInt8}
    (hx : X.pc x = .sending (b :: todo)) : WireInv publisher (X.send_byte x b todo) := by
  have honly : ∀ y todo', (X.send_byte x b todo).pc y = .sending todo' → y = x := by
    intro y todo' hy
    by_contra hyx
    exact hyx (h.exclusive ((update_of_ne hyx ..).symm.trans hy) hx)
  have hx' : X.pc x ≠ .idle := fun hi => nomatch hx.symm.trans hi
  obtain ⟨halone, hticket⟩ := h.goto (Y := X.send_byte x b todo) hx' _ rfl rfl
  refine ⟨halone, hticket, fun y todo' hy i hi => ?_, fun y todo' hy => ?_, fun hn => ?_⟩
  · obtain rfl := honly y todo' hy
    exact h.first y _ hx i hi
  · obtain rfl := honly y todo' hy
    obtain rfl := SendPc.sending.inj ((update_self ..).symm.trans hy)
    obtain ⟨done, part, hout, htx⟩ := h.sent y _ hx
    refine ⟨done, part ++ [b], ?_, ?_⟩
    · rw [List.append_assoc]
      exact hout
    · exact (congrArg (· ++ [b]) htx).trans (List.append_assoc ..)
  · exact (hn ⟨x, _, update_self ..⟩).elim

theorem WireInv.release (h : WireInv publisher X) (hx : X.pc x = .sending []) :
    WireInv publisher (X.release publisher x) := by
  have hx' : X.pc x ≠ .idle := fun hi => nomatch hx.symm.trans hi
  have hother : ∀ y, (X.release publisher x).pc y ≠ .idle →
      y ≠ x ∧ X.pc y ≠ .idle ∧ Wire.core publisher y ≠ Wire.core publisher x := by
    intro y hy
    have hyx : y ≠ x := by
      rintro rfl
      exact hy (update_self ..)
    have hy' : X.pc y ≠ .idle := fun hi => hy ((update_of_ne hyx ..).trans hi)
    exact ⟨hyx, hy', fun hcore => hyx (h.same_core hy' hx' hcore)⟩
  have hbusy : ∀ y todo, (X.release publisher x).pc y ≠ .sending todo := by
    intro y todo hy
    obtain ⟨hyx, -, -⟩ := hother y fun hi => nomatch hy.symm.trans hi
    exact hyx (h.exclusive ((update_of_ne hyx ..).symm.trans hy) hx)
  refine ⟨?_, fun y hy => ?_, fun y todo hy => (hbusy y todo hy).elim,
    fun y todo hy => (hbusy y todo hy).elim, fun _ => ?_⟩
  · by_contra hn
    obtain ⟨ht, htask⟩ := not_or.mp hn
    exact h.alone.elim (hother _ ht).2.1 (hother _ htask).2.1
  · obtain ⟨hyx, hy', hcore⟩ := hother y hy
    exact Nat.lt_of_lt_of_eq (h.ticket y hy') (update_of_ne hcore ..).symm
  · obtain ⟨done, part, hout, htx⟩ := h.sent x [] hx
    show X.tx = X.outputs.flatten
    rw [htx, hout, List.flatten_append, List.flatten_singleton, List.append_nil]

/-- The flag alone is in no clause. -/
theorem WireInv.masked (h : WireInv publisher X) (masked : Bool) :
    WireInv publisher { X with masked := masked } :=
  ⟨h.alone, h.ticket, h.first, h.sent, h.rest⟩

theorem SendPc.eq_idle {p : SendPc} (h : p.isIdle = true) : p = .idle := by
  cases p with
  | idle => rfl
  | _ => cases h

/-- The contexts of the core of a task that may run. -/
theorem Wire.runs_idle {i : CoreId} (hidle : X.pc (.task i) = .idle)
    (hruns : X.runs publisher (.task i) = true)
    (hcore : core publisher y = core publisher (.task i)) : X.pc y = .idle := by
  cases y with
  | task j =>
    cases hcore
    exact hidle
  | tick =>
    have hcore : publisher = i := hcore
    subst hcore
    exact SendPc.eq_idle ((Bool.or_eq_true_iff.mp hruns).resolve_left (by simp))

theorem WireInv.step (h : WireInv publisher X) {a : WireStep} (hok : X.apart publisher a)
    (hY : X.step publisher a = some Y) : WireInv publisher Y := by
  cases a with
  | telemetry_send call =>
    obtain ⟨hguard, hY⟩ := Option.ite_none_right_eq_some.mp hY
    obtain ⟨hidle, hruns⟩ := Bool.and_eq_true_iff.mp hguard
    cases hY
    exact (h.masked false).acquire (SendPc.eq_idle hidle)
      (fun y => Wire.runs_idle (SendPc.eq_idle hidle) hruns) call
  | report ctx call =>
    cases ctx with
    | task i =>
      obtain ⟨hguard, hY⟩ := Option.ite_none_right_eq_some.mp hY
      obtain ⟨hidle, hruns⟩ := Bool.and_eq_true_iff.mp hguard
      cases hY
      exact (h.masked (if i = publisher then true else X.masked)).acquire (SendPc.eq_idle hidle)
        (fun y => Wire.runs_idle (SendPc.eq_idle hidle) hruns) call
    | tick =>
      obtain ⟨hguard, hY⟩ := Option.ite_none_right_eq_some.mp hY
      have hidle := SendPc.eq_idle (Bool.and_eq_true_iff.mp hguard).1
      have htask := SendPc.eq_idle hok
      cases hY
      refine h.acquire hidle (fun y hcore => ?_) call
      cases y with
      | task i =>
        cases hcore
        exact htask
      | tick => exact hidle
  | go ctx =>
    obtain ⟨-, hY⟩ := Option.ite_none_right_eq_some.mp hY
    cases hpc : X.pc ctx with
    | idle =>
      rw [hpc] at hY
      cases hY
    | acquiring call =>
      rw [hpc] at hY
      dsimp only at hY
      split at hY
      case isTrue hadm =>
        cases hY
        exact h.enter hpc hadm
      case isFalse =>
        cases hY
        exact h
    | sending todo =>
      rw [hpc] at hY
      cases todo with
      | nil =>
        cases hY
        exact h.release hpc
      | cons b todo =>
        cases hY
        exact h.send_byte hpc

theorem WireInv.framed (h : WireInv publisher X) : X.Framed := by
  by_cases hbusy : X.Busy
  · obtain ⟨x, todo, hx⟩ := hbusy
    obtain ⟨done, part, hout, htx⟩ := h.sent x todo hx
    refine ⟨done, part, htx, .inr ⟨⟨x, todo, hx⟩, part ++ todo, List.prefix_append .., ?_⟩⟩
    rw [hout]
  · refine ⟨X.outputs, [], ?_, .inl ⟨rfl, List.Perm.refl _⟩⟩
    rw [List.append_nil]
    exact h.rest hbusy

end Run

/-- Without a tick inside a `telemetry_send`, no frame is cut by another. -/
theorem telemetry_frames_whole (publisher : CoreId) {X : Wire}
    (hr : Reach (Wire.step publisher) (Wire.apart publisher) Wire.boot X) : X.Framed :=
  WireInv.framed (hr.invariant (.boot publisher) fun _ _ _ h hok hY => h.step hok hY)

/-- The heartbeat, and the report of a task that a delay has unblocked. -/
def heartbeat : FramedCall := ⟨0, fun _ => 0, 4⟩

def unblocked : FramedCall := ⟨4, buffer_of [0, 1, 3], 3⟩

/-- Core 0 draws its ticket while the publisher is about to send, and waits. -/
def whole_run : List WireStep :=
  [.telemetry_send heartbeat, .report (.task 0) unblocked, .go (.task 3), .go (.task 0)] ++
    List.replicate 15 (.go (.task 3)) ++ List.replicate 5 (.go (.task 0))

theorem whole_run_isSome :
    (execute (Wire.step 3) (Wire.apart 3) Wire.boot whole_run).isSome = true := by decide +kernel

theorem telemetry_frames_whole_two_cores :
    ((execute (Wire.step 3) (Wire.apart 3) Wire.boot whole_run).get whole_run_isSome).Framed :=
  telemetry_frames_whole 3 (Reach.of_exec whole_run .start (Option.some_get whole_run_isSome).symm)

/-- The tick comes after the first byte of the heartbeat. -/
def mixed_run : List WireStep :=
  [.telemetry_send heartbeat, .go (.task 3), .go (.task 3), .report .tick unblocked] ++
    List.replicate 15 (.go .tick) ++ List.replicate 14 (.go (.task 3))

theorem mixed_run_isSome : (execute (Wire.step 3) anything Wire.boot mixed_run).isSome = true := by
  decide +kernel

/-- The tick's own frame goes out behind the first byte of the heartbeat: when both calls have
returned, the wire begins with the output of neither. -/
theorem telemetry_frames_mixed :
    ∃ X, Reach (Wire.step 3) anything Wire.boot X ∧ ¬ X.Framed := by
  refine ⟨_, Reach.of_exec mixed_run .start (Option.some_get mixed_run_isSome).symm, ?_⟩
  have hidle : ∀ x ∈ SendCtx.tick :: (List.finRange COMPANION_CORE_MAX_CORES).map .task,
      (((execute (Wire.step 3) anything Wire.boot mixed_run).get mixed_run_isSome).pc x).isIdle =
        true := by decide +kernel
  have hprefix : ∀ out ∈ ((execute (Wire.step 3) anything Wire.boot mixed_run).get
      mixed_run_isSome).outputs, ¬ out <+: ((execute (Wire.step 3) anything Wire.boot mixed_run).get
      mixed_run_isSome).tx := by decide +kernel
  have htx : ((execute (Wire.step 3) anything Wire.boot mixed_run).get mixed_run_isSome).tx ≠ [] := by
    decide +kernel
  generalize (execute (Wire.step 3) anything Wire.boot mixed_run).get mixed_run_isSome = X at *
  rintro ⟨done, part, hwire, ⟨rfl, hperm⟩ | ⟨⟨x, todo, hx⟩, -⟩⟩
  · cases done with
    | nil => exact htx hwire
    | cons out done =>
      refine hprefix out (hperm.mem_iff.mp (List.mem_cons_self ..)) ⟨done.flatten, ?_⟩
      rw [hwire, List.append_nil]
      rfl
  · have hmem : x ∈ SendCtx.tick :: (List.finRange COMPANION_CORE_MAX_CORES).map .task := by
      cases x with
      | task i => exact List.mem_cons_of_mem _ (List.mem_map_of_mem (List.mem_finRange i))
      | tick => exact List.mem_cons_self ..
    have hi := hidle x hmem
    rw [hx] at hi
    cases hi

end Rpitos
