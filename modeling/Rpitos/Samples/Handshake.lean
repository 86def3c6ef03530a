import Rpitos.Samples.SharedCounter

/-!
# Samples.Handshake

`handshake_producer_task` and `handshake_consumer_task` of `multicore_full_demo`, over two semaphores
that start empty and hold one unit. What they print tells how far they have come.

`handshake_in_turn`: each batch is produced, processed, done and acknowledged before the next one is
produced, and the two tasks never wait for each other.
-/

namespace Rpitos

open Function StatusCode

/-- What the two tasks print. -/
inductive HandshakeLine where
  | produced (batch : UInt32)
  | processing (batch : UInt32)
  | done (batch : UInt32)
  | acked (batch : UInt32)
  deriving DecidableEq, Repr

inductive ProducerPc where
  | busy
  | churn
  | produced
  | give
  | take
  | acked
  | next
  deriving DecidableEq, Repr

inductive ConsumerPc where
  | take
  | processing
  | busy
  | churn
  | done
  | give
  | next
  deriving DecidableEq, Repr

structure ProducerTask where
  pc : ProducerPc
  batch : UInt32
  start : Nat

structure ConsumerTask where
  pc : ConsumerPc
  batch : UInt32
  start : Nat

inductive HandshakeTask where
  | producer (s : ProducerTask)
  | consumer (s : ConsumerTask)

/-- The two tasks and the two semaphores. -/
structure Handshake where
  producer : Tcb
  consumer : Tcb
  g_data_ready_sem : SemaphoreId
  g_processing_done_sem : SemaphoreId

namespace Handshake

variable (D : Handshake)

def handshake_producer_task (s : ProducerTask) : Instr HandshakeTask (List HandshakeLine) :=
  match s.pc with
  | .busy => .own fun _ now m => (m, .producer { s with start := now, pc := .churn })
  | .churn => .own fun _ now m =>
    (m, .producer (if busy_work_ms s.start now 700 = true then s else { s with pc := .produced }))
  | .produced => .own fun _ _ m => (m ++ [.produced s.batch], .producer { s with pc := .give })
  | .give => .call (.semaphore_give D.g_data_ready_sem) fun _ => .producer { s with pc := .take }
  | .take => .call (.semaphore_take D.g_processing_done_sem (-1)) fun _ =>
    .producer { s with pc := .acked }
  | .acked => .own fun _ _ m => (m ++ [.acked s.batch], .producer { s with pc := .next })
  | .next => .own fun _ _ m => (m, .producer { s with batch := s.batch + 1, pc := .busy })

def handshake_consumer_task (s : ConsumerTask) : Instr HandshakeTask (List HandshakeLine) :=
  match s.pc with
  | .take => .call (.semaphore_take D.g_data_ready_sem (-1)) fun _ =>
    .consumer { s with pc := .processing }
  | .processing => .own fun _ _ m => (m ++ [.processing s.batch], .consumer { s with pc := .busy })
  | .busy => .own fun _ now m => (m, .consumer { s with start := now, pc := .churn })
  | .churn => .own fun _ now m =>
    (m, .consumer (if busy_work_ms s.start now 1800 = true then s else { s with pc := .done }))
  | .done => .own fun _ _ m => (m ++ [.done s.batch], .consumer { s with pc := .give })
  | .give => .call (.semaphore_give D.g_processing_done_sem) fun _ =>
    .consumer { s with pc := .next }
  | .next => .own fun _ _ m => (m, .consumer { s with batch := s.batch + 1, pc := .take })

/-- Nobody else uses the two semaphores. -/
def program : Program HandshakeTask (List HandshakeLine) where
  code
    | .producer s => D.handshake_producer_task s
    | .consumer s => D.handshake_consumer_task s
  tasks t := t = D.producer || t = D.consumer
  entry t := if t = D.producer then .producer { pc := .busy, batch := 0, start := 0 }
    else .consumer { pc := .take, batch := 0, start := 0 }
  uses S a := S.touches D.g_data_ready_sem a || S.touches D.g_processing_done_sem a

end Handshake

/-! ## The round -/

/-- The `i`-th line. -/
def HandshakeLine.nth (i : Nat) : HandshakeLine :=
  match i % 4 with
  | 0 => .produced (UInt32.ofNat (i / 4))
  | 1 => .processing (UInt32.ofNat (i / 4))
  | 2 => .done (UInt32.ofNat (i / 4))
  | _ => .acked (UInt32.ofNat (i / 4))

theorem HandshakeLine.nth_round (b : Nat) : HandshakeLine.nth (4 * b) = .produced (UInt32.ofNat b) ∧
    HandshakeLine.nth (4 * b + 1) = .processing (UInt32.ofNat b) ∧
    HandshakeLine.nth (4 * b + 2) = .done (UInt32.ofNat b) ∧
    HandshakeLine.nth (4 * b + 3) = .acked (UInt32.ofNat b) := by
  unfold HandshakeLine.nth
  refine ⟨?_, ?_, ?_, ?_⟩
  · rw [show 4 * b % 4 = 0 by omega, show 4 * b / 4 = b by omega]; rfl
  · rw [show (4 * b + 1) % 4 = 1 by omega, show (4 * b + 1) / 4 = b by omega]; rfl
  · rw [show (4 * b + 2) % 4 = 2 by omega, show (4 * b + 2) / 4 = b by omega]; rfl
  · rw [show (4 * b + 3) % 4 = 3 by omega, show (4 * b + 3) / 4 = b by omega]; rfl

namespace ProducerPc

/-- Whether it has given in this round. -/
def given : ProducerPc → Nat
  | .take | .acked | .next => 1
  | _ => 0

/-- Whether it has been acknowledged. -/
def taken : ProducerPc → Nat
  | .acked | .next => 1
  | _ => 0

/-- How many lines it has printed. -/
def lines : ProducerPc → Nat
  | .give | .take | .acked => 1
  | .next => 2
  | _ => 0

end ProducerPc

namespace ConsumerPc

def taken : ConsumerPc → Nat
  | .take => 0
  | _ => 1

def given : ConsumerPc → Nat
  | .next => 1
  | _ => 0

def lines : ConsumerPc → Nat
  | .take | .processing => 0
  | .give | .next => 2
  | _ => 1

end ConsumerPc

/-- The units of the two semaphores. -/
structure HandshakeUnits where
  data_given : Nat
  data_taken : Nat
  acks_given : Nat
  acks_taken : Nat

/-- The producer is in its round `b`, and the consumer in its round `c`. -/
structure HandshakeInv (u : HandshakeUnits) (m : List HandshakeLine) (s : ProducerTask)
    (r : ConsumerTask) (b c : Nat) : Prop where
  produced_batch : s.batch = UInt32.ofNat b
  consumed_batch : r.batch = UInt32.ofNat c
  data_given : u.data_given = b + s.pc.given
  data_taken : u.data_taken = c + r.pc.taken
  acks_given : u.acks_given = c + r.pc.given
  acks_taken : u.acks_taken = b + s.pc.taken
  printed : m = (List.range (2 * (b + c) + s.pc.lines + r.pc.lines)).map HandshakeLine.nth

/-- Nothing is taken that was not given. -/
structure HandshakeUnits.Ordered (u : HandshakeUnits) : Prop where
  data : u.data_taken ≤ u.data_given
  acks : u.acks_taken ≤ u.acks_given

namespace HandshakeInv

variable {u : HandshakeUnits} {m : List HandshakeLine} {s : ProducerTask} {r : ConsumerTask}
  {b c : Nat} {D : Handshake}

/-- One more line. -/
theorem print {n : Nat} {line : HandshakeLine} (hm : m = (List.range n).map HandshakeLine.nth)
    (hline : HandshakeLine.nth n = line) :
    m ++ [line] = (List.range (n + 1)).map HandshakeLine.nth := by
  rw [List.range_succ, List.map_append, List.map_singleton, hm, hline]

/-- The bounds of a consumer's place. -/
theorem consumer_bounds (pc : ConsumerPc) : pc.given ≤ pc.taken ∧ pc.taken ≤ 1 ∧
    (pc.taken = 0 → pc.lines = 0) ∧ (pc.given = 1 → pc.lines = 2) := by
  cases pc <;> decide

theorem producer_bounds (pc : ProducerPc) : pc.taken ≤ pc.given ∧ pc.given ≤ 1 ∧
    (pc.given = 1 → pc.taken = 0 → pc.lines = 1) := by
  cases pc <;> decide

/-- A statement of the producer's own. -/
theorem producer_own {f : CoreId → Nat → List HandshakeLine → List HandshakeLine × HandshakeTask}
    (hi : HandshakeInv u m s r b c) (hu : u.Ordered)
    (hc : D.handshake_producer_task s = .own f) (core : CoreId) (now : Nat) :
    ∃ s' b', (f core now m).2 = .producer s' ∧ HandshakeInv u (f core now m).1 s' r b' c := by
  obtain ⟨h1, h2, h3, h4, h5, h6, h7⟩ := hi
  obtain ⟨hu1, hu2⟩ := hu
  obtain ⟨hb1, hb2, hb3, hb4⟩ := consumer_bounds r.pc
  unfold Handshake.handshake_producer_task at hc
  cases hpc : s.pc <;> rw [hpc] at hc <;> cases hc <;>
    simp only [hpc, ProducerPc.given, ProducerPc.taken, ProducerPc.lines] at h3 h6 h7
  case busy => exact ⟨_, b, rfl, h1, h2, h3, h4, h5, h6, h7⟩
  case churn =>
    refine ⟨_, b, rfl, ?_⟩
    split
    · exact ⟨h1, h2, by simp [hpc, ProducerPc.given, h3], h4, h5,
        by simp [hpc, ProducerPc.taken, h6], by simp [hpc, ProducerPc.lines, h7]⟩
    · exact ⟨h1, h2, h3, h4, h5, h6, h7⟩
  case produced =>
    -- all four counts are `b`
    refine ⟨_, b, rfl, h1, h2, h3, h4, h5, h6, ?_⟩
    have hn : 2 * (b + c) + 0 + r.pc.lines = 4 * b := by omega
    rw [show 2 * (b + c) + ProducerPc.lines .give + r.pc.lines = 4 * b + 1 by
      simp only [ProducerPc.lines]; omega]
    rw [hn] at h7
    exact print h7 ((HandshakeLine.nth_round b).1.trans (by rw [h1]))
  case acked =>
    refine ⟨_, b, rfl, h1, h2, h3, h4, h5, h6, ?_⟩
    have hn : 2 * (b + c) + 1 + r.pc.lines = 4 * b + 3 := by omega
    rw [show 2 * (b + c) + ProducerPc.lines .next + r.pc.lines = 4 * b + 3 + 1 by
      simp only [ProducerPc.lines]; omega]
    rw [hn] at h7
    exact print h7 ((HandshakeLine.nth_round b).2.2.2.trans (by rw [h1]))
  case next =>
    refine ⟨_, b + 1, rfl, ?_, h2, h3, h4, h5, h6, ?_⟩
    · rw [h1, UInt32.ofNat_add]; rfl
    · rw [h7]
      simp only [ProducerPc.lines]
      congr 2
      omega

/-- A statement of the consumer's own. -/
theorem consumer_own {f : CoreId → Nat → List HandshakeLine → List HandshakeLine × HandshakeTask}
    (hi : HandshakeInv u m s r b c) (hu : u.Ordered)
    (hc : D.handshake_consumer_task r = .own f) (core : CoreId) (now : Nat) :
    ∃ r' c', (f core now m).2 = .consumer r' ∧ HandshakeInv u (f core now m).1 s r' b c' := by
  obtain ⟨h1, h2, h3, h4, h5, h6, h7⟩ := hi
  obtain ⟨hu1, hu2⟩ := hu
  obtain ⟨hb1, hb2, hb3⟩ := producer_bounds s.pc
  unfold Handshake.handshake_consumer_task at hc
  cases hpc : r.pc <;> rw [hpc] at hc <;> cases hc <;>
    simp only [hpc, ConsumerPc.given, ConsumerPc.taken, ConsumerPc.lines] at h4 h5 h7
  case busy => exact ⟨_, c, rfl, h1, h2, h3, h4, h5, h6, h7⟩
  case churn =>
    refine ⟨_, c, rfl, ?_⟩
    split
    · exact ⟨h1, h2, h3, by simp [hpc, ConsumerPc.taken, h4],
        by simp [hpc, ConsumerPc.given, h5], h6, by simp [hpc, ConsumerPc.lines, h7]⟩
    · exact ⟨h1, h2, h3, h4, h5, h6, h7⟩
  case processing =>
    refine ⟨_, c, rfl, h1, h2, h3, h4, h5, h6, ?_⟩
    have hn : 2 * (b + c) + s.pc.lines + 0 = 4 * c + 1 := by omega
    rw [show 2 * (b + c) + s.pc.lines + ConsumerPc.lines .busy = 4 * c + 1 + 1 by
      simp only [ConsumerPc.lines]; omega]
    rw [hn] at h7
    exact print h7 ((HandshakeLine.nth_round c).2.1.trans (by rw [h2]))
  case done =>
    refine ⟨_, c, rfl, h1, h2, h3, h4, h5, h6, ?_⟩
    have hn : 2 * (b + c) + s.pc.lines + 1 = 4 * c + 2 := by omega
    rw [show 2 * (b + c) + s.pc.lines + ConsumerPc.lines .give = 4 * c + 2 + 1 by
      simp only [ConsumerPc.lines]; omega]
    rw [hn] at h7
    exact print h7 ((HandshakeLine.nth_round c).2.2.1.trans (by rw [h2]))
  case next =>
    refine ⟨_, c + 1, rfl, h1, ?_, h3, h4, h5, h6, ?_⟩
    · rw [h2, UInt32.ofNat_add]; rfl
    · rw [h7]
      simp only [ConsumerPc.lines]
      congr 2
      omega

/-- Before the producer gives, all that was given has been taken. -/
theorem producer_gives (hi : HandshakeInv u m s r b c) (hu : u.Ordered) (hpc : s.pc = .give) :
    u.data_given = u.data_taken ∧
      HandshakeInv { u with data_given := u.data_given + 1 } m { s with pc := .take } r b c := by
  obtain ⟨h1, h2, h3, h4, h5, h6, h7⟩ := hi
  obtain ⟨hu1, hu2⟩ := hu
  have hb := consumer_bounds r.pc
  simp only [hpc, ProducerPc.given, ProducerPc.taken, ProducerPc.lines] at h3 h6 h7
  exact ⟨by omega, h1, h2, by simp only [ProducerPc.given, h3], h4, h5, h6, h7⟩

theorem consumer_gives (hi : HandshakeInv u m s r b c) (hu : u.Ordered) (hpc : r.pc = .give) :
    u.acks_given = u.acks_taken ∧
      HandshakeInv { u with acks_given := u.acks_given + 1 } m s { r with pc := .next } b c := by
  obtain ⟨h1, h2, h3, h4, h5, h6, h7⟩ := hi
  obtain ⟨hu1, hu2⟩ := hu
  have hb := producer_bounds s.pc
  simp only [hpc, ConsumerPc.given, ConsumerPc.taken, ConsumerPc.lines] at h4 h5 h7
  exact ⟨by omega, h1, h2, h3, h4, by simp only [ConsumerPc.given, h5], h6, h7⟩

theorem producer_takes (hi : HandshakeInv u m s r b c) (hpc : s.pc = .take) :
    HandshakeInv { u with acks_taken := u.acks_taken + 1 } m { s with pc := .acked } r b c := by
  obtain ⟨h1, h2, h3, h4, h5, h6, h7⟩ := hi
  simp only [hpc, ProducerPc.given, ProducerPc.taken, ProducerPc.lines] at h3 h6 h7
  exact ⟨h1, h2, h3, h4, h5, by simp only [ProducerPc.taken, h6], h7⟩

theorem consumer_takes (hi : HandshakeInv u m s r b c) (hpc : r.pc = .take) :
    HandshakeInv { u with data_taken := u.data_taken + 1 } m s { r with pc := .processing } b c := by
  obtain ⟨h1, h2, h3, h4, h5, h6, h7⟩ := hi
  simp only [hpc, ConsumerPc.given, ConsumerPc.taken, ConsumerPc.lines] at h4 h5 h7
  exact ⟨h1, h2, h3, by simp only [ConsumerPc.taken, h4], h5, h6, h7⟩

end HandshakeInv

/-! ## Runs -/

namespace Handshake

variable {D : Handshake} {max_count initial_count : SemaphoreId → Nat}
  {X Y : Tasks HandshakeTask (List HandshakeLine)}

/-- Two tasks, and two semaphores as `kmain` sets them up. -/
structure Ready (D : Handshake) (max_count initial_count : SemaphoreId → Nat) : Prop where
  tasks : D.producer ≠ D.consumer
  semaphores : D.g_data_ready_sem ≠ D.g_processing_done_sem
  data : max_count D.g_data_ready_sem = 1 ∧ initial_count D.g_data_ready_sem = 0
  acks : max_count D.g_processing_done_sem = 1 ∧ initial_count D.g_processing_done_sem = 0

/-- The units given and taken, from the history. -/
def units (D : Handshake) (h : List Event) : HandshakeUnits where
  data_given := gives_ok D.g_data_ready_sem h
  data_taken := takes_ok D.g_data_ready_sem h
  acks_given := gives_ok D.g_processing_done_sem h
  acks_taken := takes_ok D.g_processing_done_sem h

def Inv (D : Handshake) (X : Tasks HandshakeTask (List HandshakeLine)) : Prop :=
  ∃ s r b c, X.place D.producer = .producer s ∧ X.place D.consumer = .consumer r ∧
    HandshakeInv (D.units X.history) X.mem s r b c

/-- Of a semaphore that starts empty, at most the units given have been taken; when all have been,
it is empty. -/
theorem units_of {smph : SemaphoreId} (hr : D.program.Reached max_count initial_count [] X)
    (hs : max_count smph = 1 ∧ initial_count smph = 0) :
    takes_ok smph X.history ≤ gives_ok smph X.history ∧
      (gives_ok smph X.history = takes_ok smph X.history →
        X.system.kernel.count smph < X.system.kernel.max_count smph) := by
  obtain ⟨A, -, hi⟩ := hr.take_inv (s := smph) (by omega)
  have hunits := hi.units
  have hmax := hi.max_eq
  exact ⟨by omega, fun h => by omega⟩

theorem ordered (hr : D.program.Reached max_count initial_count [] X)
    (hd : D.Ready max_count initial_count) : (D.units X.history).Ordered :=
  ⟨(units_of hr hd.data).1, (units_of hr hd.acks).1⟩

theorem producer_call {s : ProducerTask} {c : KernelCall} {k : StatusCode → HandshakeTask}
    (hc : D.handshake_producer_task s = .call c k) :
    s.pc = .give ∧ c = .semaphore_give D.g_data_ready_sem ∧
      (∀ code, k code = .producer { s with pc := .take }) ∨
    s.pc = .take ∧ c = .semaphore_take D.g_processing_done_sem (-1) ∧
      (∀ code, k code = .producer { s with pc := .acked }) := by
  unfold handshake_producer_task at hc
  cases hpc : s.pc <;> rw [hpc] at hc <;> cases hc <;> simp

theorem consumer_call {r : ConsumerTask} {c : KernelCall} {k : StatusCode → HandshakeTask}
    (hc : D.handshake_consumer_task r = .call c k) :
    r.pc = .give ∧ c = .semaphore_give D.g_processing_done_sem ∧
      (∀ code, k code = .consumer { r with pc := .next }) ∨
    r.pc = .take ∧ c = .semaphore_take D.g_data_ready_sem (-1) ∧
      (∀ code, k code = .consumer { r with pc := .processing }) := by
  unfold handshake_consumer_task at hc
  cases hpc : r.pc <;> rw [hpc] at hc <;> cases hc <;> simp

theorem tasks_cases {t : Tcb} (ht : D.program.tasks t = true) : t = D.producer ∨ t = D.consumer := by
  simpa [program] using ht

theorem uses_data (S : System Links) (b : Action) (h : D.program.uses S b = false) :
    S.touches D.g_data_ready_sem b = false :=
  (Bool.or_eq_false_iff.mp h).1

theorem uses_acks (S : System Links) (b : Action) (h : D.program.uses S b = false) :
    S.touches D.g_processing_done_sem b = false :=
  (Bool.or_eq_false_iff.mp h).2

/-- The units when a call has returned. -/
def after (D : Handshake) (u : HandshakeUnits) : KernelCall → HandshakeUnits
  | .semaphore_give smph =>
    if smph = D.g_data_ready_sem then { u with data_given := u.data_given + 1 }
    else { u with acks_given := u.acks_given + 1 }
  | .semaphore_take smph _ =>
    if smph = D.g_data_ready_sem then { u with data_taken := u.data_taken + 1 }
    else { u with acks_taken := u.acks_taken + 1 }
  | _ => u

/-- The calls of the two tasks; a give finds that all that was given has been taken. -/
def Calls (D : Handshake) (h : List Event) (c : KernelCall) : Prop :=
  ∃ smph, (smph = D.g_data_ready_sem ∨ smph = D.g_processing_done_sem) ∧
    (c = .semaphore_give smph ∧ gives_ok smph h = takes_ok smph h ∨ c = .semaphore_take smph (-1))

section Sections

variable {t : Tcb} {c : KernelCall} {k : StatusCode → HandshakeTask} {es : List Event}
  {S : System Links} (hr : D.program.Reached max_count initial_count [] X)
  (hd : D.Ready max_count initial_count)
include hr hd

/-- A section of such a call: it returns, or nothing is counted. -/
theorem units_section (hcall : D.Calls X.history c)
    (hin : X.system.call t = .own ∨ c.spans (X.system.call t))
    (hstep : X.system.step (Program.section_of X.system t c) = some (es, S)) :
    S.call t = .own ∧ D.units (X.history ++ es) = D.after (D.units X.history) c ∨
      S.call t ≠ .own ∧ D.units (X.history ++ es) = D.units X.history := by
  have hne := hd.semaphores
  obtain ⟨smph, hsmph, ⟨rfl, heq⟩ | rfl⟩ := hcall
  · have hempty : max_count smph = 1 ∧ initial_count smph = 0 := by
      rcases hsmph with rfl | rfl
      · exact hd.data
      · exact hd.acks
    obtain ⟨A, hs⟩ := hr.sim
    obtain ⟨hown, htakes, hgives⟩ := Program.section_give hin hstep X.history
    rw [Program.section_give_ok hs hin hstep ((units_of hr hempty).2 heq), if_pos rfl] at hgives
    have hother := fun s' (hs' : smph ≠ s') => Program.section_other (s := s') hin
      (by simpa [KernelCall.about] using hs') hstep X.history
    refine .inl ⟨hown, ?_⟩
    rcases hsmph with rfl | rfl
    · obtain ⟨hg, ht⟩ := hother _ hne
      simp only [units, after, if_pos, htakes, hgives, hg, ht]
    · obtain ⟨hg, ht⟩ := hother _ (Ne.symm hne)
      simp only [units, after, if_neg (Ne.symm hne), htakes, hgives, hg, ht]
  · obtain ⟨hgives, hcases⟩ := Program.section_take (by decide) hin hstep X.history
    have hother := fun s' (hs' : smph ≠ s') => Program.section_other (s := s') hin
      (by simpa [KernelCall.about] using hs') hstep X.history
    obtain ⟨hown, -, htakes⟩ | ⟨hown, htakes⟩ := hcases
    · refine .inl ⟨hown, ?_⟩
      rcases hsmph with rfl | rfl
      · obtain ⟨hg, ht⟩ := hother _ hne
        simp only [units, after, if_pos, htakes, hgives, hg, ht]
      · obtain ⟨hg, ht⟩ := hother _ (Ne.symm hne)
        simp only [units, after, if_neg (Ne.symm hne), htakes, hgives, hg, ht]
    · refine .inr ⟨hown, ?_⟩
      rcases hsmph with rfl | rfl
      · obtain ⟨hg, ht⟩ := hother _ hne
        simp only [units, htakes, hgives, hg, ht]
      · obtain ⟨hg, ht⟩ := hother _ (Ne.symm hne)
        simp only [units, htakes, hgives, hg, ht]

end Sections

/-- The producer's call, and what it leaves. -/
theorem producer_calls {s : ProducerTask} {r : ConsumerTask} {b n : Nat} {c : KernelCall}
    {k : StatusCode → HandshakeTask} {h : List Event} {m : List HandshakeLine}
    (hd : D.Ready max_count initial_count) (hi : HandshakeInv (D.units h) m s r b n)
    (hu : (D.units h).Ordered) (hc : D.handshake_producer_task s = .call c k) :
    D.Calls h c ∧ ∃ s', (∀ code, k code = .producer s') ∧
      HandshakeInv (D.after (D.units h) c) m s' r b n := by
  obtain ⟨hpc, rfl, hk⟩ | ⟨hpc, rfl, hk⟩ := producer_call hc
  · obtain ⟨heq, hnext⟩ := hi.producer_gives hu hpc
    refine ⟨⟨_, .inl rfl, .inl ⟨rfl, heq⟩⟩, _, hk, ?_⟩
    rw [after, if_pos rfl]
    exact hnext
  · refine ⟨⟨_, .inr rfl, .inr rfl⟩, _, hk, ?_⟩
    rw [after, if_neg (Ne.symm hd.semaphores)]
    exact hi.producer_takes hpc

theorem consumer_calls {s : ProducerTask} {r : ConsumerTask} {b n : Nat} {c : KernelCall}
    {k : StatusCode → HandshakeTask} {h : List Event} {m : List HandshakeLine}
    (hd : D.Ready max_count initial_count) (hi : HandshakeInv (D.units h) m s r b n)
    (hu : (D.units h).Ordered) (hc : D.handshake_consumer_task r = .call c k) :
    D.Calls h c ∧ ∃ r', (∀ code, k code = .consumer r') ∧
      HandshakeInv (D.after (D.units h) c) m s r' b n := by
  obtain ⟨hpc, rfl, hk⟩ | ⟨hpc, rfl, hk⟩ := consumer_call hc
  · obtain ⟨heq, hnext⟩ := hi.consumer_gives hu hpc
    refine ⟨⟨_, .inr rfl, .inl ⟨rfl, heq⟩⟩, _, hk, ?_⟩
    rw [after, if_neg (Ne.symm hd.semaphores)]
    exact hnext
  · refine ⟨⟨_, .inl rfl, .inr rfl⟩, _, hk, ?_⟩
    rw [after, if_pos rfl]
    exact hi.consumer_takes hpc

namespace Inv

variable (hd : D.Ready max_count initial_count)
include hd

/-- The producer moves on. -/
theorem producer_at {p : HandshakeTask} {s : ProducerTask} {r : ConsumerTask} {b c : Nat}
    {S : System Links} {h : List Event} {m : List HandshakeLine} (hp : p = .producer s)
    (hcons : X.place D.consumer = .consumer r) (hi : HandshakeInv (D.units h) m s r b c) :
    D.Inv { system := S, mem := m, place := update X.place D.producer p, history := h } := by
  refine ⟨s, r, b, c, ?_, ?_, hi⟩
  · simpa using hp
  · simpa [Ne.symm hd.tasks] using hcons

theorem consumer_at {p : HandshakeTask} {s : ProducerTask} {r : ConsumerTask} {b c : Nat}
    {S : System Links} {h : List Event} {m : List HandshakeLine} (hp : p = .consumer r)
    (hprod : X.place D.producer = .producer s) (hi : HandshakeInv (D.units h) m s r b c) :
    D.Inv { system := S, mem := m, place := update X.place D.consumer p, history := h } := by
  refine ⟨s, r, b, c, ?_, ?_, hi⟩
  · simpa [hd.tasks] using hprod
  · simpa using hp

/-- Each step keeps it. -/
theorem move {a : TaskAction} (hr : D.program.Reached max_count initial_count [] X) (hi : D.Inv X)
    (hm : D.program.Move X a Y) : D.Inv Y := by
  have hu := ordered hr hd
  obtain ⟨s, r, n, m, hprod, hcons, hinv⟩ := hi
  cases hm with
  | @own t f ht _ hc =>
    rcases tasks_cases ht with rfl | rfl
    · rw [hprod] at hc
      obtain ⟨s', n', hs', hinv'⟩ := hinv.producer_own hu hc _ _
      exact producer_at hd hs' hcons hinv'
    · rw [hcons] at hc
      obtain ⟨r', m', hr', hinv'⟩ := hinv.consumer_own hu hc _ _
      exact consumer_at hd hr' hprod hinv'
  | @call t c k es S ht _ hc hstep =>
    have hin := hr.in_calls.at_call ht hc
    rcases tasks_cases ht with rfl | rfl
    · rw [hprod] at hc
      obtain ⟨hcalls, s', hk, hnext⟩ := producer_calls hd hinv hu hc
      obtain ⟨hown, hunits⟩ | ⟨hown, hunits⟩ := units_section hr hd hcalls hin hstep
      · rw [if_pos hown]
        exact producer_at hd (hk _) hcons (hunits ▸ hnext)
      · rw [if_neg hown]
        exact ⟨s, r, n, m, hprod, hcons, hunits ▸ hinv⟩
    · rw [hcons] at hc
      obtain ⟨hcalls, r', hk, hnext⟩ := consumer_calls hd hinv hu hc
      obtain ⟨hown, hunits⟩ | ⟨hown, hunits⟩ := units_section hr hd hcalls hin hstep
      · rw [if_pos hown]
        exact consumer_at hd (hk _) hprod (hunits ▸ hnext)
      · rw [if_neg hown]
        exact ⟨s, r, n, m, hprod, hcons, hunits ▸ hinv⟩
  | @kernel b es S hf hstep =>
    have hdata := (step_about hstep (uses_data _ _ (Program.foreign_uses hf))).1
    have hacks := (step_about hstep (uses_acks _ _ (Program.foreign_uses hf))).1
    have hunits : D.units (X.history ++ es) = D.units X.history := by
      simp only [units, gives_ok_other hdata, takes_ok_other hdata, gives_ok_other hacks,
        takes_ok_other hacks]
    exact ⟨s, r, n, m, hprod, hcons, hunits ▸ hinv⟩

end Inv

theorem reached_inv (hr : D.program.Reached max_count initial_count [] X)
    (hd : D.Ready max_count initial_count) : D.Inv X := by
  refine hr.invariant ⟨_, _, 0, 0, if_pos rfl, if_neg (Ne.symm hd.tasks),
    ⟨rfl, rfl, rfl, rfl, rfl, rfl, rfl⟩⟩ fun hr hi hm => hi.move hd hr hm

/-! ## Nobody waits for the other -/

/-- Who is at a take of the data is the consumer, waiting for it, and who is at a take of the
acknowledgement is the producer. -/
theorem at_take {t : Tcb} {smph : SemaphoreId} {timeout_ms : Int} {k : StatusCode → HandshakeTask}
    (hd : D.Ready max_count initial_count) (hi : D.Inv X) (ht : D.program.tasks t = true)
    (hc : D.program.code (X.place t) = .call (.semaphore_take smph timeout_ms) k) :
    (smph = D.g_data_ready_sem → t = D.consumer ∧ ∃ r, X.place D.consumer = .consumer r ∧
      r.pc = .take) ∧
    (smph = D.g_processing_done_sem → t = D.producer ∧ ∃ s, X.place D.producer = .producer s ∧
      s.pc = .take) := by
  obtain ⟨s, r, n, m, hprod, hcons, -⟩ := hi
  rcases tasks_cases ht with rfl | rfl
  · rw [hprod] at hc
    obtain ⟨-, he, -⟩ | ⟨hpc, he, -⟩ := producer_call hc
    · cases he
    · cases he
      exact ⟨fun h => absurd h.symm hd.semaphores, fun _ => ⟨rfl, s, hprod, hpc⟩⟩
  · rw [hcons] at hc
    obtain ⟨-, he, -⟩ | ⟨hpc, he, -⟩ := consumer_call hc
    · cases he
    · cases he
      exact ⟨fun _ => ⟨rfl, r, hcons, hpc⟩, fun h => absurd h hd.semaphores⟩

/-- While a task waits, and only it takes the semaphore, all that was given has been taken. -/
theorem all_taken {smph : SemaphoreId} {t : Tcb}
    (hr : D.program.Reached max_count initial_count [] X)
    (hs : max_count smph = 1 ∧ initial_count smph = 0)
    (honly : ∀ u, takeStatus smph u X.history ≠ .out → u = t)
    (hw : (takeStatus smph t X.history).isWaiting = true) :
    gives_ok smph X.history = takes_ok smph X.history := by
  obtain ⟨A, -, hi⟩ := hr.take_inv (s := smph) (by omega)
  have hcount : X.system.kernel.count smph = 0 := hi.waiting t (by rw [← hi.status]; exact hw)
  have hhanded := Program.handed_units_alone honly
  have hunits := hi.units
  have hnot : (takeStatus smph t X.history).isHanded = false := by
    cases hst : takeStatus smph t X.history <;> simp [hst] at hw ⊢
  rw [hnot] at hhanded
  simp only [reduceCtorEq, if_false] at hhanded
  omega

/-- The two tasks do not both wait. -/
theorem not_both_wait (hr : D.program.Reached max_count initial_count [] X)
    (hd : D.Ready max_count initial_count)
    (hp : (takeStatus D.g_processing_done_sem D.producer X.history).isWaiting = true)
    (hc : (takeStatus D.g_data_ready_sem D.consumer X.history).isWaiting = true) : False := by
  have hi := reached_inv hr hd
  have hacks : ∀ u, takeStatus D.g_processing_done_sem u X.history ≠ .out → u = D.producer ∧
      ∃ s, X.place D.producer = .producer s ∧ s.pc = .take := fun u hu => by
    obtain ⟨ht, _, _, hk⟩ :=
      hr.at_take (fun S b h => .inl (uses_acks S b h)) (by have := hd.acks; omega) hu
    exact (at_take hd hi ht hk).2 rfl
  have hdata : ∀ u, takeStatus D.g_data_ready_sem u X.history ≠ .out → u = D.consumer ∧
      ∃ r, X.place D.consumer = .consumer r ∧ r.pc = .take := fun u hu => by
    obtain ⟨ht, _, _, hk⟩ :=
      hr.at_take (fun S b h => .inl (uses_data S b h)) (by have := hd.data; omega) hu
    exact (at_take hd hi ht hk).1 rfl
  have hack_units := all_taken hr hd.acks (fun u hu => (hacks u hu).1) hp
  have hdata_units := all_taken hr hd.data (fun u hu => (hdata u hu).1) hc
  obtain ⟨-, s', hs', hspc⟩ := hacks D.producer fun h => by simp [h] at hp
  obtain ⟨-, r', hr', hrpc⟩ := hdata D.consumer fun h => by simp [h] at hc
  obtain ⟨s, r, n, m, hprod, hcons, hinv⟩ := hi
  rw [hprod] at hs'
  cases hs'
  rw [hcons] at hr'
  cases hr'
  have h1 := hinv.data_given
  have h2 := hinv.data_taken
  have h3 := hinv.acks_given
  have h4 := hinv.acks_taken
  simp only [units, hspc, hrpc, ProducerPc.given, ProducerPc.taken, ConsumerPc.given,
    ConsumerPc.taken] at h1 h2 h3 h4
  omega

end Handshake

/-- What a user of `multicore_full_demo` sees of the handshake. -/
structure HandshakeSafe (D : Handshake) (X : Tasks HandshakeTask (List HandshakeLine)) : Prop where
  /-- Batch after batch: produced, processing, done, acked. -/
  lines : X.mem = (List.range X.mem.length).map HandshakeLine.nth
  /-- One of the two can go on. -/
  not_both_wait : ¬ ((takeStatus D.g_processing_done_sem D.producer X.history).isWaiting = true ∧
    (takeStatus D.g_data_ready_sem D.consumer X.history).isWaiting = true)

/-- In every run, whatever the rest of the system does, the two tasks take turns. -/
theorem handshake_in_turn {D : Handshake} {max_count initial_count : SemaphoreId → Nat}
    {X : Tasks HandshakeTask (List HandshakeLine)} (hd : D.Ready max_count initial_count)
    (hr : D.program.Reached max_count initial_count [] X) : HandshakeSafe D X := by
  refine ⟨?_, fun h => Handshake.not_both_wait hr hd h.1 h.2⟩
  obtain ⟨s, r, b, c, -, -, hinv⟩ := Handshake.reached_inv hr hd
  have hlen := congrArg List.length hinv.printed
  rw [List.length_map, List.length_range] at hlen
  rw [hlen]
  exact hinv.printed

/-! ## A run -/

/-- `t` runs on its core, alone in the highest ready list that is not empty, and nobody there waits
for a time. -/
structure Kernel.Alone (K : Kernel Links) (t : Tcb) : Prop where
  timed : K.lists.head (.blocked_task_list t.home) = none
  current : K.p_task_control_block t.home = some t
  running : K.current_state t = .RUNNING
  watermark : watermark_lost K t.home = false
  first : priorities_down.find?
    (fun p => decide (0 < K.lists.num_items (.ready_list t.home p))) = some (K.priority t)
  index : K.lists.index (.ready_list t.home (K.priority t)) = some (.state_list_item t)
  head : K.lists.head (.ready_list t.home (K.priority t)) = some (.state_list_item t)
  next : K.lists.next (.state_list_item t) = none

/-- The kernel at another tick of the core. -/
def Kernel.at_tick (K : Kernel Links) (c : CoreId) (now : Nat) : Kernel Links :=
  { K with tick_count := update K.tick_count c now }

theorem Kernel.Alone.at_tick {K : Kernel Links} {t : Tcb} (h : K.Alone t) (now : Nat) :
    (K.at_tick t.home now).Alone t :=
  ⟨h.timed, h.current, h.running, h.watermark, h.first, h.index, h.head, h.next⟩

theorem Kernel.at_tick_at_tick (K : Kernel Links) (c : CoreId) (now later : Nat) :
    (K.at_tick c now).at_tick c later = K.at_tick c later := by
  unfold Kernel.at_tick
  dsimp only
  rw [update_idem]

theorem Kernel.Alone.handler {K : Kernel Links} {t : Tcb} (h : K.Alone t) :
    timer_tick_handler K t.home = ([], K.at_tick t.home (u64 (K.tick_count t.home + 1))) := by
  unfold timer_tick_handler
  rw [show MAX_TCBS = 67 + 1 from rfl, expire_loop]
  rw [show ListOps.head (next_tick K t.home).lists (ListRef.blocked_task_list t.home) = none from
    h.timed]
  rfl

theorem Kernel.Alone.switch {K : Kernel Links} {t : Tcb} (h : K.Alone t) :
    scheduler_switch_context K t.home = K := by
  have hend : end_quantum K t.home =
      { K with current_state := update K.current_state t .READY } := by
    unfold end_quantum
    rw [h.current]
    dsimp only
    rw [if_pos h.running]
    have hlists : ListOps.advanceIndex K.lists (.ready_list t.home (K.priority t)) = K.lists := by
      show Heap.advanceIndex _ _ = _
      unfold Heap.advanceIndex
      rw [h.index]
      dsimp only
      rw [h.next, h.head, ← h.index, update_eq_self]
    rw [hlists]
  have hselect : select_next { K with current_state := update K.current_state t .READY } t.home = K := by
    unfold select_next
    dsimp only
    rw [show priorities_down.find? (fun p => decide (0 < ListOps.num_items K.lists
      (.ready_list t.home p))) = some (K.priority t) from h.first]
    dsimp only
    rw [show ListOps.index K.lists (.ready_list t.home (K.priority t)) =
      some (.state_list_item t) from h.index]
    show { K with
      current_state := update (update K.current_state t .READY) t .RUNNING
      p_task_control_block := update K.p_task_control_block t.home (some t) } = K
    rw [update_idem, ← h.running, update_eq_self, ← h.current, update_eq_self]
  unfold scheduler_switch_context
  rw [h.watermark, hend, hselect]
  rfl

theorem Kernel.Alone.tick {S : System Links} {t : Tcb} (h : S.kernel.Alone t) :
    S.tick t.home [] =
      ([], S.withKernel (S.kernel.at_tick t.home (u64 (S.kernel.tick_count t.home + 1)))) := by
  unfold System.tick
  rw [h.handler]
  dsimp only [System.gives, List.map_nil, List.append_nil]
  rw [System.withKernel_kernel, (h.at_tick _).switch]
  rfl

theorem Program.tick_step {P M : Type} (R : Program P M) {t : Tcb} {X : Tasks P M}
    (hforeign : R.foreign X.system (.tick t.home []) = true) (ha : X.system.kernel.Alone t)
    (hi : X.system.kernel.initialised t.home = true) (hh : X.system.kernel.hung t.home = false)
    (hlt : X.system.kernel.tick_count t.home + 1 < 2 ^ 64) :
    R.step X (.kernel (.tick t.home [])) = some { X with
      system := X.system.withKernel
        (X.system.kernel.at_tick t.home (X.system.kernel.tick_count t.home + 1)) } := by
  have hu : u64 (X.system.kernel.tick_count t.home + 1) = X.system.kernel.tick_count t.home + 1 :=
    Nat.mod_eq_of_lt hlt
  have hstep : X.system.step (.tick t.home []) = some (X.system.tick t.home []) :=
    if_pos ⟨hi, hh, .inr rfl⟩
  unfold Program.step
  dsimp only
  rw [if_pos hforeign, hstep, ha.tick, hu]
  simp

/-- Time passes. -/
theorem Program.ticks {P M : Type} (R : Program P M) {t : Tcb}
    (hforeign : ∀ S, R.foreign S (.tick t.home []) = true) (n : Nat) : ∀ X : Tasks P M,
    X.system.kernel.Alone t → X.system.kernel.initialised t.home = true →
    X.system.kernel.hung t.home = false → X.system.kernel.tick_count t.home + n < 2 ^ 64 →
    execute R.step anything X (List.replicate n (.kernel (.tick t.home []))) =
      some { X with
        system := X.system.withKernel
          (X.system.kernel.at_tick t.home (X.system.kernel.tick_count t.home + n)) } := by
  induction n with
  | zero =>
    intro X _ _ _ _
    have hnow : X.system.kernel.at_tick t.home (X.system.kernel.tick_count t.home + 0) =
        X.system.kernel := by
      unfold Kernel.at_tick
      rw [Nat.add_zero, update_eq_self]
    rw [hnow]
    rfl
  | succ n ih =>
    intro X ha hi hh hn
    have hstep := R.tick_step (hforeign _) ha hi hh (by omega)
    have hnow : (X.system.kernel.at_tick t.home (X.system.kernel.tick_count t.home + 1)).tick_count
        t.home = X.system.kernel.tick_count t.home + 1 := update_self ..
    have hlt : (X.system.kernel.at_tick t.home (X.system.kernel.tick_count t.home + 1)).tick_count
        t.home + n < 2 ^ 64 := by
      rw [hnow]
      omega
    have hlater : (X.system.kernel.at_tick t.home (X.system.kernel.tick_count t.home + 1)).at_tick
        t.home (X.system.kernel.tick_count t.home + 1 + n) =
          X.system.kernel.at_tick t.home (X.system.kernel.tick_count t.home + (n + 1)) := by
      rw [Nat.add_assoc, Nat.add_comm 1 n]
      exact Kernel.at_tick_at_tick ..
    have hrest := ih { X with
      system := X.system.withKernel
        (X.system.kernel.at_tick t.home (X.system.kernel.tick_count t.home + 1)) }
      (ha.at_tick _) hi hh hlt
    rw [List.replicate_succ, execute_cons hstep, hrest]
    dsimp only [System.withKernel_kernel]
    rw [hnow, hlater]
    rfl

/-- The consumer waits on its core, and the producer begins to work on its first batch. -/
def work_and_wait : List TaskAction :=
  [.kernel (.scheduler_init 0), .kernel (.task_create 0 100 1), .kernel (.scheduler_start 0),
   .kernel (.scheduler_init 1), .kernel (.task_create 1 100 1), .kernel (.scheduler_start 1),
   .run (.pool 1 0), .run (.pool 1 0), .run (.pool 0 0)]

def shake_two_cores : Handshake := ⟨.pool 0 0, .pool 1 0, 0, 1⟩

theorem work_and_wait_run :
    (execute shake_two_cores.program.step anything
      (shake_two_cores.program.boot (fun _ => 1) (fun _ => 0) []) work_and_wait).isSome = true := by
  rfl

/-- The batch is worked on. -/
def at_work : Tasks HandshakeTask (List HandshakeLine) :=
  (execute shake_two_cores.program.step anything
    (shake_two_cores.program.boot (fun _ => 1) (fun _ => 0) []) work_and_wait).get work_and_wait_run

theorem at_work_alone : at_work.system.kernel.Alone (.pool 0 0) :=
  ⟨by rfl, by rfl, by rfl, by rfl, by rfl, by rfl, by rfl, by rfl⟩

/-- 700 ticks later the first line is printed. -/
theorem handshake_in_turn_first_batch : ∃ X,
    execute shake_two_cores.program.step anything
      (shake_two_cores.program.boot (fun _ => 1) (fun _ => 0) [])
      (work_and_wait ++ (List.replicate 700 (.kernel (.tick 0 [])) ++
        [.run (.pool 0 0), .run (.pool 0 0)])) = some X ∧
      X.mem = [.produced 0] ∧ HandshakeSafe shake_two_cores X := by
  have hbegin : execute shake_two_cores.program.step anything
      (shake_two_cores.program.boot (fun _ => 1) (fun _ => 0) []) work_and_wait = some at_work :=
    (Option.some_get work_and_wait_run).symm
  let later : Tasks HandshakeTask (List HandshakeLine) := { at_work with
    system := at_work.system.withKernel
      (at_work.system.kernel.at_tick 0 (at_work.system.kernel.tick_count 0 + 700)) }
  have hticks : execute shake_two_cores.program.step anything at_work
      (List.replicate 700 (.kernel (.tick 0 []))) = some later :=
    shake_two_cores.program.ticks (t := .pool 0 0) (fun _ => rfl) 700 at_work at_work_alone rfl rfl
      (by decide +kernel)
  have hprint : (execute shake_two_cores.program.step anything later
      [.run (.pool 0 0), .run (.pool 0 0)]).map (fun X => X.mem) = some [.produced 0] := by
    decide +kernel
  obtain ⟨X, hX, hmem⟩ := Option.map_eq_some_iff.mp hprint
  have hrun : execute shake_two_cores.program.step anything
      (shake_two_cores.program.boot (fun _ => 1) (fun _ => 0) [])
      (work_and_wait ++ (List.replicate 700 (.kernel (.tick 0 [])) ++
        [.run (.pool 0 0), .run (.pool 0 0)])) = some X := by
    rw [execute_append, hbegin, Option.bind_some, execute_append, hticks, Option.bind_some]
    exact hX
  exact ⟨X, hrun, hmem, handshake_in_turn ⟨by decide, by decide, by decide, by decide⟩
    (Reach.of_exec _ .start hrun)⟩

end Rpitos
