import Rpitos.Lib.Reach
import Rpitos.Kernel.Touches

/-!
# Kernel.Programs

Tasks with their own code, over the kernel. A program is what some tasks run: an instruction is a
call of the kernel, or something the task does with the memory that the tasks share. A step of a run
is one instruction of one of them, the next section of the call that one of them is in, or a step of
the kernel by the rest of the system, which leaves the program's objects alone.

A run of a program makes a run of the kernel (`Reached.run`), so that what the kernel promises of its
objects holds for the program too.
-/

namespace Rpitos

open Function StatusCode ListOps

/-- A call of the kernel. -/
inductive KernelCall where
  | mutex_lock (mtx : MutexId) (timeout_ms : Int)
  | mutex_unlock (mtx : MutexId)
  | semaphore_take (smph : SemaphoreId) (timeout_ms : Int)
  | semaphore_give (smph : SemaphoreId)
  | task_delay_ms (ticks : Nat)
  deriving DecidableEq, Repr

namespace KernelCall

def action (t : Tcb) : KernelCall → Action
  | .mutex_lock mtx timeout_ms => .mutex_lock t mtx timeout_ms
  | .mutex_unlock mtx => .mutex_unlock t mtx
  | .semaphore_take smph timeout_ms => .semaphore_take t smph timeout_ms
  | .semaphore_give smph => .semaphore_give smph
  | .task_delay_ms ticks => .task_delay_ms t ticks

/-- Where a task may be inside the call. -/
def spans : KernelCall → Call → Prop
  | .mutex_lock mtx timeout_ms, k => k = .mutex_lock mtx timeout_ms
  | .semaphore_take smph timeout_ms, k => ∃ deadline,
      k = .semaphore_take smph timeout_ms deadline ∨ k = .semaphore_wait smph timeout_ms deadline
  | .task_delay_ms _, k => k = .delayed ∨ ∃ wakeup_time, k = .block_until wakeup_time
  | .mutex_unlock _, _ => False
  | .semaphore_give _, _ => False

end KernelCall

/-- The semaphore the call is about. -/
def KernelCall.about : KernelCall → Option SemaphoreId
  | .semaphore_take smph _ => some smph
  | .semaphore_give smph => some smph
  | _ => none

/-- What the event returns to `t`, when it is `t` that acts. -/
def Event.code (t : Tcb) : Event → Option StatusCode
  | .lock_returns u _ code => if u = t then some code else none
  | .take_returns u _ code => if u = t then some code else none
  | .give_returns _ code => some code
  | _ => none

/-- What a call returned; `mutex_unlock` and `task_delay_ms` return nothing. -/
def returned (t : Tcb) (es : List Event) : StatusCode := (es.findSome? (Event.code t)).getD E_OK

/-- An instruction of a task in the local state `P`. -/
inductive Instr (P M : Type) where
  /-- The task's own: it may look at the id and the tick count of its core. -/
  | own (f : CoreId → Nat → M → M × P)
  | call (c : KernelCall) (k : StatusCode → P)

/-- What some tasks run. -/
structure Program (P M : Type) where
  code : P → Instr P M
  /-- The tasks that run it, and where they begin. -/
  tasks : Tcb → Bool
  entry : Tcb → P
  /-- The steps that use the program's objects. -/
  uses : System Links → Action → Bool

/-- The kernel, and the tasks of a program. -/
structure Tasks (P M : Type) where
  system : System Links
  mem : M
  place : Tcb → P
  /-- The events so far. -/
  history : List Event

inductive TaskAction where
  | run (tcb : Tcb)
  /-- A step of the rest of the system. -/
  | kernel (a : Action)
  deriving DecidableEq, Repr

variable {P M : Type}

namespace Program

variable (R : Program P M)

/-- The steps that the rest of the system may take. -/
def foreign (S : System Links) (a : Action) : Bool :=
  (match a.caller with | some t => !R.tasks t | none => true) && !R.uses S a

/-- The step of the kernel with which `t` goes on in the call `c`. -/
def section_of (S : System Links) (t : Tcb) (c : KernelCall) : Action :=
  if S.call t = .own then c.action t else .proceed t

/-- One step, `none` where it is not possible. -/
def step (X : Tasks P M) : TaskAction → Option (Tasks P M)
  | .run t =>
    if R.tasks t = true ∧ X.system.kernel.runs t = true then
      match R.code (X.place t) with
      | .own f =>
        let r := f t.home (X.system.kernel.tick_count t.home) X.mem
        some { X with mem := r.1, place := update X.place t r.2 }
      | .call c k =>
        match X.system.step (section_of X.system t c) with
        | some (es, S) => some { X with
            system := S
            history := X.history ++ es
            place := if S.call t = .own then update X.place t (k (returned t es)) else X.place }
        | none => none
    else none
  | .kernel a =>
    if R.foreign X.system a = true then
      match X.system.step a with
      | some (es, S) => some { X with system := S, history := X.history ++ es }
      | none => none
    else none

/-- Before the scheduler starts. -/
def boot (max_count initial_count : SemaphoreId → Nat) (mem : M) : Tasks P M where
  system := Rpitos.boot max_count initial_count
  mem := mem
  place := R.entry
  history := []

/-- A step, with what made it possible. -/
inductive Move (X : Tasks P M) : TaskAction → Tasks P M → Prop
  | own {t : Tcb} {f : CoreId → Nat → M → M × P} (ht : R.tasks t = true)
      (hr : X.system.kernel.runs t = true) (hc : R.code (X.place t) = .own f) :
      Move X (.run t) { X with
        mem := (f t.home (X.system.kernel.tick_count t.home) X.mem).1
        place := update X.place t (f t.home (X.system.kernel.tick_count t.home) X.mem).2 }
  | call {t : Tcb} {c : KernelCall} {k : StatusCode → P} {es : List Event} {S : System Links}
      (ht : R.tasks t = true) (hr : X.system.kernel.runs t = true)
      (hc : R.code (X.place t) = .call c k)
      (hstep : X.system.step (section_of X.system t c) = some (es, S)) :
      Move X (.run t) { X with
        system := S
        history := X.history ++ es
        place := if S.call t = .own then update X.place t (k (returned t es)) else X.place }
  | kernel {a : Action} {es : List Event} {S : System Links} (hf : R.foreign X.system a = true)
      (hstep : X.system.step a = some (es, S)) :
      Move X (.kernel a) { X with system := S, history := X.history ++ es }

variable {R} {X Y : Tasks P M} {a : TaskAction}

theorem step_move (h : R.step X a = some Y) : R.Move X a Y := by
  unfold step at h
  cases a with
  | run t =>
    obtain ⟨⟨ht, hr⟩, h⟩ := Option.ite_none_right_eq_some.mp h
    cases hc : R.code (X.place t) with
    | own f =>
      rw [hc] at h
      cases h
      exact .own ht hr hc
    | call c k =>
      rw [hc] at h
      dsimp only at h
      cases hs : X.system.step (section_of X.system t c) with
      | none => rw [hs] at h; cases h
      | some r =>
        rw [hs] at h
        cases h
        exact .call ht hr hc hs
  | kernel a =>
    obtain ⟨hf, h⟩ := Option.ite_none_right_eq_some.mp h
    cases hs : X.system.step a with
    | none => rw [hs] at h; cases h
    | some r =>
      rw [hs] at h
      cases h
      exact .kernel hf hs

/-! ### Where the tasks are -/

section Sections

variable {S S' : System Links} {t u : Tcb} {c : KernelCall} {es : List Event} {s : SemaphoreId}

theorem action_caller (t : Tcb) (c : KernelCall) :
    (c.action t).caller = some t ∨ (c.action t).caller = none := by
  cases c <;> simp [KernelCall.action, Action.caller]

theorem section_caller (hut : u ≠ t) : (section_of S t c).caller ≠ some u := by
  unfold section_of
  split
  · rcases action_caller t c with h | h <;> rw [h] <;> simp [Ne.symm hut]
  · simp [Action.caller, Ne.symm hut]

/-- The section with which a call begins, or a later one. -/
theorem section_cases (hin : S.call t = .own ∨ c.spans (S.call t))
    (hstep : S.step (section_of S t c) = some (es, S')) :
    S.call t = .own ∧ S.Move (c.action t) es S' ∨
      c.spans (S.call t) ∧ S.Proceeds t es S' := by
  unfold section_of at hstep
  by_cases ho : S.call t = .own
  · rw [if_pos ho] at hstep
    exact .inl ⟨ho, System.step_move hstep⟩
  · rw [if_neg ho] at hstep
    obtain ⟨-, hp⟩ := Option.ite_none_right_eq_some.mp hstep
    exact .inr ⟨hin.resolve_left ho, System.proceeds hp⟩

/-- A section of a call leaves the task inside it, or back in its own code. -/
theorem section_spans (hin : S.call t = .own ∨ c.spans (S.call t))
    (hstep : S.step (section_of S t c) = some (es, S')) :
    S'.call t = .own ∨ c.spans (S'.call t) := by
  rcases section_cases hin hstep with ⟨ho, hm⟩ | ⟨hc, hp⟩
  · cases c with
    | mutex_lock mtx timeout_ms =>
      cases hm
      unfold System.lock
      rcases mutex_lock S.kernel mtx t timeout_ms with ⟨_ | code, K⟩
      · exact .inr (update_self ..)
      · exact .inl ho
    | mutex_unlock mtx => cases hm; exact .inl ho
    | semaphore_take smph timeout_ms => cases hm; exact .inr ⟨_, .inl (update_self ..)⟩
    | semaphore_give smph => cases hm; exact .inl ho
    | task_delay_ms ticks => cases hm; exact .inr (.inr ⟨_, update_self ..⟩)
  · cases hp with
    | block_until hk =>
      cases c <;> simp [KernelCall.spans, hk] at hc ⊢
    | delayed _ => exact .inl (update_self ..)
    | mutex_lock _ => exact .inl (update_self ..)
    | @semaphore_take s timeout_ms deadline hk =>
      unfold System.take
      rcases semaphore_take S.kernel s t timeout_ms deadline with ⟨_ | code, K⟩
      · right
        cases c <;> simp [KernelCall.spans, hk] at hc ⊢
        exact hc
      · exact .inl (update_self ..)
    | @semaphore_wait s timeout_ms deadline hk =>
      unfold System.takeWake
      rcases semaphore_take_wake S.kernel t with ⟨_ | _, K⟩
      · right
        cases c <;> simp [KernelCall.spans, hk] at hc ⊢
        exact hc
      · exact .inl (update_self ..)

/-- Inside a call about another semaphore nothing is said about this one. -/
theorem section_other (hin : S.call t = .own ∨ c.spans (S.call t)) (hc : c.about ≠ some s)
    (hstep : S.step (section_of S t c) = some (es, S')) (h : List Event) :
    gives_ok s (h ++ es) = gives_ok s h ∧ takes_ok s (h ++ es) = takes_ok s h := by
  have ht : S.touches s (section_of S t c) = false := by
    unfold section_of
    split
    · cases c <;> simp_all [KernelCall.action, System.touches, KernelCall.about]
    · rename_i ho
      have hspans := hin.resolve_left ho
      cases c with
      | mutex_lock m ms => simp [System.touches, show S.call t = _ from hspans, Call.about]
      | mutex_unlock m => exact hspans.elim
      | semaphore_take s' ms =>
        obtain ⟨d, hk | hk⟩ := hspans <;>
          simpa [System.touches, hk, Call.about, KernelCall.about] using hc
      | semaphore_give s' => exact hspans.elim
      | task_delay_ms ticks =>
        obtain hk | ⟨w, hk⟩ := hspans <;> simp [System.touches, hk, Call.about]
  have hn := (step_about hstep ht).1
  exact ⟨gives_ok_other hn, takes_ok_other hn⟩

theorem returned_give (S : System Links) (t : Tcb) (s : SemaphoreId) :
    returned t (S.give s).1 = (semaphore_give S.kernel s).1 := by
  unfold System.give
  dsimp only
  cases (semaphore_give S.kernel s).2.1 <;> rfl

/-- A give is one section. -/
theorem section_give_eq
    (hin : S.call t = .own ∨ (KernelCall.semaphore_give s).spans (S.call t))
    (hstep : S.step (section_of S t (.semaphore_give s)) = some (es, S')) :
    S.call t = .own ∧ S.give s = (es, S') := by
  have ho : S.call t = .own := hin.resolve_right id
  unfold section_of at hstep
  rw [if_pos ho] at hstep
  exact ⟨ho, Option.some.inj hstep⟩

/-- What a give does to the units. -/
theorem give_units (S : System Links) (s : SemaphoreId) (h : List Event) :
    takes_ok s (h ++ (S.give s).1) = takes_ok s h ∧
      gives_ok s (h ++ (S.give s).1) =
        gives_ok s h + (if (semaphore_give S.kernel s).1 = E_OK then 1 else 0) := by
  by_cases hok : (semaphore_give S.kernel s).1 = E_OK
  · obtain ⟨hg, ht⟩ := give_history h hok
    rw [if_pos hok]
    exact ⟨ht s, hg⟩
  · rw [if_neg hok]
    unfold System.give
    dsimp only
    refine ⟨?_, ?_⟩
    · cases (semaphore_give S.kernel s).2.1 <;>
        simp [takes_ok, List.countP_append]
    · cases (semaphore_give S.kernel s).2.1 <;>
        simp [gives_ok, List.count_append, hok]

theorem section_give (hin : S.call t = .own ∨ (KernelCall.semaphore_give s).spans (S.call t))
    (hstep : S.step (section_of S t (.semaphore_give s)) = some (es, S')) (h : List Event) :
    S'.call t = .own ∧ takes_ok s (h ++ es) = takes_ok s h ∧
      gives_ok s (h ++ es) = gives_ok s h + (if returned t es = E_OK then 1 else 0) := by
  obtain ⟨ho, hgive⟩ := section_give_eq hin hstep
  obtain rfl : (S.give s).1 = es := congrArg Prod.fst hgive
  obtain rfl : (S.give s).2 = S' := congrArg Prod.snd hgive
  rw [returned_give]
  exact ⟨ho, give_units S s h⟩

/-- The units in the hands of the only taker. -/
theorem handed_units_alone {h : List Event} (honly : ∀ u, takeStatus s u h ≠ .out → u = t) :
    handed_units s h = if (takeStatus s t h).isHanded = true then 1 else 0 := by
  unfold handed_units count_tasks
  have hall : ∀ u, (takeStatus s u h).isHanded = true → u = t := fun u hu =>
    honly u fun hout => by rw [hout] at hu; cases hu
  by_cases ht : (takeStatus s t h).isHanded = true
  · rw [if_pos ht, Finset.card_eq_one]
    refine ⟨t, Finset.ext fun u => ?_⟩
    rw [Finset.mem_filter, Finset.mem_singleton]
    exact ⟨fun hu => hall u hu.2, fun hu => ⟨Finset.mem_univ u, hu ▸ ht⟩⟩
  · rw [if_neg ht, Finset.card_eq_zero, Finset.filter_eq_empty_iff]
    intro u _ hu
    exact ht (hall u hu ▸ hu)

/-- It counts, unless the semaphore is full. -/
theorem section_give_ok {A : System Sequences} (hs : SSim S A grounded)
    (hin : S.call t = .own ∨ (KernelCall.semaphore_give s).spans (S.call t))
    (hstep : S.step (section_of S t (.semaphore_give s)) = some (es, S'))
    (hfull : S.kernel.count s < S.kernel.max_count s) : returned t es = E_OK := by
  obtain ⟨-, hgive⟩ := section_give_eq hin hstep
  obtain rfl : (S.give s).1 = es := congrArg Prod.fst hgive
  rw [returned_give]
  obtain ⟨w, xs, lists, -, he⟩ | ⟨-, -, he⟩ | ⟨-, hn, -⟩ := semaphore_give_effect hs.kernel s
  · rw [he]
  · rw [he]
  · exact absurd hfull hn

/-- What a take without a time-out does to the units: when it returns, it has one. -/
theorem section_take {timeout_ms : Int} (hms : timeout_ms < 0)
    (hin : S.call t = .own ∨ (KernelCall.semaphore_take s timeout_ms).spans (S.call t))
    (hstep : S.step (section_of S t (.semaphore_take s timeout_ms)) = some (es, S'))
    (h : List Event) :
    gives_ok s (h ++ es) = gives_ok s h ∧
      (S'.call t = .own ∧ returned t es = E_OK ∧ takes_ok s (h ++ es) = takes_ok s h + 1 ∨
        S'.call t ≠ .own ∧ takes_ok s (h ++ es) = takes_ok s h) := by
  unfold section_of at hstep
  by_cases ho : S.call t = .own
  · rw [if_pos ho] at hstep
    obtain ⟨-, hstep⟩ := Option.ite_none_right_eq_some.mp hstep
    cases hstep
    exact ⟨by simp [gives_ok_concat], .inr ⟨by simp, by simp [takes_ok_concat]⟩⟩
  · rw [if_neg ho] at hstep
    obtain ⟨-, hp⟩ := Option.ite_none_right_eq_some.mp hstep
    have hforever : (S.call t).takes_forever s := by
      obtain ⟨d, hk | hk⟩ := hin.resolve_left ho <;> rw [hk] <;> exact ⟨rfl, hms⟩
    obtain ⟨rfl, hcall⟩ | ⟨hes, k, hk, -, hcall⟩ := proceed_forever hp hforever
    · refine ⟨by simp [gives_ok_concat], .inl ⟨by rw [hcall, update_self], ?_, ?_⟩⟩
      · simp [returned, Event.code]
      · simp [takes_ok_concat]
    · have hne : S'.call t ≠ .own := by
        rw [hcall, update_self]
        rintro rfl
        exact hk
      rcases hes with rfl | rfl
      · exact ⟨by simp [gives_ok_concat], .inr ⟨hne, by simp [takes_ok_concat]⟩⟩
      · exact ⟨by simp, .inr ⟨hne, by simp⟩⟩

end Sections

/-! ### Runs -/

/-- The states that the program reaches. -/
def Reached (R : Program P M) (max_count initial_count : SemaphoreId → Nat) (mem : M)
    (X : Tasks P M) : Prop :=
  Reach R.step anything (R.boot max_count initial_count mem) X

/-- A task is in its own code, or inside the call it is at. -/
def InCalls (R : Program P M) (X : Tasks P M) : Prop :=
  ∀ t, R.tasks t = true → X.system.call t ≠ .own →
    ∃ c k, R.code (X.place t) = .call c k ∧ c.spans (X.system.call t)

theorem InCalls.at_call {t : Tcb} {c : KernelCall} {k : StatusCode → P} (hi : InCalls R X)
    (ht : R.tasks t = true) (hc : R.code (X.place t) = .call c k) :
    X.system.call t = .own ∨ c.spans (X.system.call t) := by
  by_cases ho : X.system.call t = .own
  · exact .inl ho
  · obtain ⟨c', k', hc', hspans⟩ := hi t ht ho
    rw [hc] at hc'
    cases hc'
    exact .inr hspans

theorem foreign_caller {S : System Links} {b : Action} (hf : R.foreign S b = true) {t : Tcb}
    (ht : R.tasks t = true) : b.caller ≠ some t := by
  intro hb
  simp [foreign, hb, ht] at hf

theorem foreign_uses {S : System Links} {b : Action} (hf : R.foreign S b = true) :
    R.uses S b = false := by
  unfold foreign at hf
  simpa using (Bool.and_eq_true_iff.mp hf).2

theorem InCalls.move (hi : InCalls R X) (hm : R.Move X a Y) : InCalls R Y := by
  intro u hu hcall
  cases hm with
  | @own t f ht hr hc =>
    dsimp only at hcall ⊢
    by_cases hut : u = t
    · subst hut
      obtain ⟨c, k, hc', -⟩ := hi u hu hcall
      rw [hc] at hc'
      cases hc'
    · obtain ⟨c, k, hc', hspans⟩ := hi u hu hcall
      exact ⟨c, k, by rw [update_of_ne hut]; exact hc', hspans⟩
  | @call t c k es S ht hr hc hstep =>
    dsimp only at hcall ⊢
    by_cases hut : u = t
    · subst hut
      rw [if_neg hcall]
      exact ⟨c, k, hc, (section_spans (hi.at_call ht hc) hstep).resolve_left hcall⟩
    · rw [step_call hstep (section_caller hut)] at hcall ⊢
      obtain ⟨c', k', hc', hspans⟩ := hi u hu hcall
      refine ⟨c', k', ?_, hspans⟩
      split
      · rw [update_of_ne hut]; exact hc'
      · exact hc'
  | kernel hf hstep =>
    dsimp only at hcall ⊢
    rw [step_call hstep (foreign_caller hf hu)] at hcall ⊢
    exact hi u hu hcall

namespace Reached

variable {max_count initial_count : SemaphoreId → Nat} {mem : M}

/-- What holds at boot, and is kept by every step, holds in every reachable state. -/
theorem invariant {I : Tasks P M → Prop} (hr : R.Reached max_count initial_count mem X)
    (h₀ : I (R.boot max_count initial_count mem))
    (hmove : ∀ {X Y a}, R.Reached max_count initial_count mem X → I X → R.Move X a Y → I Y) :
    I X := by
  induction hr with
  | start => exact h₀
  | step hr _ hs ih => exact hmove hr ih (step_move hs)

theorem in_calls (hr : R.Reached max_count initial_count mem X) : InCalls R X :=
  hr.invariant (fun _ _ h => absurd rfl h) (fun _ hi hm => hi.move hm)

/-- The kernel has made a run of its own. -/
theorem run (hr : R.Reached max_count initial_count mem X) :
    Run anyStep (Rpitos.boot max_count initial_count) X.history X.system := by
  refine hr.invariant (I := fun X => Run anyStep (Rpitos.boot max_count initial_count) X.history
    X.system) .start fun _ hi hm => ?_
  cases hm with
  | own _ _ _ => exact hi
  | call _ _ _ hstep => exact hi.step trivial hstep
  | kernel _ hstep => exact hi.step trivial hstep

theorem sim (hr : R.Reached max_count initial_count mem X) : ∃ A, SSim X.system A grounded := by
  obtain ⟨A, -, hs⟩ := hr.run.sim anyStep fun _ _ _ => trivial
  exact ⟨A, hs⟩

/-- What the kernel promises of a semaphore of the program. -/
theorem take_inv (hr : R.Reached max_count initial_count mem X) {s : SemaphoreId}
    (hle : initial_count s ≤ max_count s) : ∃ A, SSim X.system A grounded ∧
      TakeInv (max_count s) (initial_count s) X.system A s X.history :=
  hr.run.takeInv hle

/-- Only tasks of the program are in calls about a semaphore that nobody else takes. -/
theorem only_tasks (hr : R.Reached max_count initial_count mem X) {s : SemaphoreId}
    (huses : ∀ S b, R.uses S b = false → S.touches s b = false ∨ b = .semaphore_give s) :
    ∀ u, (X.system.call u).about = some s → R.tasks u = true := by
  refine hr.invariant (I := fun X => ∀ u, (X.system.call u).about = some s → R.tasks u = true)
    (fun _ h => by cases h) fun {X Y a} _ hi hm => ?_
  cases hm with
  | own _ _ _ => exact hi
  | @call t c k es S ht _ _ hstep =>
    intro u hu
    by_cases hut : u = t
    · rw [hut]; exact ht
    · rw [step_call hstep (section_caller hut)] at hu
      exact hi u hu
  | kernel hf hstep =>
    intro u hu
    rcases huses _ _ (foreign_uses hf) with h | rfl
    · exact hi u (((step_about hstep h).2 u).mp hu)
    · rw [step_call hstep (by simp [Action.caller])] at hu
      exact hi u hu

/-- Whoever takes a semaphore that nobody else takes is at a take of it. -/
theorem at_take (hr : R.Reached max_count initial_count mem X) {s : SemaphoreId} {t : Tcb}
    (huses : ∀ S b, R.uses S b = false → S.touches s b = false ∨ b = .semaphore_give s)
    (hle : initial_count s ≤ max_count s) (hst : takeStatus s t X.history ≠ .out) :
    R.tasks t = true ∧ ∃ timeout_ms k, R.code (X.place t) = .call (.semaphore_take s timeout_ms) k := by
  obtain ⟨A, -, hi⟩ := hr.take_inv hle
  rw [hi.status] at hst
  have habout : (X.system.call t).about = some s := by
    by_contra h
    exact hst (taking_out h)
  have ht := hr.only_tasks huses t habout
  obtain ⟨c, k, hc, hspans⟩ := hr.in_calls t ht (by intro h; rw [h] at habout; cases habout)
  cases c with
  | semaphore_take s' ms =>
    obtain rfl : s' = s := by
      obtain ⟨d, h | h⟩ := hspans <;> rw [h] at habout <;> exact Option.some.inj habout
    exact ⟨ht, ms, k, hc⟩
  | mutex_lock m ms => rw [show X.system.call t = _ from hspans] at habout; cases habout
  | task_delay_ms n => obtain h | ⟨w, h⟩ := hspans <;> rw [h] at habout <;> cases habout
  | mutex_unlock m => exact hspans.elim
  | semaphore_give s' => exact hspans.elim

end Reached

end Program
end Rpitos
