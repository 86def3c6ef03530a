import Rpitos.Kernel.MutexMoves
import Rpitos.Kernel.Programs

/-!
# Kernel.LockedPrograms

A program whose tasks lock a mutex without a time-out and unlock it in turn (`Program.LocksInTurn`).
`Guarded`: between the two a task owns the mutex, so no two of them are there at once, and the unlock
is the owner's.
-/

namespace Rpitos

open Function StatusCode ListOps

/-- The mutex it locks or unlocks. -/
def KernelCall.mutex : KernelCall → Option MutexId
  | .mutex_lock mtx _ => some mtx
  | .mutex_unlock mtx => some mtx
  | _ => none

/-- Whether the step locks or unlocks the mutex. -/
def System.locks {L : Type} (S : System L) (mtx : MutexId) : Action → Bool
  | .mutex_lock _ m _ => m = mtx
  | .mutex_unlock _ m => m = mtx
  | .proceed t => (S.call t).locks = some mtx
  | _ => false

variable {P M : Type}

namespace Program

section Sections

variable {S S' : System Links} {t u : Tcb} {c : KernelCall} {es : List Event}

/-- A step that neither locks nor unlocks the mutex leaves it alone. -/
theorem quiet_of {A : System Sequences} {a : Action} {mtx : MutexId} (hs : SSim S A grounded)
    (hl : S.kernel.mutex_owner mtx ≠ none → S.kernel.mutex_state mtx = .LOCKED)
    (hstep : S.step a = some (es, S')) (ha : S.locks mtx a = false) :
    ∃ ts, LockQuiet mtx ts S es S' := by
  cases LockMove.of_step hs hl hstep with
  | quiet hq => exact ⟨_, hq⟩
  | found _ _ _ _ _ => simp [System.locks] at ha
  | refused _ _ => simp [System.locks] at ha
  | waits _ _ _ _ _ _ => simp [System.locks] at ha
  | released _ _ _ _ _ _ => simp [System.locks] at ha
  | handed _ _ _ _ _ _ _ => simp [System.locks] at ha
  | returns hc _ => simp [System.locks, hc, Call.locks] at ha

theorem section_locks {mtx : MutexId} (hin : S.call t = .own ∨ c.spans (S.call t))
    (hc : c.mutex ≠ some mtx) : S.locks mtx (section_of S t c) = false := by
  unfold section_of
  split
  · cases c <;> simp_all [KernelCall.action, System.locks, KernelCall.mutex]
  · rename_i ho
    have hspans := hin.resolve_left ho
    cases c with
    | mutex_lock m ms =>
      simpa [System.locks, show S.call t = _ from hspans, Call.locks, KernelCall.mutex] using hc
    | mutex_unlock m => exact hspans.elim
    | semaphore_take s' ms =>
      obtain ⟨d, hk | hk⟩ := hspans <;> simp [System.locks, hk, Call.locks]
    | semaphore_give s' => exact hspans.elim
    | task_delay_ms ticks => obtain hk | ⟨w, hk⟩ := hspans <;> simp [System.locks, hk, Call.locks]

/-- The section in which a lock without a time-out begins finds the mutex, or waits for it. -/
theorem section_lock {mtx : MutexId} {timeout_ms : Int} (hms : timeout_ms < 0)
    (hstep : S.step (.mutex_lock t mtx timeout_ms) = some (es, S')) :
    (es = [.lock_returns t mtx E_OK] ∧ S'.call = S.call ∧
      S.kernel.mutex_state mtx = .UNLOCKED ∧ S'.kernel.mutex_state mtx = .LOCKED ∧
      S'.kernel.mutex_owner mtx = some t ∧ S'.kernel.current_state = S.kernel.current_state) ∨
    (S'.call = update S.call t (.mutex_lock mtx timeout_ms) ∧
      S.kernel.mutex_state mtx = .LOCKED ∧ S'.kernel.mutex_state = S.kernel.mutex_state ∧
      S'.kernel.mutex_owner = S.kernel.mutex_owner ∧
      S'.kernel.current_state = update S.kernel.current_state t .BLOCKED) := by
  obtain ⟨-, hstep⟩ := Option.ite_none_right_eq_some.mp hstep
  unfold System.lock at hstep
  obtain ⟨hun, held, he⟩ | ⟨-, hz, -⟩ | ⟨hlk, hz, lists, wake, prio, inh, he⟩ :=
    mutex_lock_effect S.kernel mtx t timeout_ms
  · rw [he] at hstep
    cases hstep
    exact .inl ⟨rfl, rfl, hun, by simp, by simp, rfl⟩
  · omega
  · rw [he] at hstep
    cases hstep
    refine .inr ⟨rfl, ?_, rfl, rfl, rfl⟩
    cases hst : S.kernel.mutex_state mtx with
    | LOCKED => rfl
    | UNLOCKED => exact absurd hst hlk

/-- An unlock frees the mutex, for which nobody waits, or hands it to a task that does. -/
theorem section_unlock {A : System Sequences} {mtx : MutexId} (hs : SSim S A grounded)
    (hl : S.kernel.mutex_owner mtx ≠ none → S.kernel.mutex_state mtx = .LOCKED)
    (hstep : S.step (.mutex_unlock t mtx) = some (es, S')) :
    S.kernel.mutex_owner mtx = some t ∧ returned t es = E_OK ∧ S'.call = S.call ∧
      ((∀ u, (S.call u).locks = some mtx → S.kernel.current_state u ≠ .BLOCKED) ∧
          S'.kernel.mutex_state mtx = .UNLOCKED ∧ S'.kernel.mutex_owner mtx = none ∧
          S'.kernel.current_state = S.kernel.current_state ∨
        ∃ w, (S.call w).locks = some mtx ∧ S.kernel.current_state w = .BLOCKED ∧
          S'.kernel.mutex_state mtx = .LOCKED ∧ S'.kernel.mutex_owner mtx = some w ∧
          S'.kernel.current_state = update S.kernel.current_state w .READY) := by
  obtain ⟨⟨-, hown⟩, hstep⟩ := Option.ite_none_right_eq_some.mp hstep
  have hlk : S.kernel.mutex_state mtx = .LOCKED := hl (by rw [hown]; exact Option.some_ne_none t)
  have hunlock : S.unlock t mtx = (es, S') := Option.some.inj hstep
  unfold System.unlock at hunlock
  dsimp only at hunlock
  obtain ⟨hnil, lists, prio, held, inh, he⟩ | ⟨w, lists, prio, held, inh, hw, he⟩ :=
    mutex_unlock_effect hs.kernel hlk
  · rw [he] at hunlock
    cases hunlock
    refine ⟨hown, rfl, rfl, .inl ⟨fun u hu hb => ?_, by simp, by simp, rfl⟩⟩
    have hm := (hs.kernel.mem_wait (l := .mutex_blocked_list mtx) rfl).mpr ⟨hb, Call.locks_iff.mp hu⟩
    rw [hnil] at hm
    cases hm
  · rw [he] at hunlock
    cases hunlock
    obtain ⟨hb, hww⟩ := (hs.kernel.mem_wait rfl).mp hw
    exact ⟨hown, rfl, rfl, .inr ⟨w, Call.locks_iff.mpr hww, hb, hlk, by simp, rfl⟩⟩

end Sections

/-! ### The discipline -/

/-- The code locks `mtx` and unlocks it in turn, and `inside` is where it has locked it. -/
structure LocksInTurn (R : Program P M) (mtx : MutexId) (inside : P → Prop) : Prop where
  lock : ∀ {p timeout_ms k}, R.code p = .call (.mutex_lock mtx timeout_ms) k →
    timeout_ms < 0 ∧ ¬ inside p ∧ inside (k E_OK)
  unlock : ∀ {p k}, R.code p = .call (.mutex_unlock mtx) k → inside p ∧ ¬ inside (k E_OK)
  call : ∀ {p c k}, R.code p = .call c k → c.mutex ≠ some mtx → ∀ code, inside (k code) ↔ inside p
  own : ∀ {p f}, R.code p = .own f → ∀ core ticks m, inside (f core ticks m).2 ↔ inside p
  entry : ∀ t, ¬ inside (R.entry t)
  uses : ∀ S a, R.uses S a = false → S.locks mtx a = false

/-- Who has the mutex, and who waits for it. -/
structure Guarded (R : Program P M) (mtx : MutexId) (inside : P → Prop) (X : Tasks P M) : Prop where
  locked : X.system.kernel.mutex_state mtx = .LOCKED ↔ X.system.kernel.mutex_owner mtx ≠ none
  holder : ∀ t, R.tasks t = true → inside (X.place t) → X.system.kernel.mutex_owner mtx = some t
  owner : ∀ t, X.system.kernel.mutex_owner mtx = some t →
    R.tasks t = true ∧ inside (X.place t) ∨ (X.system.call t).locks = some mtx
  waits : ∀ t, (X.system.call t).locks = some mtx → R.tasks t = true ∧ ¬ inside (X.place t) ∧
    (X.system.call t).timed = false ∧
    (X.system.kernel.current_state t = .BLOCKED ↔ X.system.kernel.mutex_owner mtx ≠ some t)

namespace Guarded

variable {R : Program P M} {mtx : MutexId} {inside : P → Prop} {X Y : Tasks P M} {a : TaskAction}

/-- The mutex excludes. -/
theorem exclusive (hg : Guarded R mtx inside X) {t u : Tcb} (ht : R.tasks t = true)
    (hu : R.tasks u = true) (hit : inside (X.place t)) (hiu : inside (X.place u)) : t = u := by
  have h := (hg.holder t ht hit).symm.trans (hg.holder u hu hiu)
  exact Option.some.inj h

/-- The owner of a mutex that is locked. -/
theorem owned (hg : Guarded R mtx inside X) :
    X.system.kernel.mutex_owner mtx ≠ none → X.system.kernel.mutex_state mtx = .LOCKED :=
  hg.locked.mpr

theorem boot (hd : R.LocksInTurn mtx inside) (max_count initial_count : SemaphoreId → Nat)
    (mem : M) : Guarded R mtx inside (R.boot max_count initial_count mem) :=
  ⟨by simp [Program.boot, Rpitos.boot, System.boot, Kernel.boot],
    (fun t _ hi => absurd hi (hd.entry t)),
    (fun _ h => by cases h), (fun _ h => by cases h)⟩

/-- The mutex is left alone, and no task gets inside or out. -/
theorem quiet {ts : List Tcb} {es : List Event} (hg : Guarded R mtx inside X)
    (hq : LockQuiet mtx ts X.system es Y.system)
    (hp : ∀ u, R.tasks u = true → (inside (Y.place u) ↔ inside (X.place u))) :
    Guarded R mtx inside Y := by
  refine ⟨?_, fun u hu hi => ?_, fun u hown => ?_, fun u hl => ?_⟩
  · rw [hq.state, hq.owner]; exact hg.locked
  · rw [hq.owner]; exact hg.holder u hu ((hp u hu).mp hi)
  · rw [hq.owner] at hown
    rcases hg.owner u hown with ⟨hu, hi⟩ | hl
    · exact .inl ⟨hu, (hp u hu).mpr hi⟩
    · exact .inr (hq.locks_iff.mpr hl)
  · have hl' := hq.locks_iff.mp hl
    obtain ⟨hu, hn, htimed, hb⟩ := hg.waits u hl'
    have hts : u ∉ ts := fun hm => by
      have := (hq.timed u hm).2
      rw [htimed] at this
      cases this
    have hcall : Y.system.call u = X.system.call u :=
      (hq.call u).resolve_right fun h => h.1 hl'
    refine ⟨hu, mt (hp u hu).mp hn, hcall ▸ htimed, ?_⟩
    rw [hq.blocked u hl', hq.owner, and_iff_right hts]
    exact hb

/-- A task of the program in its own code that is not inside does not own the mutex. -/
theorem not_owner {t : Tcb} (hg : Guarded R mtx inside X) (ho : X.system.call t = .own)
    (hn : ¬ inside (X.place t)) : X.system.kernel.mutex_owner mtx ≠ some t := by
  intro hown
  rcases hg.owner t hown with ⟨-, hi⟩ | hl
  · exact hn hi
  · rw [ho] at hl; cases hl

/-- The task finds the mutex. -/
theorem found {t : Tcb} {p : P} {S : System Links} (hg : Guarded R mtx inside X)
    (ht : R.tasks t = true) (ho : X.system.call t = .own) (hp : inside p)
    (hcall : S.call = X.system.call) (hun : X.system.kernel.mutex_state mtx = .UNLOCKED)
    (hst : S.kernel.mutex_state mtx = .LOCKED) (hown : S.kernel.mutex_owner mtx = some t)
    (hcs : S.kernel.current_state = X.system.kernel.current_state) (h : List Event) :
    Guarded R mtx inside { X with system := S, history := h, place := update X.place t p } := by
  have hnone : X.system.kernel.mutex_owner mtx = none := by
    by_contra hne
    have := hg.owned hne
    rw [hun] at this
    cases this
  refine ⟨by simp [hst, hown], fun u hu hi => ?_, fun u hu => ?_, fun u hl => ?_⟩
  · by_cases hut : u = t
    · rw [hut]; exact hown
    · dsimp only at hi
      rw [update_of_ne hut] at hi
      have := hg.holder u hu hi
      rw [hnone] at this
      cases this
  · cases hown.symm.trans hu
    exact .inl ⟨ht, by simpa using hp⟩
  · dsimp only at hl ⊢
    rw [hcall] at hl ⊢
    have hut : u ≠ t := by rintro rfl; rw [ho] at hl; cases hl
    obtain ⟨hu, hn, htimed, hb⟩ := hg.waits u hl
    refine ⟨hu, by rw [update_of_ne hut]; exact hn, htimed, ?_⟩
    rw [hcs, hown, hb, hnone]
    simp [Ne.symm hut]

/-- The task waits for it. -/
theorem blocks {t : Tcb} {timeout_ms : Int} {S : System Links} (hg : Guarded R mtx inside X)
    (ht : R.tasks t = true) (ho : X.system.call t = .own) (hn : ¬ inside (X.place t))
    (hms : timeout_ms < 0) (hcall : S.call = update X.system.call t (.mutex_lock mtx timeout_ms))
    (hst : S.kernel.mutex_state = X.system.kernel.mutex_state)
    (hown : S.kernel.mutex_owner = X.system.kernel.mutex_owner)
    (hcs : S.kernel.current_state = update X.system.kernel.current_state t .BLOCKED)
    (h : List Event) : Guarded R mtx inside { X with system := S, history := h } := by
  have hnot := hg.not_owner ho hn
  refine ⟨?_, fun u hu hi => ?_, fun u hu => ?_, fun u hl => ?_⟩
  · dsimp only
    rw [hst, hown]; exact hg.locked
  · dsimp only at hi ⊢
    rw [hown]; exact hg.holder u hu hi
  · dsimp only at hu ⊢
    rw [hown] at hu
    have hut : u ≠ t := by rintro rfl; exact hnot hu
    rw [hcall, update_of_ne hut]
    exact hg.owner u hu
  · dsimp only at hl ⊢
    by_cases hut : u = t
    · subst hut
      rw [hcall, hcs, hown, update_self, update_self]
      exact ⟨ht, hn, by simp [Call.timed]; omega, by simp [hnot]⟩
    · rw [hcall, update_of_ne hut] at hl ⊢
      rw [hcs, hown, update_of_ne hut]
      exact hg.waits u hl

/-- The task was handed it. -/
theorem resumes {t : Tcb} {p : P} (hg : Guarded R mtx inside X) (ht : R.tasks t = true)
    (hown : X.system.kernel.mutex_owner mtx = some t) (hp : inside p) (h : List Event) :
    Guarded R mtx inside
      { X with system := X.system.setCall t .own, history := h, place := update X.place t p } := by
  refine ⟨hg.locked, fun u hu hi => ?_, fun u hu => ?_, fun u hl => ?_⟩
  · by_cases hut : u = t
    · rw [hut]; exact hown
    · dsimp only at hi
      rw [update_of_ne hut] at hi
      exact hg.holder u hu hi
  · cases hown.symm.trans hu
    exact .inl ⟨ht, by simpa using hp⟩
  · have hut : u ≠ t := by
      rintro rfl
      rw [System.setCall_call, update_self] at hl
      cases hl
    dsimp only at hl ⊢
    rw [System.setCall_call, update_of_ne hut] at hl ⊢
    rw [update_of_ne hut]
    exact hg.waits u hl

/-- The owner leaves, and nobody waits. -/
theorem released {t : Tcb} {p : P} {S : System Links} (hg : Guarded R mtx inside X)
    (hown : X.system.kernel.mutex_owner mtx = some t) (hp : ¬ inside p)
    (hcall : S.call = X.system.call)
    (hnb : ∀ u, (X.system.call u).locks = some mtx → X.system.kernel.current_state u ≠ .BLOCKED)
    (ho : X.system.call t = .own) (hst : S.kernel.mutex_state mtx = .UNLOCKED)
    (hnone : S.kernel.mutex_owner mtx = none) (h : List Event) :
    Guarded R mtx inside { X with system := S, history := h, place := update X.place t p } := by
  have hnl : ∀ u, (X.system.call u).locks ≠ some mtx := fun u hl => by
    have hut : t ≠ u := by rintro rfl; rw [ho] at hl; cases hl
    refine hnb u hl ((hg.waits u hl).2.2.2.mpr ?_)
    rw [hown]
    exact fun e => hut (Option.some.inj e)
  refine ⟨by simp [hst, hnone], fun u hu hi => ?_, fun u hu => ?_, fun u hl => ?_⟩
  · dsimp only at hi
    by_cases hut : u = t
    · rw [hut, update_self] at hi
      exact absurd hi hp
    · rw [update_of_ne hut] at hi
      have := (hg.holder u hu hi).symm.trans hown
      exact absurd (Option.some.inj this) hut
  · dsimp only at hu
    rw [hnone] at hu
    cases hu
  · dsimp only at hl
    rw [hcall] at hl
    exact absurd hl (hnl u)

/-- The owner leaves, and the waiter `w` has it. -/
theorem handed {t w : Tcb} {p : P} {S : System Links} (hg : Guarded R mtx inside X)
    (hown : X.system.kernel.mutex_owner mtx = some t) (hp : ¬ inside p)
    (hcall : S.call = X.system.call) (ho : X.system.call t = .own)
    (hw : (X.system.call w).locks = some mtx) (hst : S.kernel.mutex_state mtx = .LOCKED)
    (hown' : S.kernel.mutex_owner mtx = some w)
    (hcs : S.kernel.current_state = update X.system.kernel.current_state w .READY)
    (h : List Event) :
    Guarded R mtx inside { X with system := S, history := h, place := update X.place t p } := by
  refine ⟨by simp [hst, hown'], fun u hu hi => ?_, fun u hu => ?_, fun u hl => ?_⟩
  · dsimp only at hi
    by_cases hut : u = t
    · rw [hut, update_self] at hi
      exact absurd hi hp
    · rw [update_of_ne hut] at hi
      have := (hg.holder u hu hi).symm.trans hown
      exact absurd (Option.some.inj this) hut
  · cases hown'.symm.trans hu
    dsimp only
    rw [hcall]
    exact .inr hw
  · dsimp only at hl ⊢
    rw [hcall] at hl ⊢
    have hut : u ≠ t := by rintro rfl; rw [ho] at hl; cases hl
    obtain ⟨hu, hn, htimed, hb⟩ := hg.waits u hl
    refine ⟨hu, by rw [update_of_ne hut]; exact hn, htimed, ?_⟩
    rw [hcs, hown']
    by_cases huw : u = w
    · subst huw; simp
    · rw [update_of_ne huw, hb, hown]
      simp [Ne.symm hut, Ne.symm huw]

/-- Each step of the program keeps it. -/
theorem move {A : System Sequences} (hg : Guarded R mtx inside X) (hd : R.LocksInTurn mtx inside)
    (hi : InCalls R X) (hs : SSim X.system A grounded) (hm : R.Move X a Y) :
    Guarded R mtx inside Y := by
  cases hm with
  | @own t f ht hr hc =>
    have hq : LockQuiet mtx [] X.system [] X.system :=
      .frame rfl rfl (fun _ => .inl rfl) (fun _ _ => Iff.rfl) .nil
    refine hg.quiet hq fun u hu => ?_
    dsimp only
    by_cases hut : u = t
    · subst hut
      rw [update_self]
      exact hd.own hc _ _ _
    · rw [update_of_ne hut]
  | @kernel b es S hf hstep =>
    obtain ⟨ts, hq⟩ := quiet_of hs hg.owned hstep (hd.uses _ _ (foreign_uses hf))
    exact hg.quiet hq fun _ _ => Iff.rfl
  | @call t c k es S ht hr hc hstep =>
    have hin := hi.at_call ht hc
    by_cases hcm : c.mutex = some mtx
    case neg =>
      -- a call about something else
      obtain ⟨ts, hq⟩ := quiet_of hs hg.owned hstep (section_locks hin hcm)
      refine hg.quiet hq fun u hu => ?_
      dsimp only
      split
      · by_cases hut : u = t
        · subst hut
          rw [update_self]
          exact hd.call hc hcm _
        · rw [update_of_ne hut]
      · exact Iff.rfl
    cases c with
    | mutex_lock m timeout_ms =>
      obtain rfl : m = mtx := Option.some.inj hcm
      obtain ⟨hms, hn, hp⟩ := hd.lock hc
      by_cases ho : X.system.call t = .own
      · rw [section_of, if_pos ho] at hstep
        obtain ⟨rfl, hcall, hun, hst, hown, hcs⟩ | ⟨hcall, hlk, hst, hown, hcs⟩ :=
          section_lock hms hstep
        · rw [if_pos (by rw [hcall, ho])]
          exact hg.found ht ho (by simpa [returned, Event.code] using hp) hcall hun hst hown hcs _
        · rw [if_neg (by rw [hcall, update_self]; simp)]
          exact hg.blocks ht ho hn hms hcall hst hown hcs _
      · have hspans : X.system.call t = .mutex_lock m timeout_ms := hin.resolve_left ho
        rw [section_of, if_neg ho] at hstep
        obtain ⟨-, hstep⟩ := Option.ite_none_right_eq_some.mp hstep
        unfold System.proceed at hstep
        rw [hspans] at hstep
        cases hstep
        have hnb : X.system.kernel.current_state t ≠ .BLOCKED := (hs.running hr).2.1
        have hown : X.system.kernel.mutex_owner m = some t := by
          by_contra hne
          exact hnb ((hg.waits t (by rw [hspans]; rfl)).2.2.2.mpr hne)
        rw [if_pos (by simp)]
        refine hg.resumes ht hown ?_ _
        simpa [returned, Event.code, mutex_lock_result, hown] using hp
    | mutex_unlock m =>
      obtain rfl : m = mtx := Option.some.inj hcm
      obtain ⟨-, hn⟩ := hd.unlock hc
      have ho : X.system.call t = .own := hin.resolve_right id
      rw [section_of, if_pos ho] at hstep
      obtain ⟨hown, hcode, hcall, hcases⟩ := section_unlock hs hg.owned hstep
      rw [if_pos (by rw [hcall, ho]), hcode]
      obtain ⟨hnb, hst, hnone, -⟩ | ⟨w, hw, -, hst, hown', hcs⟩ := hcases
      · exact hg.released hown hn hcall hnb ho hst hnone _
      · exact hg.handed hown hn hcall ho hw hst hown' hcs _
    | semaphore_take s timeout_ms => cases hcm
    | semaphore_give s => cases hcm
    | task_delay_ms ticks => cases hcm

end Guarded

variable {R : Program P M} {mtx : MutexId} {inside : P → Prop} {X : Tasks P M}
  {max_count initial_count : SemaphoreId → Nat} {mem : M}

/-- In every state that the program reaches, the tasks between lock and unlock own the mutex. -/
theorem Reached.guarded (hr : R.Reached max_count initial_count mem X)
    (hd : R.LocksInTurn mtx inside) : Guarded R mtx inside X :=
  hr.invariant (Guarded.boot hd _ _ _) fun hr hi hm =>
    hi.move hd hr.in_calls hr.sim.choose_spec hm

/-- The task at its unlock is not refused. -/
theorem Reached.unlocks {t : Tcb} {k : StatusCode → P}
    (hr : R.Reached max_count initial_count mem X) (hd : R.LocksInTurn mtx inside)
    (ht : R.tasks t = true) (hrun : X.system.kernel.runs t = true)
    (hc : R.code (X.place t) = .call (.mutex_unlock mtx) k) : (R.step X (.run t)).isSome = true := by
  have hown := (hr.guarded hd).holder t ht (hd.unlock hc).1
  have ho : X.system.call t = .own := (hr.in_calls.at_call ht hc).resolve_right id
  have hstep : X.system.step (section_of X.system t (.mutex_unlock mtx)) =
      some (X.system.unlock t mtx) := by
    rw [section_of, if_pos ho]
    exact if_pos ⟨⟨hrun, ho⟩, hown⟩
  unfold step
  dsimp only
  rw [if_pos ⟨ht, hrun⟩, hc]
  dsimp only
  rw [hstep]
  rfl

end Program
end Rpitos
