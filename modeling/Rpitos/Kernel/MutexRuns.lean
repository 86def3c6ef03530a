import Rpitos.Kernel.MutexMoves

/-!
# Kernel.MutexRuns

One mutex over a whole run. `LockInv` ties the history to the kernel's own fields, and each move of
the mutex keeps it.
-/

namespace Rpitos

open Function ListOps StatusCode

/-! ## The invariant -/

/-- The history of `mtx` and the kernel's fields agree. -/
structure LockInv (S : System Links) (mtx : MutexId) (h : List Event) : Prop where
  locked : S.kernel.mutex_state mtx = .LOCKED ↔ S.kernel.mutex_owner mtx ≠ none
  owner : ∀ t, S.kernel.mutex_owner mtx = some t ↔ Holds mtx t h
  calls : ∀ t, (S.call t).locks = some mtx ↔ lockStatus mtx t h = .waiting ∨
    lockStatus mtx t h = .handed ∨ lockStatus mtx t h = .expired
  blocked : ∀ t, (S.call t).locks = some mtx →
    (S.kernel.current_state t = .BLOCKED ↔ lockStatus mtx t h = .waiting)
  waiting : ∀ t, lockStatus mtx t h = .waiting → S.kernel.mutex_state mtx = .LOCKED
  legal : ∀ t, Legal mtx t .out h

namespace LockInv

variable {S S' : System Links} {mtx : MutexId} {h es : List Event} {t : Tcb}

theorem boot (max_count initial_count : SemaphoreId → Nat) :
    LockInv (boot max_count initial_count) mtx [] :=
  ⟨by simp [Rpitos.boot, System.boot, Kernel.boot],
    fun t => by simp [Rpitos.boot, System.boot, Kernel.boot, Holds, lockStatus],
    fun t => by simp [Rpitos.boot, System.boot, Call.locks, lockStatus],
    fun t ht => by simp [Rpitos.boot, System.boot, Call.locks] at ht,
    fun t ht => by simp [lockStatus] at ht, fun t => trivial⟩

/-! ## The moves -/

/-- Only tasks that a tick wakes change their status. -/
theorem quiet {ts : List Tcb} (hi : LockInv S mtx h) (hq : LockQuiet mtx ts S es S') :
    LockInv S' mtx (h ++ es) := by
  have hst : ∀ t, lockStatus mtx t (h ++ es) =
      if t ∈ ts ∧ lockStatus mtx t h = .waiting then .expired else lockStatus mtx t h := fun t => by
    rw [lockStatus_append]; exact (hq.events t _).1
  refine ⟨?_, fun t => ?_, fun t => ?_, fun t ht => ?_, fun t ht => ?_, fun t => ?_⟩
  · rw [hq.state, hq.owner]; exact hi.locked
  · rw [hq.owner, hi.owner t, Holds, Holds, hst]
    split
    · rename_i hw; simp [hw.2]
    · rfl
  · rw [hq.locks_iff, hi.calls t, hst]
    split
    · rename_i hw; simp [hw.2]
    · rfl
  · have ht := hq.locks_iff.mp ht
    rw [hq.blocked t ht, hi.blocked t ht, hst]
    by_cases hm : t ∈ ts
    · by_cases hw : lockStatus mtx t h = .waiting <;> simp [hm, hw]
    · simp [hm]
  · rw [hst] at ht
    rw [hq.state]
    split at ht
    · cases ht
    · exact hi.waiting t ht
  · exact (legal_append h _).mpr ⟨hi.legal t, (hq.events t _).2⟩

/-- A task in its own code is out, or holds the mutex. -/
theorem own_status (hi : LockInv S mtx h) (ho : S.call t = .own) :
    lockStatus mtx t h = .out ∨ lockStatus mtx t h = .holding := by
  have hn : ¬ (S.call t).locks = some mtx := by simp [ho, Call.locks]
  rw [hi.calls t] at hn
  cases hst : lockStatus mtx t h <;> simp [hst] at hn ⊢

theorem legal_one {e : Event} (hi : LockInv S mtx h) (u : Tcb)
    (ha : Allowed mtx u (lockStatus mtx u h) e) : Legal mtx u .out (h ++ [e]) :=
  (legal_append h _).mpr ⟨hi.legal u, ha, trivial⟩

/-- An event of `t` alone. -/
theorem other_status {e : Event} (hi : LockInv S mtx h)
    (he : ∀ u, u ≠ t → ∀ st, lockStep mtx u st e = st ∧ Allowed mtx u st e) {u : Tcb}
    (hu : u ≠ t) : lockStatus mtx u (h ++ [e]) = lockStatus mtx u h ∧ Legal mtx u .out (h ++ [e]) :=
  ⟨one_event u (he u hu _).1, hi.legal_one u (he u hu _).2⟩

/-- A free task that does not own the mutex is out. -/
theorem free_out (hi : LockInv S mtx h) (ho : S.call t = .own)
    (hno : S.kernel.mutex_owner mtx ≠ some t) : lockStatus mtx t h = .out := by
  rcases hi.own_status ho with e | e
  · exact e
  · exact absurd ((hi.owner t).mpr (.inl e)) hno

/-- The owner's status, when it is free. -/
theorem free_holding (hi : LockInv S mtx h) (ho : S.call t = .own)
    (hown : S.kernel.mutex_owner mtx = some t) : lockStatus mtx t h = .holding := by
  rcases hi.own_status ho with e | e
  · rcases (hi.owner t).mp hown with e' | e' <;> simp [e] at e'
  · exact e

/-- Nobody but the owner holds the mutex. -/
theorem only_holder {u : Tcb} (hi : LockInv S mtx h) (hown : S.kernel.mutex_owner mtx = some t)
    (hut : u ≠ t) : ¬ Holds mtx u h := by
  intro hu
  have ho := (hi.owner u).mpr hu
  rw [hown] at ho
  exact hut (Option.some.inj ho).symm

section Others

variable {K : Kernel Links} {h' : List Event} {u : Tcb} (hi : LockInv S mtx h)
  (ho : S.call t = .own)
  (hother : ∀ u, u ≠ t → lockStatus mtx u h' = lockStatus mtx u h)
include hi ho hother

/-- `t` stays in its own code, and nothing happens to the others: the calls. -/
theorem calls_others (ht : lockStatus mtx t h' = .out ∨ lockStatus mtx t h' = .holding) :
    (S.call u).locks = some mtx ↔ lockStatus mtx u h' = .waiting ∨
      lockStatus mtx u h' = .handed ∨ lockStatus mtx u h' = .expired := by
  by_cases hut : u = t
  · subst hut
    rcases ht with ht | ht <;> simp [ho, Call.locks, ht]
  · rw [hother u hut]
    exact hi.calls u

/-- The blocked tasks. -/
theorem blocked_others (hcs : K.current_state = S.kernel.current_state)
    (hu : (S.call u).locks = some mtx) :
    (S.withKernel K).kernel.current_state u = .BLOCKED ↔ lockStatus mtx u h' = .waiting := by
  have hut : u ≠ t := by rintro rfl; simp [ho, Call.locks] at hu
  rw [hother u hut, System.withKernel_kernel, hcs]
  exact hi.blocked u hu

end Others

/-- Found unlocked: nobody held it. -/
theorem found {K : Kernel Links} (hi : LockInv S mtx h) (ho : S.call t = .own)
    (hun : S.kernel.mutex_state mtx = .UNLOCKED) (hst : K.mutex_state mtx = .LOCKED)
    (hown : K.mutex_owner mtx = some t) (hcs : K.current_state = S.kernel.current_state) :
    LockInv (S.withKernel K) mtx (h ++ [.lock_returns t mtx E_OK]) := by
  have hnone : S.kernel.mutex_owner mtx = none := by
    by_contra hne
    have := hi.locked.mpr hne
    rw [hun] at this; cases this
  have hout := hi.free_out ho (by simp [hnone])
  have ht : lockStatus mtx t (h ++ [.lock_returns t mtx E_OK]) = .holding :=
    one_event t (by simp [lockStep])
  have hother := fun {u} => hi.other_status (t := t) (e := .lock_returns t mtx E_OK)
    (fun u hu st => by simp [lockStep, Allowed, Ne.symm hu]) (u := u)
  have hsame : ∀ u, u ≠ t → lockStatus mtx u (h ++ [.lock_returns t mtx E_OK]) =
      lockStatus mtx u h := fun u hut => (hother hut).1
  refine ⟨by simp [hst, hown], fun u => ?_, fun u => hi.calls_others ho hsame (.inr ht),
    fun u hu => hi.blocked_others ho hsame hcs hu, fun u hu => hst, fun u => ?_⟩
  · by_cases hut : u = t
    · subst hut; simp [Holds, ht, hown]
    · have hn := hi.owner u
      rw [hnone] at hn
      rw [Holds, hsame u hut]
      simpa [hown, Ne.symm hut, Holds] using hn
  · by_cases hut : u = t
    · subst hut; exact hi.legal_one u (by simp [Allowed, hout])
    · exact (hother hut).2

/-- Locked and no wait. -/
theorem refused (hi : LockInv S mtx h) (ho : S.call t = .own)
    (hno : S.kernel.mutex_owner mtx ≠ some t) :
    LockInv S mtx (h ++ [.lock_returns t mtx E_TIMED_OUT]) := by
  have hout := hi.free_out ho hno
  have hsame : ∀ u, lockStatus mtx u (h ++ [.lock_returns t mtx E_TIMED_OUT]) =
      lockStatus mtx u h := fun u => one_event u (by
    by_cases hut : t = u
    · subst hut; simp [lockStep, hout]
    · simp [lockStep, hut])
  refine ⟨hi.locked, fun u => ?_, fun u => ?_, fun u hu => ?_, fun u hu => ?_, fun u => ?_⟩
  · rw [Holds, hsame u]; exact hi.owner u
  · rw [hsame u]; exact hi.calls u
  · rw [hsame u]; exact hi.blocked u hu
  · rw [hsame u] at hu; exact hi.waiting u hu
  · refine hi.legal_one u ?_
    rintro ⟨rfl, -⟩
    exact .inr ⟨rfl, .inl hout⟩

/-- Locked: the caller waits. -/
theorem waits {K : Kernel Links} {timeout_ms : Int} (hi : LockInv S mtx h) (ho : S.call t = .own)
    (hno : S.kernel.mutex_owner mtx ≠ some t) (hlk : S.kernel.mutex_state mtx = .LOCKED)
    (hst : K.mutex_state mtx = S.kernel.mutex_state mtx)
    (hown : K.mutex_owner mtx = S.kernel.mutex_owner mtx)
    (hcs : K.current_state = update S.kernel.current_state t .BLOCKED) :
    LockInv ((S.withKernel K).setCall t (.mutex_lock mtx timeout_ms)) mtx
      (h ++ [.lock_waits t mtx]) := by
  have hout := hi.free_out ho hno
  have ht : lockStatus mtx t (h ++ [.lock_waits t mtx]) = .waiting :=
    one_event t (by simp [lockStep])
  have hother := fun {u} => hi.other_status (t := t) (e := .lock_waits t mtx)
    (fun u hu st => by simp [lockStep, Allowed, Ne.symm hu]) (u := u)
  refine ⟨?_, fun u => ?_, fun u => ?_, fun u hu => ?_, fun u hu => hst.trans hlk, fun u => ?_⟩
  · show K.mutex_state mtx = .LOCKED ↔ K.mutex_owner mtx ≠ none
    rw [hst, hown]; exact hi.locked
  · show K.mutex_owner mtx = some u ↔ _
    rw [hown]
    by_cases hut : u = t
    · subst hut; simp [Holds, ht, hno]
    · rw [Holds, (hother hut).1]; exact hi.owner u
  · by_cases hut : u = t
    · subst hut; simp [Call.locks, ht]
    · rw [(hother hut).1]; simpa [hut] using hi.calls u
  · by_cases hut : u = t
    · subst hut; simp [ht, hcs]
    · rw [(hother hut).1]
      simpa [hut, hcs] using hi.blocked u (by simpa [hut] using hu)
  · by_cases hut : u = t
    · subst hut; exact hi.legal_one u (by simp [Allowed, hout])
    · exact (hother hut).2

/-- Nobody waits. -/
theorem released {K : Kernel Links} (hi : LockInv S mtx h) (ho : S.call t = .own)
    (hown : S.kernel.mutex_owner mtx = some t)
    (hnb : ∀ u, (S.call u).locks = some mtx → S.kernel.current_state u ≠ .BLOCKED)
    (hst : K.mutex_state mtx = .UNLOCKED) (hnone : K.mutex_owner mtx = none)
    (hcs : K.current_state = S.kernel.current_state) :
    LockInv (S.withKernel K) mtx (h ++ [.unlocks t mtx]) := by
  have hhold := hi.free_holding ho hown
  have hnw : ∀ u, lockStatus mtx u h ≠ .waiting := fun u hu => by
    have hl := (hi.calls u).mpr (.inl hu)
    exact hnb u hl ((hi.blocked u hl).mpr hu)
  have ht : lockStatus mtx t (h ++ [.unlocks t mtx]) = .out := one_event t (by simp [lockStep])
  have hother := fun {u} => hi.other_status (t := t) (e := .unlocks t mtx)
    (fun u hu st => by simp [lockStep, Allowed, Ne.symm hu]) (u := u)
  have hsame : ∀ u, u ≠ t → lockStatus mtx u (h ++ [.unlocks t mtx]) = lockStatus mtx u h :=
    fun u hut => (hother hut).1
  refine ⟨by simp [hst, hnone], fun u => ?_, fun u => hi.calls_others ho hsame (.inl ht),
    fun u hu => hi.blocked_others ho hsame hcs hu, fun u hu => ?_, fun u => ?_⟩
  · by_cases hut : u = t
    · subst hut; simp [Holds, ht, hnone]
    · rw [Holds, hsame u hut]
      simpa [hnone, Holds] using hi.only_holder hown hut
  · by_cases hut : u = t
    · subst hut; rw [ht] at hu; cases hu
    · rw [hsame u hut] at hu; exact absurd hu (hnw u)
  · by_cases hut : u = t
    · subst hut; exact hi.legal_one u (by simp [Allowed, hhold])
    · exact (hother hut).2

/-- The mutex is handed to `w`. -/
theorem handed {K : Kernel Links} {w : Tcb} (hi : LockInv S mtx h) (ho : S.call t = .own)
    (hown : S.kernel.mutex_owner mtx = some t) (hw : (S.call w).locks = some mtx)
    (hb : S.kernel.current_state w = .BLOCKED)
    (hst : K.mutex_state mtx = S.kernel.mutex_state mtx) (hown' : K.mutex_owner mtx = some w)
    (hcs : K.current_state = update S.kernel.current_state w .READY) :
    LockInv (S.withKernel K) mtx (h ++ [.unlocks t mtx, .lock_handed w mtx]) := by
  have hl : S.kernel.mutex_state mtx = .LOCKED := hi.locked.mpr (by simp [hown])
  have hhold := hi.free_holding ho hown
  have hwait : lockStatus mtx w h = .waiting := (hi.blocked w hw).mp hb
  have hwt : w ≠ t := by rintro rfl; rw [hhold] at hwait; cases hwait
  have hstatus : ∀ u, lockStatus mtx u (h ++ [.unlocks t mtx, .lock_handed w mtx]) =
      if u = t then .out else if u = w then .handed else lockStatus mtx u h := fun u => by
    rw [lockStatus_append]
    by_cases hut : u = t
    · subst hut; simp [lockStep, hwt]
    · by_cases huw : u = w
      · subst huw; simp [lockStep, hut]
      · simp [lockStep, hut, huw, Ne.symm hut, Ne.symm huw]
  refine ⟨by simp [hst, hl, hown'], fun u => ?_, fun u => ?_, fun u hu => ?_,
    fun u hu => hst.trans hl, fun u => ?_⟩
  · rw [Holds, hstatus u]
    by_cases hut : u = t
    · subst hut; simp [hwt, hown']
    · by_cases huw : u = w
      · subst huw; simp [hut, hown']
      · simpa [hut, huw, Ne.symm huw, hown', Holds] using hi.only_holder hown hut
  · rw [hstatus u]
    by_cases hut : u = t
    · subst hut; simp [ho, Call.locks]
    · by_cases huw : u = w
      · subst huw; simpa [hut] using hw
      · simpa [hut, huw] using hi.calls u
  · have hut : u ≠ t := by rintro rfl; simp [ho, Call.locks] at hu
    rw [hstatus u]
    by_cases huw : u = w
    · subst huw; simp [hut, hcs]
    · simpa [hut, huw, hcs] using hi.blocked u hu
  · refine (legal_append h _).mpr ⟨hi.legal u, ?_, ?_, trivial⟩
    · rintro ⟨rfl, -⟩; exact hhold
    · rintro ⟨rfl, -⟩
      simp only [lockStep, Ne.symm hwt, false_and, if_false]
      exact hwait

/-- The end of a `mutex_lock` that waited. -/
theorem returns {timeout_ms : Int} (hi : LockInv S mtx h)
    (hb : S.kernel.current_state t ≠ .BLOCKED) (hc : S.call t = .mutex_lock mtx timeout_ms) :
    LockInv (S.setCall t .own) mtx
      (h ++ [.lock_returns t mtx (mutex_lock_result S.kernel mtx t)]) := by
  have hl : (S.call t).locks = some mtx := by rw [hc]; rfl
  have hnw : lockStatus mtx t h ≠ .waiting := mt (hi.blocked t hl).mpr hb
  have hother : ∀ u, u ≠ t → lockStatus mtx u
      (h ++ [.lock_returns t mtx (mutex_lock_result S.kernel mtx t)]) = lockStatus mtx u h :=
    fun u hu => one_event u (by simp [lockStep, Ne.symm hu])
  -- the owner is the task that was handed the mutex
  have hres : (lockStatus mtx t h = .handed ∧ S.kernel.mutex_owner mtx = some t) ∨
      (lockStatus mtx t h = .expired ∧ S.kernel.mutex_owner mtx ≠ some t) := by
    rcases (hi.calls t).mp hl with e | e | e
    · exact absurd e hnw
    · exact .inl ⟨e, (hi.owner t).mpr (.inr e)⟩
    · exact .inr ⟨e, fun ho => by simpa [Holds, e] using (hi.owner t).mp ho⟩
  have ht : lockStatus mtx t (h ++ [.lock_returns t mtx (mutex_lock_result S.kernel mtx t)]) =
      if S.kernel.mutex_owner mtx = some t then .holding else .out :=
    one_event t (by
      unfold mutex_lock_result
      rcases hres with ⟨-, ho⟩ | ⟨-, ho⟩ <;> simp [lockStep, ho])
  refine ⟨hi.locked, fun u => ?_, fun u => ?_, fun u hu => ?_, fun u hu => ?_, fun u => ?_⟩
  · by_cases hut : u = t
    · subst hut
      rw [Holds, ht]
      show S.kernel.mutex_owner mtx = some u ↔ _
      by_cases ho : S.kernel.mutex_owner mtx = some u <;> simp [ho]
    · rw [Holds, hother u hut]; exact hi.owner u
  · by_cases hut : u = t
    · subst hut
      rw [ht]
      by_cases ho : S.kernel.mutex_owner mtx = some u <;> simp [ho, Call.locks]
    · rw [hother u hut]; simpa [hut] using hi.calls u
  · have hut : u ≠ t := by rintro rfl; simp [Call.locks] at hu
    rw [hother u hut]
    exact hi.blocked u (by simpa [hut] using hu)
  · by_cases hut : u = t
    · subst hut
      rw [ht] at hu
      split at hu <;> cases hu
    · rw [hother u hut] at hu; exact hi.waiting u hu
  · refine hi.legal_one u ?_
    rintro ⟨rfl, -⟩
    unfold mutex_lock_result
    rcases hres with ⟨e, ho⟩ | ⟨e, ho⟩
    · exact .inl ⟨if_pos ho, .inr e⟩
    · exact .inr ⟨if_neg ho, .inr e⟩

/-! ## The waiting tasks are the wait list -/

theorem waiting_iff {A : System Sequences} (hi : LockInv S mtx h) (hs : SSim S A grounded) :
    .event_list_item t ∈ A.kernel.lists.list (.mutex_blocked_list mtx) ↔
      lockStatus mtx t h = .waiting := by
  rw [hs.kernel.mem_wait rfl, ← Call.locks_iff]
  constructor
  · rintro ⟨hb, hl⟩
    exact (hi.blocked t hl).mp hb
  · intro hw
    have hl : (S.call t).locks = some mtx := (hi.calls t).mpr (.inl hw)
    exact ⟨(hi.blocked t hl).mpr hw, hl⟩

end LockInv

/-! ## Runs -/

/-- No task locks a mutex it owns. -/
def noRelock {L : Type} : Guard L
  | S, .mutex_lock t mtx _ => S.kernel.mutex_owner mtx ≠ some t
  | _, _ => True

instance {L : Type} (S : System L) : (a : Action) → Decidable (noRelock S a)
  | .mutex_lock _ _ _ => inferInstanceAs (Decidable (_ ≠ _))
  | .scheduler_init _ | .scheduler_start _ | .tick _ _ | .task_create _ _ _ | .stack_write _ _
  | .task_delay_ms _ _ | .task_delay_until_ms _ _ _ | .mutex_set_inheritance _ _
  | .mutex_unlock _ _ | .semaphore_take _ _ _ | .semaphore_give _ | .proceed _ => .isTrue trivial

namespace LockInv

variable {S S' : System Links} {mtx : MutexId} {h es : List Event}

/-- Each step keeps the invariant. -/
theorem step {A : System Sequences} {a : Action} (hi : LockInv S mtx h) (hs : SSim S A grounded)
    (ha : noRelock S a) (hstep : S.step a = some (es, S')) : LockInv S' mtx (h ++ es) := by
  cases LockMove.of_step hs hi.locked.mpr hstep with
  | quiet hq => exact hi.quiet hq
  | found ho hun hst hown hcs => exact hi.found ho hun hst hown hcs
  | refused ho _ => exact hi.refused ho ha
  | waits ho hlk _ hst hown hcs => exact hi.waits ho ha hlk hst hown hcs
  | released ho hown hnb hst hnone hcs => exact hi.released ho hown hnb hst hnone hcs
  | handed ho hown hw hb hst hown' hcs => exact hi.handed ho hown hw hb hst hown' hcs
  | returns hc hb => exact hi.returns hb hc

end LockInv

variable {max_count initial_count : SemaphoreId → Nat} {h : List Event} {S : System Links}

/-- The invariant along every run. -/
theorem Run.lockInv (hr : Run noRelock (boot max_count initial_count) h S) (mtx : MutexId) :
    LockInv S mtx h := by
  induction hr with
  | start => exact LockInv.boot _ _
  | @step h es S S' a hr ha hs ih =>
    obtain ⟨A, -, hsim⟩ := hr.sim anyStep (fun _ _ _ => trivial)
    exact ih.step hsim ha hs

/-- What the API promises of `mtx` in a state with history `h`. -/
structure MutexSafe (S : System Links) (mtx : MutexId) (h : List Event) : Prop where
  locked : S.kernel.mutex_state mtx = .LOCKED ↔ S.kernel.mutex_owner mtx ≠ none
  wait_list : ∃ xs, S.kernel.lists.IsList (.mutex_blocked_list mtx) xs ∧
    (xs ≠ [] → S.kernel.mutex_state mtx = .LOCKED) ∧
    ∀ t, S.kernel.mutex_owner mtx = some t → .event_list_item t ∉ xs
  holder : ∀ t, Holds mtx t h ↔ S.kernel.mutex_owner mtx = some t
  one_holder : ∀ t u, Holds mtx t h → Holds mtx u h → t = u
  /-- An unlock with waiters hands the mutex to one of them, and wakes no other task. -/
  hand_off : ∀ t es S', S.step (.mutex_unlock t mtx) = some (es, S') →
    0 < S.kernel.lists.num_items (.mutex_blocked_list mtx) →
    ∃ w, lockStatus mtx w h = .waiting ∧ es = [.unlocks t mtx, .lock_handed w mtx] ∧
      S'.kernel.mutex_state mtx = .LOCKED ∧ S'.kernel.mutex_owner mtx = some w ∧
      S'.kernel.current_state w = .READY ∧
      ∀ u, u ≠ w → S'.kernel.current_state u = S.kernel.current_state u
  /-- Only a waiter that has not timed out is made owner. -/
  handed : ∀ t h₁ h₂, h = h₁ ++ .lock_handed t mtx :: h₂ → lockStatus mtx t h₁ = .waiting
  /-- A task made owner does not time out. -/
  timed_out : ∀ t h₁ h₂, h = h₁ ++ .lock_returns t mtx E_TIMED_OUT :: h₂ → ¬ Holds mtx t h₁

/-- An event of the history was allowed where it happened. -/
theorem LockInv.allowed {mtx : MutexId} {t : Tcb} {e : Event} {h₁ h₂ : List Event}
    (hi : LockInv S mtx h) (he : h = h₁ ++ e :: h₂) :
    Allowed mtx t (lockStatus mtx t h₁) e := by
  have := hi.legal t
  rw [he, legal_append] at this
  exact this.2.1

/-- In every run in which no task locks a mutex it owns, every mutex excludes, and passes from the
task that unlocks it to exactly one of its waiters. -/
theorem mutex_exclusion (hr : Run noRelock (boot max_count initial_count) h S) (mtx : MutexId) :
    MutexSafe S mtx h := by
  have hi := hr.lockInv mtx
  obtain ⟨A, -, hs⟩ := hr.sim anyStep (fun _ _ _ => trivial)
  refine ⟨hi.locked, ⟨_, hs.kernel.linked.refines.rep _, fun hne => ?_, fun t ho hm => ?_⟩,
    fun t => (hi.owner t).symm, fun t u ht hu => ?_, fun t es S' hstep hn => ?_,
    fun t h₁ h₂ he => hi.allowed he ⟨rfl, rfl⟩, fun t h₁ h₂ he hh => ?_⟩
  · obtain ⟨x, hx⟩ := List.exists_mem_of_ne_nil _ hne
    obtain ⟨t, rfl⟩ : ∃ t, x = .event_list_item t := ⟨x.owner, (hs.kernel.wait_mem rfl (grounded_entered _) hx).1⟩
    exact hi.waiting t ((hi.waiting_iff hs).mp hx)
  · have hw := (hi.waiting_iff hs).mp hm
    rcases (hi.owner t).mp ho with e | e <;> rw [e] at hw <;> cases hw
  · have := (hi.owner t).mpr ht
    rw [(hi.owner u).mpr hu] at this
    exact (Option.some.inj this).symm
  · obtain ⟨⟨-, ho⟩, hstep⟩ := Option.ite_none_right_eq_some.mp hstep
    obtain ⟨rfl, rfl⟩ := Prod.mk.inj (Option.some.inj hstep)
    have hl : S.kernel.mutex_state mtx = .LOCKED := hi.locked.mpr (by simp [ho])
    obtain ⟨hnil, -⟩ | ⟨w, lists, prio, held, inh, hw, he⟩ := mutex_unlock_effect hs.kernel hl
    · have hz : S.kernel.lists.num_items (.mutex_blocked_list mtx) = 0 := by
        rw [← (hs.kernel.num_items_zero _).mpr hnil]; exact hs.kernel.num_items_eq _
      rw [hz] at hn; cases hn
    · rw [he]
      exact ⟨w, (hi.waiting_iff hs).mp hw, rfl, hl, by simp, by simp, fun u hu => by simp [hu]⟩
  · rcases hi.allowed he ⟨rfl, rfl⟩ with ⟨e, -⟩ | ⟨-, e | e⟩
    · cases e
    · rcases hh with e' | e' <;> rw [e] at e' <;> cases e'
    · rcases hh with e' | e' <;> rw [e] at e' <;> cases e'

/-- Two tasks of core 0: the first locks, the second waits, the first hands over. -/
def hand_over : List Action :=
  [.scheduler_init 0, .task_create 0 100 2, .task_create 0 100 2, .scheduler_start 0,
   .mutex_lock (.pool 0 0) 0 (-1), .tick 0 [], .mutex_lock (.pool 0 1) 0 7, .tick 0 [],
   .mutex_unlock (.pool 0 0) 0, .tick 0 [], .proceed (.pool 0 1)]

theorem hand_over_run :
    ((boot (fun _ => 1) (fun _ => 0)).exec noRelock hand_over).isSome = true := by rfl

theorem mutex_exclusion_hand_over :
    MutexSafe (((boot (fun _ => 1) (fun _ => 0)).exec noRelock hand_over).get hand_over_run).2 0
      (((boot (fun _ => 1) (fun _ => 0)).exec noRelock hand_over).get hand_over_run).1 :=
  mutex_exclusion (Run.of_exec (Option.some_get hand_over_run).symm) 0

end Rpitos
