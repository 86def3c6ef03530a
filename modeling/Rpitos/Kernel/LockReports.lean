import Rpitos.Kernel.MutexRuns

/-!
# Kernel.LockReports

What `mutex_lock` reports. After a wait it looks at `mutex_owner` alone: the caller owns the mutex
when an unlock has handed it over, and does not when a tick has ended the wait, unless it owned the
mutex before. A task that waits for its own mutex can only time out, and is told `E_OK`.
-/

namespace Rpitos

open Function ListOps StatusCode

/-- No task waits for a time for a mutex it owns. -/
def noTimedRelock {L : Type} : Guard L
  | S, .mutex_lock t mtx timeout_ms => S.kernel.mutex_owner mtx = some t → timeout_ms ≤ 0
  | _, _ => True

instance {L : Type} (S : System L) : (a : Action) → Decidable (noTimedRelock S a)
  | .mutex_lock _ _ _ => inferInstanceAs (Decidable (_ → _))
  | .scheduler_init _ | .scheduler_start _ | .tick _ _ | .task_create _ _ _ | .stack_write _ _
  | .task_delay_ms _ _ | .task_delay_until_ms _ _ _ | .mutex_set_inheritance _ _
  | .mutex_unlock _ _ | .semaphore_take _ _ _ | .semaphore_give _ | .proceed _ => .isTrue trivial

/-- For a task in `mutex_lock` the owner tells how its wait has ended. -/
structure LockReports (S : System Links) (mtx : MutexId) (h : List Event) : Prop where
  locked : S.kernel.mutex_state mtx = .LOCKED ↔ S.kernel.mutex_owner mtx ≠ none
  waiting : ∀ t timeout_ms, S.call t = .mutex_lock mtx timeout_ms →
    S.kernel.current_state t = .BLOCKED → lockStatus mtx t h = .waiting ∧
      (S.kernel.mutex_owner mtx = some t → timeout_ms ≤ 0)
  woken : ∀ t timeout_ms, S.call t = .mutex_lock mtx timeout_ms →
    S.kernel.current_state t ≠ .BLOCKED →
      (lockStatus mtx t h = .handed ∧ S.kernel.mutex_owner mtx = some t) ∨
      (lockStatus mtx t h = .expired ∧ S.kernel.mutex_owner mtx ≠ some t)

namespace LockReports

variable {S S' : System Links} {mtx : MutexId} {h es : List Event} {t u : Tcb}

theorem boot (max_count initial_count : SemaphoreId → Nat) :
    LockReports (boot max_count initial_count) mtx [] :=
  ⟨by simp [Rpitos.boot, System.boot, Kernel.boot],
    fun t _ ht => by simp [Rpitos.boot, System.boot] at ht,
    fun t _ ht => by simp [Rpitos.boot, System.boot] at ht⟩

/-- A task that a tick wakes waited for a time, so it does not own the mutex. -/
theorem quiet {ts : List Tcb} (hi : LockReports S mtx h) (hq : LockQuiet mtx ts S es S') :
    LockReports S' mtx (h ++ es) := by
  have hst : ∀ t, lockStatus mtx t (h ++ es) =
      if t ∈ ts ∧ lockStatus mtx t h = .waiting then .expired else lockStatus mtx t h := fun t => by
    rw [lockStatus_append]; exact (hq.events t _).1
  have hcall : ∀ t timeout_ms, S'.call t = .mutex_lock mtx timeout_ms →
      S.call t = .mutex_lock mtx timeout_ms := by
    intro t timeout_ms hc
    rcases hq.call t with e | ⟨-, hn⟩
    · rw [← e, hc]
    · exact absurd (by rw [hc]; rfl) hn
  refine ⟨by rw [hq.state, hq.owner]; exact hi.locked, fun t timeout_ms hc hb => ?_,
    fun t timeout_ms hc hb => ?_⟩
  · have hc := hcall t timeout_ms hc
    obtain ⟨hn, hb⟩ := (hq.blocked t (by rw [hc]; rfl)).mp hb
    rw [hst, hq.owner, if_neg fun h => hn h.1]
    exact hi.waiting t timeout_ms hc hb
  · have hc := hcall t timeout_ms hc
    rw [Ne, hq.blocked t (by rw [hc]; rfl), not_and] at hb
    rw [hst, hq.owner]
    by_cases hold : S.kernel.current_state t = .BLOCKED
    · -- the tick ends the wait
      obtain ⟨hw, hown⟩ := hi.waiting t timeout_ms hc hold
      have hm : t ∈ ts := by
        by_contra hn
        exact hb hn hold
      have ht := (hq.timed t hm).2
      rw [hc] at ht
      refine .inr ⟨if_pos ⟨hm, hw⟩, fun ho => ?_⟩
      have hpos : 0 < timeout_ms := of_decide_eq_true ht
      have := hown ho
      omega
    · have hw := hi.woken t timeout_ms hc hold
      rwa [if_neg]
      rintro ⟨-, e⟩
      rcases hw with ⟨e', -⟩ | ⟨e', -⟩ <;> rw [e] at e' <;> cases e'

/-- A task in `mutex_lock` of the mutex is not in its own code. -/
theorem ne_own {timeout_ms : Int} (ho : S.call t = .own)
    (hc : S.call u = .mutex_lock mtx timeout_ms) : u ≠ t := by
  rintro rfl
  rw [ho] at hc
  cases hc

/-- Events of another task. -/
theorem status_same (he : ∀ e ∈ es, ∀ st, lockStep mtx u st e = st) :
    lockStatus mtx u (h ++ es) = lockStatus mtx u h := by
  rw [lockStatus_append]
  generalize lockStatus mtx u h = st
  induction es with
  | nil => rfl
  | cons e es ih =>
    rw [List.foldl_cons, he e (by simp), ih fun e' h' => he e' (by simp [h'])]

/-- The caller found the mutex unlocked, so nobody else was handed it. -/
theorem found {K : Kernel Links} (hi : LockReports S mtx h) (ho : S.call t = .own)
    (hun : S.kernel.mutex_state mtx = .UNLOCKED) (hst : K.mutex_state mtx = .LOCKED)
    (hown : K.mutex_owner mtx = some t) (hcs : K.current_state = S.kernel.current_state) :
    LockReports (S.withKernel K) mtx (h ++ [.lock_returns t mtx E_OK]) := by
  have hsame : ∀ u, u ≠ t →
      lockStatus mtx u (h ++ [.lock_returns t mtx E_OK]) = lockStatus mtx u h := fun u hut =>
    status_same (by simp [lockStep, Ne.symm hut])
  refine ⟨by simp [hst, hown], fun u timeout_ms hc hb => ?_, fun u timeout_ms hc hb => ?_⟩
  · have hut := ne_own ho hc
    rw [System.withKernel_kernel, hcs] at hb
    rw [hsame u hut, System.withKernel_kernel, hown]
    exact ⟨(hi.waiting u timeout_ms hc hb).1, fun e => absurd (Option.some.inj e).symm hut⟩
  · have hut := ne_own ho hc
    rw [System.withKernel_kernel, hcs] at hb
    rw [hsame u hut, System.withKernel_kernel, hown]
    rcases hi.woken u timeout_ms hc hb with ⟨-, howner⟩ | ⟨he, -⟩
    · have hl := hi.locked.mpr (by simp [howner])
      rw [hun] at hl; cases hl
    · exact .inr ⟨he, fun e => hut (Option.some.inj e).symm⟩

theorem refused {code : StatusCode} (hi : LockReports S mtx h) (ho : S.call t = .own) :
    LockReports S mtx (h ++ [.lock_returns t mtx code]) := by
  have hsame : ∀ u, u ≠ t →
      lockStatus mtx u (h ++ [.lock_returns t mtx code]) = lockStatus mtx u h := fun u hut =>
    status_same (by simp [lockStep, Ne.symm hut])
  refine ⟨hi.locked, fun u timeout_ms hc hb => ?_, fun u timeout_ms hc hb => ?_⟩
  · rw [hsame u (ne_own ho hc)]; exact hi.waiting u timeout_ms hc hb
  · rw [hsame u (ne_own ho hc)]; exact hi.woken u timeout_ms hc hb

/-- A task that begins to wait for its own mutex does so for ever. -/
theorem waits {K : Kernel Links} {timeout_ms : Int} (hi : LockReports S mtx h)
    (hrelock : S.kernel.mutex_owner mtx = some t → timeout_ms ≤ 0)
    (hst : K.mutex_state mtx = S.kernel.mutex_state mtx)
    (hown : K.mutex_owner mtx = S.kernel.mutex_owner mtx)
    (hcs : K.current_state = update S.kernel.current_state t .BLOCKED) :
    LockReports ((S.withKernel K).setCall t (.mutex_lock mtx timeout_ms)) mtx
      (h ++ [.lock_waits t mtx]) := by
  have hsame : ∀ u, u ≠ t →
      lockStatus mtx u (h ++ [.lock_waits t mtx]) = lockStatus mtx u h := fun u hut =>
    status_same (by simp [lockStep, Ne.symm hut])
  refine ⟨?_, fun u timeout hc hb => ?_, fun u timeout hc hb => ?_⟩
  · show K.mutex_state mtx = .LOCKED ↔ K.mutex_owner mtx ≠ none
    rw [hst, hown]; exact hi.locked
  · show _ ∧ (K.mutex_owner mtx = some u → _)
    rw [hown]
    by_cases hut : u = t
    · subst hut
      have hc : Call.mutex_lock mtx timeout_ms = .mutex_lock mtx timeout := by simpa using hc
      cases hc
      exact ⟨one_event u (by simp [lockStep]), hrelock⟩
    · rw [hsame u hut]
      exact hi.waiting u timeout (by simpa [hut] using hc) (by simpa [hut, hcs] using hb)
  · show _ ∧ K.mutex_owner mtx = some u ∨ _ ∧ K.mutex_owner mtx ≠ some u
    rw [hown]
    by_cases hut : u = t
    · subst hut; simp [hcs] at hb
    · rw [hsame u hut]
      exact hi.woken u timeout (by simpa [hut] using hc) (by simpa [hut, hcs] using hb)

/-- Nobody waits any more, and nobody was handed the mutex, which the caller owned. -/
theorem released {K : Kernel Links} (hi : LockReports S mtx h) (ho : S.call t = .own)
    (howner : S.kernel.mutex_owner mtx = some t) (hst : K.mutex_state mtx = .UNLOCKED)
    (hnone : K.mutex_owner mtx = none) (hcs : K.current_state = S.kernel.current_state) :
    LockReports (S.withKernel K) mtx (h ++ [.unlocks t mtx]) := by
  have hsame : ∀ u, u ≠ t → lockStatus mtx u (h ++ [.unlocks t mtx]) = lockStatus mtx u h :=
    fun u hut => status_same (by simp [lockStep, Ne.symm hut])
  refine ⟨by simp [hst, hnone], fun u timeout_ms hc hb => ?_, fun u timeout_ms hc hb => ?_⟩
  · rw [System.withKernel_kernel, hcs] at hb
    rw [hsame u (ne_own ho hc), System.withKernel_kernel, hnone]
    exact ⟨(hi.waiting u timeout_ms hc hb).1, fun e => by cases e⟩
  · have hut := ne_own ho hc
    rw [System.withKernel_kernel, hcs] at hb
    rw [hsame u hut, System.withKernel_kernel, hnone]
    rcases hi.woken u timeout_ms hc hb with ⟨-, e⟩ | ⟨he, -⟩
    · rw [howner] at e
      exact absurd (Option.some.inj e).symm hut
    · exact .inr ⟨he, fun e => by cases e⟩

/-- The waiter `w` is the owner, and no other task in `mutex_lock` is. -/
theorem handed {K : Kernel Links} {w : Tcb} (hi : LockReports S mtx h) (ho : S.call t = .own)
    (howner : S.kernel.mutex_owner mtx = some t)
    (hst : K.mutex_state mtx = S.kernel.mutex_state mtx) (hown : K.mutex_owner mtx = some w)
    (hcs : K.current_state = update S.kernel.current_state w .READY) :
    LockReports (S.withKernel K) mtx (h ++ [.unlocks t mtx, .lock_handed w mtx]) := by
  have hl : S.kernel.mutex_state mtx = .LOCKED := hi.locked.mpr (by simp [howner])
  have hsame : ∀ u, u ≠ t → u ≠ w → lockStatus mtx u
      (h ++ [.unlocks t mtx, .lock_handed w mtx]) = lockStatus mtx u h := fun u hut huw =>
    status_same (by simp [lockStep, Ne.symm hut, Ne.symm huw])
  refine ⟨by simp [hst, hl, hown], fun u timeout_ms hc hb => ?_, fun u timeout_ms hc hb => ?_⟩
  · have huw : u ≠ w := by rintro rfl; simp [hcs] at hb
    rw [hsame u (ne_own ho hc) huw, System.withKernel_kernel, hown]
    refine ⟨(hi.waiting u timeout_ms hc (by simpa [hcs, huw] using hb)).1, fun e => ?_⟩
    exact absurd (Option.some.inj e).symm huw
  · have hut := ne_own ho hc
    rw [System.withKernel_kernel, hown]
    by_cases huw : u = w
    · subst huw
      refine .inl ⟨?_, rfl⟩
      rw [lockStatus_append]
      simp [lockStep]
    · rw [hsame u hut huw]
      rcases hi.woken u timeout_ms hc (by simpa [hcs, huw] using hb) with ⟨-, e⟩ | ⟨he, -⟩
      · rw [howner] at e
        exact absurd (Option.some.inj e).symm hut
      · exact .inr ⟨he, fun e => huw (Option.some.inj e).symm⟩

theorem returns {code : StatusCode} (hi : LockReports S mtx h) :
    LockReports (S.setCall t .own) mtx (h ++ [.lock_returns t mtx code]) := by
  have hsame : ∀ u, u ≠ t →
      lockStatus mtx u (h ++ [.lock_returns t mtx code]) = lockStatus mtx u h := fun u hut =>
    status_same (by simp [lockStep, Ne.symm hut])
  have hut : ∀ {u timeout_ms}, (S.setCall t .own).call u = .mutex_lock mtx timeout_ms → u ≠ t := by
    rintro u timeout_ms hc rfl
    simp at hc
  refine ⟨hi.locked, fun u timeout_ms hc hb => ?_, fun u timeout_ms hc hb => ?_⟩
  · rw [hsame u (hut hc)]
    exact hi.waiting u timeout_ms (by simpa [hut hc] using hc) hb
  · rw [hsame u (hut hc)]
    exact hi.woken u timeout_ms (by simpa [hut hc] using hc) hb

/-- Each step keeps the invariant. -/
theorem step {A : System Sequences} {a : Action} (hi : LockReports S mtx h)
    (hs : SSim S A grounded) (ha : noTimedRelock S a) (hstep : S.step a = some (es, S')) :
    LockReports S' mtx (h ++ es) := by
  cases LockMove.of_step hs hi.locked.mpr hstep with
  | quiet hq => exact hi.quiet hq
  | found ho hun hst hown hcs => exact hi.found ho hun hst hown hcs
  | refused ho _ => exact hi.refused ho
  | waits _ _ _ hst hown hcs => exact hi.waits ha hst hown hcs
  | released ho howner _ hst hnone hcs => exact hi.released ho howner hst hnone hcs
  | handed ho howner _ _ hst hown hcs => exact hi.handed ho howner hst hown hcs
  | returns _ _ => exact hi.returns

end LockReports

/-! ## Runs -/

variable {max_count initial_count : SemaphoreId → Nat} {h : List Event} {S : System Links}

theorem Run.lockReports (hr : Run noTimedRelock (boot max_count initial_count) h S)
    (mtx : MutexId) : LockReports S mtx h := by
  induction hr with
  | start => exact LockReports.boot _ _
  | @step h es S S' a hr ha hs ih =>
    obtain ⟨A, -, hsim⟩ := hr.sim anyStep (fun _ _ _ => trivial)
    exact ih.step hsim ha hs

/-- What `mutex_lock` of `mtx` returns, in a state with history `h`. -/
structure LockTruthful (S : System Links) (mtx : MutexId) (h : List Event) : Prop where
  /-- `E_OK` only to a task that finds the mutex unlocked, or that an unlock has handed it to while
  it waited. -/
  ok : ∀ a es S' t, S.step a = some (es, S') → .lock_returns t mtx E_OK ∈ es →
    S'.kernel.mutex_owner mtx = some t ∧
      ((∃ timeout_ms, a = .mutex_lock t mtx timeout_ms ∧
          S.kernel.mutex_state mtx = .UNLOCKED) ∨
        (a = .proceed t ∧ lockStatus mtx t h = .handed))
  refused : ∀ t es S', S.step (.mutex_lock t mtx 0) = some (es, S') →
    S.kernel.mutex_state mtx = .LOCKED → es = [.lock_returns t mtx E_TIMED_OUT]
  timed_out : ∀ t timeout_ms es S', S.call t = .mutex_lock mtx timeout_ms →
    lockStatus mtx t h = .expired → S.step (.proceed t) = some (es, S') →
    es = [.lock_returns t mtx E_TIMED_OUT]

/-- A step that leaves the mutex alone returns from no `mutex_lock` of it. -/
theorem LockQuiet.no_return {S S' : System Links} {mtx : MutexId} {ts : List Tcb}
    {es : List Event} {t : Tcb} {code : StatusCode} (hq : LockQuiet mtx ts S es S') :
    .lock_returns t mtx code ∉ es := by
  intro hm
  obtain ⟨es₁, es₂, rfl⟩ := List.append_of_mem hm
  -- whatever the status was before, it is the same behind the return
  have hall : ∀ st st', (es₁ ++ .lock_returns t mtx code :: es₂).foldl (lockStep mtx t) st =
      (es₁ ++ .lock_returns t mtx code :: es₂).foldl (lockStep mtx t) st' := by
    intro st st'
    simp [lockStep]
  have h := hall .out .holding
  rw [(hq.events t .out).1, (hq.events t .holding).1] at h
  simp at h

/-- A locked mutex refuses a caller that does not wait. -/
theorem System.lock_refused {S S' : System Links} {mtx : MutexId} {es : List Event} {t : Tcb}
    (hl : S.kernel.mutex_state mtx = .LOCKED)
    (hstep : S.step (.mutex_lock t mtx 0) = some (es, S')) :
    es = [.lock_returns t mtx E_TIMED_OUT] := by
  cases System.step_move hstep with
  | mutex_lock _ =>
    unfold System.lock
    rw [mutex_lock_refused hl]

namespace LockReports

variable {S S' : System Links} {mtx : MutexId} {A : System Sequences} {es : List Event} {t : Tcb}

/-- `E_OK` means that the mutex was found unlocked or handed over. -/
theorem ok {a : Action} (hi : LockReports S mtx h) (hs : SSim S A grounded)
    (hstep : S.step a = some (es, S')) (hm : .lock_returns t mtx E_OK ∈ es) :
    S'.kernel.mutex_owner mtx = some t ∧
      ((∃ timeout_ms, a = .mutex_lock t mtx timeout_ms ∧ S.kernel.mutex_state mtx = .UNLOCKED) ∨
        (a = .proceed t ∧ lockStatus mtx t h = .handed)) := by
  cases LockMove.of_step hs hi.locked.mpr hstep with
  | quiet hq => exact absurd hm hq.no_return
  | found _ hun _ hown _ =>
    cases List.mem_singleton.mp hm
    exact ⟨hown, .inl ⟨_, rfl, hun⟩⟩
  | refused _ _ => cases List.mem_singleton.mp hm
  | waits _ _ _ _ _ _ => cases List.mem_singleton.mp hm
  | released _ _ _ _ _ _ => cases List.mem_singleton.mp hm
  | handed _ _ _ _ _ _ _ => simp at hm
  | returns hc hb =>
    have hm := List.mem_singleton.mp hm
    injection hm with ht _ hcode
    subst ht
    unfold mutex_lock_result at hcode
    have howner : S.kernel.mutex_owner mtx = some t := by
      by_contra hn
      rw [if_neg hn] at hcode
      cases hcode
    refine ⟨howner, .inr ⟨rfl, ?_⟩⟩
    rcases hi.woken t _ hc hb with ⟨hh, -⟩ | ⟨-, hn⟩
    · exact hh
    · exact absurd howner hn

/-- A task whose wait a tick has ended is told so. -/
theorem timed_out {timeout_ms : Int} (hi : LockReports S mtx h) (hs : SSim S A grounded)
    (hc : S.call t = .mutex_lock mtx timeout_ms) (hexp : lockStatus mtx t h = .expired)
    (hstep : S.step (.proceed t) = some (es, S')) : es = [.lock_returns t mtx E_TIMED_OUT] := by
  cases System.step_move hstep with
  | proceed hrun hp =>
    unfold System.proceed at hp
    rw [hc] at hp
    cases hp
    rcases hi.woken t timeout_ms hc (hs.running hrun).2.1 with ⟨hh, -⟩ | ⟨-, hn⟩
    · rw [hexp] at hh; cases hh
    · unfold mutex_lock_result
      rw [if_neg hn]

end LockReports

/-- In every run in which no task waits for a time for a mutex it owns, `mutex_lock` says what has
happened in the call. -/
theorem mutex_lock_truthful (hr : Run noTimedRelock (boot max_count initial_count) h S)
    (mtx : MutexId) : LockTruthful S mtx h := by
  have hi := hr.lockReports mtx
  obtain ⟨A, -, hs⟩ := hr.sim anyStep (fun _ _ _ => trivial)
  exact ⟨fun _ _ _ _ hstep hm => hi.ok hs hstep hm,
    fun _ _ _ hstep hl => System.lock_refused hl hstep,
    fun _ _ _ _ hc hexp hstep => hi.timed_out hs hc hexp hstep⟩

theorem hand_over_timed_run :
    ((boot (fun _ => 1) (fun _ => 0)).exec noTimedRelock hand_over).isSome = true := by rfl

theorem mutex_lock_truthful_hand_over :
    LockTruthful (((boot (fun _ => 1) (fun _ => 0)).exec noTimedRelock hand_over).get
        hand_over_timed_run).2 0
      (((boot (fun _ => 1) (fun _ => 0)).exec noTimedRelock hand_over).get hand_over_timed_run).1 :=
  mutex_lock_truthful (Run.of_exec (Option.some_get hand_over_timed_run).symm) 0

/-- A task locks a mutex, locks it again for one tick, and times out. -/
def relock : List Action :=
  [.scheduler_init 0, .task_create 0 100 2, .scheduler_start 0, .mutex_lock (.pool 0 0) 0 (-1),
   .mutex_lock (.pool 0 0) 0 1, .tick 0 []]

theorem relock_run :
    ((boot (fun _ => 1) (fun _ => 0)).exec anyStep relock).isSome = true := by rfl

/-- The history and the state after `relock`. -/
def relocked : List Event × System Links :=
  ((boot (fun _ => 1) (fun _ => 0)).exec anyStep relock).get relock_run

theorem relocked_step : (relocked.2.step (.proceed (.pool 0 0))).isSome = true := by rfl

/-- The wait was ended by the tick, and the caller is told `E_OK`. -/
theorem mutex_lock_relocked : ∃ h S es S', Run anyStep (boot (fun _ => 1) (fun _ => 0)) h S ∧
    S.call (.pool 0 0) = .mutex_lock 0 1 ∧ lockStatus 0 (.pool 0 0) h = .expired ∧
    S.step (.proceed (.pool 0 0)) = some (es, S') ∧ es = [.lock_returns (.pool 0 0) 0 E_OK] ∧
    ¬ LockTruthful S 0 h := by
  have hr : Run anyStep (boot (fun _ => 1) (fun _ => 0)) relocked.1 relocked.2 :=
    Run.of_exec (Option.some_get relock_run).symm
  have hcall : relocked.2.call (.pool 0 0) = .mutex_lock 0 1 := by rfl
  have hexp : lockStatus 0 (.pool 0 0) relocked.1 = .expired := by decide +kernel
  have hstep : relocked.2.step (.proceed (.pool 0 0)) =
      some ((relocked.2.step (.proceed (.pool 0 0))).get relocked_step) :=
    (Option.some_get relocked_step).symm
  have hes : ((relocked.2.step (.proceed (.pool 0 0))).get relocked_step).1 =
      [.lock_returns (.pool 0 0) 0 E_OK] := by decide +kernel
  refine ⟨_, _, _, _, hr, hcall, hexp, hstep, hes, fun ht => ?_⟩
  cases hes.symm.trans (ht.timed_out _ _ _ _ hcall hexp hstep)

end Rpitos
