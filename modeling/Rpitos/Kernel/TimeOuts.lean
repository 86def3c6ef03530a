import Rpitos.Kernel.Touches
import Rpitos.Kernel.WakeUps

/-!
# Kernel.TimeOuts

The calls that wait for a time. `InTime` says where a task is in such a call, and what it knows of the
time that has passed; `timeouts_not_early`: no call reports a time-out, and no delay returns, before
its ticks have been counted.
-/

namespace Rpitos

open Function ListOps StatusCode

/-- The ticks after which a call of `t` gives up, or returns. -/
def Action.timeout (t : Tcb) : Action → Option Nat
  | .task_delay_ms u ticks => if u = t then some ticks else none
  | .mutex_lock u _ timeout_ms => if u = t ∧ 0 < timeout_ms then some timeout_ms.toNat else none
  | .semaphore_take u _ timeout_ms => if u = t ∧ 0 < timeout_ms then some timeout_ms.toNat else none
  | _ => none

/-- The call of `t` reports that its time is over. -/
def Event.times_out (t : Tcb) : Event → Bool
  | .lock_returns u _ code => u = t ∧ code = E_TIMED_OUT
  | .take_returns u _ code => u = t ∧ code = E_TIMED_OUT
  | _ => false

section Handed

variable {t u : Tcb} {S S' : System Links} {A : System Sequences} {a : Action} {es : List Event}

/-- A mutex with an owner is locked. -/
def OwnedLocked (S : System Links) : Prop :=
  ∀ mtx, S.kernel.mutex_owner mtx ≠ none → S.kernel.mutex_state mtx = .LOCKED

theorem OwnedLocked.step (hl : OwnedLocked S) (hs : SSim S A grounded)
    (hstep : S.step a = some (es, S')) : OwnedLocked S' := by
  intro mtx howner
  cases LockMove.of_step hs (hl mtx) hstep with
  | quiet hq =>
    rw [hq.state]
    exact hl mtx (by rwa [← hq.owner])
  | found _ _ hst _ _ => exact hst
  | refused _ hst => exact hst
  | waits _ hst _ hst' _ _ => exact hst'.trans hst
  | released _ _ _ _ hown _ => exact absurd hown howner
  | handed _ hown _ _ hst _ _ => exact hst.trans (hl mtx (by rw [hown]; exact Option.some_ne_none _))
  | returns _ _ => exact hl mtx howner

/-- Inside a call a task keeps the mutexes it owns. -/
theorem owner_kept {mtx : MutexId} (hl : OwnedLocked S) (hs : SSim S A grounded)
    (hcall : S.call t ≠ .own) (howner : S.kernel.mutex_owner mtx = some t)
    (hstep : S.step a = some (es, S')) : S'.kernel.mutex_owner mtx = some t := by
  have hlocked := hl mtx (by rw [howner]; exact Option.some_ne_none _)
  cases LockMove.of_step hs (hl mtx) hstep with
  | quiet hq => exact hq.owner.trans howner
  | found _ hun _ _ _ => cases hlocked.symm.trans hun
  | refused _ _ => exact howner
  | waits _ _ _ _ hown _ => exact hown.trans howner
  | released hown ho _ _ _ _ =>
    cases howner.symm.trans ho
    exact absurd hown hcall
  | handed hown ho _ _ _ _ _ =>
    cases howner.symm.trans ho
    exact absurd hown hcall
  | returns _ _ => exact howner

/-- A task that is handed a mutex owns it. -/
theorem handed_owner {mtx : MutexId} (hs : SSim S A grounded)
    (hstep : S.step a = some (es, S')) (hmem : .lock_handed t mtx ∈ es) :
    S'.kernel.mutex_owner mtx = some t := by
  cases System.step_move hstep with
  | @mutex_unlock u m _ _ =>
    unfold System.unlock at hmem ⊢
    dsimp only at hmem ⊢
    by_cases hl : S.kernel.mutex_state m = .LOCKED
    case neg =>
      rw [mutex_unlock, if_neg hl] at hmem
      simp at hmem
    obtain ⟨-, lists, prio, held, inh, he⟩ | ⟨w, lists, prio, held, inh, -, he⟩ :=
      mutex_unlock_effect hs.kernel hl
    · rw [he] at hmem
      simp at hmem
    · rw [he] at hmem ⊢
      simp only [List.mem_cons, reduceCtorEq, Event.lock_handed.injEq, List.not_mem_nil, or_false,
        false_or] at hmem
      obtain ⟨rfl, rfl⟩ := hmem
      exact update_self ..
  | tick _ =>
    rcases List.mem_append.mp hmem with hmem | hmem
    · simp at hmem
    · cases gives_events _ _ _ hmem
  | semaphore_give => cases give_events _ _ _ hmem
  | mutex_lock _ => unfold System.lock at hmem; split at hmem <;> simp at hmem
  | proceed _ hp =>
    cases System.proceeds hp with
    | block_until hc => simp at hmem
    | delayed hc => simp at hmem
    | mutex_lock hc => simp at hmem
    | semaphore_take hc => unfold System.take at hmem; split at hmem <;> simp at hmem
    | semaphore_wait hc => unfold System.takeWake at hmem; split at hmem <;> simp at hmem
  | _ => simp at hmem

/-- A time-out is reported in a section of the task itself. -/
theorem times_out_caller {e : Event} (hstep : S.step a = some (es, S')) (hmem : e ∈ es)
    (he : e.times_out t = true) : a.caller = some t := by
  cases System.step_move hstep with
  | tick _ =>
    rcases List.mem_append.mp hmem with hmem | hmem
    · obtain ⟨u, -, rfl⟩ := List.mem_map.mp hmem
      cases he
    · have hgive := gives_events _ _ _ hmem
      cases e <;> first | cases he | cases hgive
  | semaphore_give =>
    have hgive := give_events _ _ _ hmem
    cases e <;> first | cases he | cases hgive
  | @mutex_lock u m timeout_ms _ =>
    unfold System.lock at hmem
    split at hmem
    · rw [List.mem_singleton.mp hmem] at he
      exact congrArg some (decide_eq_true_iff.mp he).1
    · rw [List.mem_singleton.mp hmem] at he
      cases he
  | mutex_unlock _ _ =>
    unfold System.unlock at hmem
    dsimp only at hmem
    split at hmem
    · simp only [List.mem_cons, List.not_mem_nil, or_false] at hmem
      rcases hmem with rfl | rfl <;> cases he
    · rw [List.mem_singleton.mp hmem] at he
      cases he
  | semaphore_take _ =>
    rw [List.mem_singleton.mp hmem] at he
    cases he
  | @proceed u es' S₁ hr hp =>
    cases System.proceeds hp with
    | block_until hc => cases hmem
    | delayed hc => cases hmem
    | mutex_lock hc =>
      rw [List.mem_singleton.mp hmem] at he
      exact congrArg some (decide_eq_true_iff.mp he).1
    | semaphore_take hc =>
      unfold System.take at hmem
      split at hmem
      · rw [List.mem_singleton.mp hmem] at he
        exact congrArg some (decide_eq_true_iff.mp he).1
      · rw [List.mem_singleton.mp hmem] at he
        cases he
    | semaphore_wait hc =>
      unfold System.takeWake at hmem
      split at hmem
      · rw [List.mem_singleton.mp hmem] at he
        exact congrArg some (decide_eq_true_iff.mp he).1
      · cases hmem
  | _ => cases hmem

/-- What has ended a wait. -/
theorem woken (hs : SSim S A grounded) (hcall : S.call t ≠ .own) (ha : a.caller ≠ some t)
    (hstep : S.step a = some (es, S')) (hb : S.kernel.current_state t = .BLOCKED)
    (hb' : S'.kernel.current_state t ≠ .BLOCKED) :
    (a.ticks t.home = true ∧ S.kernel.wakeup_time t ≤ u64 (S.kernel.tick_count t.home + 1)) ∨
      ∃ e ∈ es, e.hands t = true := by
  have hwaits := TaskWaits.step hs hcall ha hstep
  rw [Ne, hwaits.blocked, and_iff_right hb, forall_wakes, not_and_or, not_not] at hb'
  obtain hexpires | hhands := hb'
  · obtain ⟨htick, -, -, hdue⟩ := (step_expires hs hstep).mp hexpires
    exact .inl ⟨htick, hdue⟩
  · push Not at hhands
    obtain ⟨e, he, hhands⟩ := hhands
    exact .inr ⟨e, he, by simpa using hhands⟩

end Handed

/-- Where `t` is in a call that began `k` ticks ago and is to wait for `n` of them, until
`deadline`. -/
inductive InTime (t : Tcb) (delays : Bool) (n k deadline : Nat) (S : System Links) : Prop
  | returned (hcall : S.call t = .own) (hlate : delays = true → n ≤ k)
  | block_until (hdelays : delays = true) (hcall : S.call t = .block_until deadline)
  | delayed (hdelays : delays = true) (hcall : S.call t = .delayed)
      (hwake : S.kernel.wakeup_time t = deadline)
      (hend : S.kernel.current_state t = .BLOCKED ∨ n ≤ k)
  | mutex_lock {mtx : MutexId} {timeout_ms : Int} (hdelays : delays = false)
      (hcall : S.call t = .mutex_lock mtx timeout_ms)
      (hwake : S.kernel.wakeup_time t = deadline)
      (hend : S.kernel.current_state t = .BLOCKED ∨ S.kernel.mutex_owner mtx = some t ∨ n ≤ k)
  | semaphore_take {smph : SemaphoreId} {timeout_ms : Int} (hdelays : delays = false)
      (hpos : 0 < timeout_ms) (hcall : S.call t = .semaphore_take smph timeout_ms deadline)
  | semaphore_wait {smph : SemaphoreId} {timeout_ms : Int} (hdelays : delays = false)
      (hpos : 0 < timeout_ms) (hcall : S.call t = .semaphore_wait smph timeout_ms deadline)

namespace InTime

variable {t : Tcb} {delays : Bool} {n k deadline : Nat} {S S' : System Links}
  {A : System Sequences} {a : Action} {es : List Event}

/-- Another step: the task stays where it is, and a wait ends when it is due. -/
theorem other (h : InTime t delays n k deadline S) (hs : SSim S A grounded) (hl : OwnedLocked S)
    (ha : a.caller ≠ some t) (hstep : S.step a = some (es, S'))
    (hclock : S.kernel.tick_count t.home + n ≤ deadline + k) :
    InTime t delays n (k + (a.ticks t.home).toNat) deadline S' := by
  have hcall' := step_call hstep ha
  have hle : n ≤ k → n ≤ k + (a.ticks t.home).toNat := fun h => Nat.le_add_right_of_le h
  -- a tick that ends a wait is the last of its ticks
  have hdue : S.kernel.wakeup_time t = deadline → a.ticks t.home = true →
      S.kernel.wakeup_time t ≤ u64 (S.kernel.tick_count t.home + 1) →
      n ≤ k + (a.ticks t.home).toNat := by
    intro hwake htick hle
    have := Nat.mod_le (S.kernel.tick_count t.home + 1) (2 ^ 64)
    unfold u64 at hle
    rw [htick, Bool.toNat_true]
    omega
  cases h with
  | returned hcall hlate => exact .returned (hcall'.trans hcall) fun h => hle (hlate h)
  | block_until hdelays hcall => exact .block_until hdelays (hcall'.trans hcall)
  | delayed hdelays hcall hwake hend =>
    have hne : S.call t ≠ .own := by rw [hcall]; exact Call.noConfusion
    have hwaits := TaskWaits.step hs hne ha hstep
    refine .delayed hdelays (hcall'.trans hcall) (hwaits.wakeup_time.trans hwake) ?_
    by_cases hb' : S'.kernel.current_state t = .BLOCKED
    · exact .inl hb'
    obtain hb | hend := hend
    · obtain ⟨htick, hle⟩ | ⟨e, he, hhands⟩ := woken hs hne ha hstep hb hb'
      · exact .inr (hdue hwake htick hle)
      · obtain ⟨hsource, hsome⟩ := hwaits.handed e he hhands
        rw [hcall] at hsource
        exact absurd hsource.symm hsome
    · exact .inr (hle hend)
  | @mutex_lock mtx timeout_ms hdelays hcall hwake hend =>
    have hne : S.call t ≠ .own := by rw [hcall]; exact Call.noConfusion
    have hwaits := TaskWaits.step hs hne ha hstep
    refine .mutex_lock hdelays (hcall'.trans hcall) (hwaits.wakeup_time.trans hwake) ?_
    by_cases hb' : S'.kernel.current_state t = .BLOCKED
    · exact .inl hb'
    obtain hb | howner | hend := hend
    · obtain ⟨htick, hle⟩ | ⟨e, he, hhands⟩ := woken hs hne ha hstep hb hb'
      · exact .inr (.inr (hdue hwake htick hle))
      · obtain ⟨hsource, -⟩ := hwaits.handed e he hhands
        rw [hcall] at hsource
        refine .inr (.inl (handed_owner hs hstep ?_))
        cases e with
        | lock_handed u m =>
          cases hsource
          cases decide_eq_true_iff.mp hhands
          exact he
        | take_handed u s => cases hsource
        | _ => cases hhands
    · exact .inr (.inl (owner_kept hl hs hne howner hstep))
    · exact .inr (.inr (hle hend))
  | semaphore_take hdelays hpos hcall => exact .semaphore_take hdelays hpos (hcall'.trans hcall)
  | semaphore_wait hdelays hpos hcall => exact .semaphore_wait hdelays hpos (hcall'.trans hcall)

/-- The next section of the call. -/
theorem proceed (h : InTime t delays n k deadline S) (hb : S.kernel.current_state t ≠ .BLOCKED)
    (hp : S.proceed t = some (es, S')) (hclock : S.kernel.tick_count t.home + n ≤ deadline + k) :
    InTime t delays n k deadline S' ∧ ∀ e ∈ es, e.times_out t = true → n ≤ k := by
  unfold System.proceed at hp
  cases h with
  | returned hcall hlate =>
    rw [hcall] at hp
    cases hp
  | block_until hdelays hcall =>
    rw [hcall] at hp
    cases hp
    obtain ⟨lists, he⟩ := block_until_effect S.kernel t deadline
    rw [he]
    exact ⟨.delayed hdelays (update_self ..) (update_self ..) (.inl (update_self ..)), by simp⟩
  | delayed hdelays hcall hwake hend =>
    rw [hcall] at hp
    cases hp
    exact ⟨.returned (update_self ..) fun _ => hend.resolve_left hb, by simp⟩
  | @mutex_lock mtx timeout_ms hdelays hcall hwake hend =>
    rw [hcall] at hp
    cases hp
    refine ⟨.returned (update_self ..) fun h => ?_, fun e he hout => ?_⟩
    · cases hdelays.symm.trans h
    · rw [List.mem_singleton.mp he] at hout
      obtain ⟨-, hcode⟩ := decide_eq_true_iff.mp hout
      unfold mutex_lock_result at hcode
      split at hcode
      case isTrue => cases hcode
      case isFalse howner => exact (hend.resolve_left hb).resolve_left howner
  | @semaphore_take smph timeout_ms hdelays hpos hcall =>
    rw [hcall] at hp
    obtain ⟨rfl, rfl⟩ := Prod.mk.inj (Option.some.inj hp)
    have hreturned (K : Kernel Links) : InTime t delays n k deadline
        ((S.withKernel K).setCall t .own) :=
      .returned (update_self ..) fun h => by cases hdelays.symm.trans h
    obtain ⟨-, he⟩ | ⟨-, hgone, he⟩ | ⟨-, -, -, lists, wake, he⟩ :=
      semaphore_take_effect S.kernel smph t timeout_ms deadline
    · rw [he]
      exact ⟨hreturned _, by simp [Event.times_out]⟩
    · rw [he]
      refine ⟨hreturned _, fun _ _ _ => ?_⟩
      obtain hzero | ⟨-, hle⟩ := hgone
      · omega
      · omega
    · rw [he]
      exact ⟨.semaphore_wait hdelays hpos (update_self ..), by simp [Event.times_out]⟩
  | @semaphore_wait smph timeout_ms hdelays hpos hcall =>
    rw [hcall] at hp
    obtain ⟨rfl, rfl⟩ := Prod.mk.inj (Option.some.inj hp)
    unfold semaphore_take_wake
    by_cases hreason : S.kernel.wakeup_reason t = .RESOURCE_ACQUIRED
    · rw [if_pos hreason]
      exact ⟨.returned (update_self ..) fun h => (by cases hdelays.symm.trans h),
        by simp [Event.times_out]⟩
    · rw [if_neg hreason]
      exact ⟨.semaphore_take hdelays hpos (update_self ..), by simp⟩

/-- A step in which the task makes no other call. -/
theorem step (h : InTime t delays n k deadline S) (hs : SSim S A grounded) (hl : OwnedLocked S)
    (ha : a.caller = some t → a = .proceed t) (hstep : S.step a = some (es, S'))
    (hclock : S.kernel.tick_count t.home + n ≤ deadline + k) :
    InTime t delays n (k + (a.ticks t.home).toNat) deadline S' ∧
      ∀ e ∈ es, e.times_out t = true → n ≤ k := by
  by_cases hcaller : a.caller = some t
  · cases ha hcaller
    obtain ⟨hr, hp⟩ := Option.ite_none_right_eq_some.mp hstep
    exact h.proceed (hs.running hr).2.1 hp hclock
  · exact ⟨h.other hs hl hcaller hstep hclock,
      fun e he hout => absurd (times_out_caller hstep he hout) hcaller⟩

theorem run (as : List Action) : ∀ {S S' : System Links} {A : System Sequences} {k : Nat}
    {es : List Event}, InTime t delays n k deadline S → SSim S A grounded → OwnedLocked S →
    S.kernel.initialised t.home = true → (∀ a ∈ as, a.caller = some t → a = .proceed t) →
    S.kernel.tick_count t.home + n ≤ deadline + k → S.exec anyStep as = some (es, S') →
      InTime t delays n (k + ticks t.home as) deadline S' ∧
        ∀ e ∈ es, e.times_out t = true → n ≤ k + ticks t.home as := by
  induction as with
  | nil =>
    intro S S' A k es h _ _ _ _ _ he
    cases he
    exact ⟨h, by simp⟩
  | cons a as ih =>
    intro S S' A k es h hs hl hi ha hclock he
    obtain ⟨es₁, S₁, es₂, hstep, hexec, rfl⟩ := exec_cons he
    obtain ⟨hfirst, hout⟩ := h.step hs hl (ha a List.mem_cons_self) hstep hclock
    obtain ⟨A₁, -, hs₁⟩ := hs.step_some hstep
    obtain ⟨hi₁, htick⟩ := step_clock hs hi hstep
    have hclock₁ : S₁.kernel.tick_count t.home + n ≤
        deadline + (k + (a.ticks t.home).toNat) := by
      have := Nat.mod_le (S.kernel.tick_count t.home + 1) (2 ^ 64)
      unfold u64 at htick
      rw [htick]
      cases a.ticks t.home with
      | true => simp only [if_true, Bool.toNat_true]; omega
      | false => simp only [Bool.false_eq_true, if_false, Bool.toNat_false]; omega
    have hcount : k + (a.ticks t.home).toNat + ticks t.home as = k + ticks t.home (a :: as) := by
      unfold ticks
      rw [List.countP_cons]
      cases a.ticks t.home with
      | true => simp only [if_true, Bool.toNat_true]; omega
      | false => simp only [Bool.false_eq_true, if_false, Bool.toNat_false]; omega
    obtain ⟨hrest, houts⟩ := ih hfirst hs₁ (hl.step hs hstep) hi₁
      (fun b hb => ha b (List.mem_cons_of_mem a hb)) hclock₁ hexec
    rw [hcount] at hrest houts
    refine ⟨hrest, fun e he hout' => ?_⟩
    rcases List.mem_append.mp he with he | he
    · exact Nat.le_add_right_of_le (hout e he hout')
    · exact houts e he hout'

end InTime

theorem Run.ownedLocked {ok : Guard Links} {max_count initial_count : SemaphoreId → Nat}
    {h : List Event} {S : System Links} (hr : Run ok (boot max_count initial_count) h S) :
    OwnedLocked S := by
  induction hr with
  | start => exact fun mtx h => absurd rfl h
  | step hr _ hstep ih =>
    obtain ⟨A, -, hs⟩ := hr.sim anyStep fun _ _ _ => trivial
    exact ih.step hs hstep

/-- The wake-up time of a `mutex_lock` that waits for a time. -/
theorem mutex_lock_deadline {K : Kernel Links} {t : Tcb} {mtx : MutexId} {timeout_ms : Int}
    (hs : K.mutex_state mtx ≠ .UNLOCKED) (hpos : 0 < timeout_ms) :
    (mutex_lock K mtx t timeout_ms).2.wakeup_time t =
      u64 (K.tick_count t.home + timeout_ms.toNat) := by
  rw [mutex_lock_blocks_eq hs (by omega)]
  refine (congrFun (mutex_inherit_wakeup ..) t).trans ?_
  unfold enter_wait
  dsimp only
  rw [if_pos hpos, remove_from_ready_fields]
  exact update_self ..

/-- A timed call begins in time. -/
theorem InTime.start {t : Tcb} {n : Nat} {S S₀ : System Links} {a : Action} {es₀ : List Event}
    (ha : a.timeout t = some n) (hstep : S.step a = some (es₀, S₀))
    (hwrap : S.kernel.tick_count t.home + n < 2 ^ 64) : S.kernel.runs t = true ∧
      InTime t (a = .task_delay_ms t n) n 0 (S.kernel.tick_count t.home + n) S₀ ∧
      a.ticks t.home = false ∧ ∀ e ∈ es₀, e.times_out t = false := by
  have hdeadline : u64 (S.kernel.tick_count t.home + n) = S.kernel.tick_count t.home + n :=
    Nat.mod_eq_of_lt hwrap
  cases System.step_move hstep with
  | @task_delay_ms u ticks hf =>
    obtain ⟨rfl, hn⟩ := Option.ite_none_right_eq_some.mp ha
    cases hn
    refine ⟨hf.1, .block_until (by simp) ?_, rfl, by simp⟩
    exact (update_self ..).trans (congrArg Call.block_until hdeadline)
  | @mutex_lock u mtx timeout_ms hf =>
    obtain ⟨⟨rfl, hpos⟩, hn⟩ := Option.ite_none_right_eq_some.mp ha
    cases hn
    have hwake (hs : S.kernel.mutex_state mtx ≠ .UNLOCKED) := mutex_lock_deadline (t := u) hs hpos
    unfold System.lock
    obtain ⟨-, held, he⟩ | ⟨-, hzero, -⟩ | ⟨hst, -, lists, wake, prio, inh, he⟩ :=
      mutex_lock_effect S.kernel mtx u timeout_ms
    · rw [he]
      exact ⟨hf.1, .returned hf.2 (by simp), rfl, by simp [Event.times_out]⟩
    · omega
    · have hwake := hwake hst
      rw [he] at hwake ⊢
      exact ⟨hf.1, .mutex_lock (by simp) (update_self ..) (hwake.trans hdeadline)
        (.inl (update_self ..)), rfl, by simp [Event.times_out]⟩
  | @semaphore_take u smph timeout_ms hf =>
    obtain ⟨⟨rfl, hpos⟩, hn⟩ := Option.ite_none_right_eq_some.mp ha
    cases hn
    have htake : take_deadline S.kernel u timeout_ms =
        S.kernel.tick_count u.home + timeout_ms.toNat := (if_pos hpos).trans hdeadline
    rw [htake]
    exact ⟨hf.1, .semaphore_take (by simp) hpos (update_self ..), rfl,
      by simp [Event.times_out]⟩
  | _ => cases ha

/-- A `mutex_lock` or `semaphore_take` of `n` ticks does not report a time-out, and a `task_delay_ms`
of `n` ticks does not return, before the task's core has counted `n` ticks, whatever the other tasks,
the interrupt handlers and the clocks do meanwhile. -/
theorem timeouts_not_early {max_count initial_count : SemaphoreId → Nat} {h es₀ es : List Event}
    {S S₀ S' : System Links} {t : Tcb} {a : Action} {as : List Action} {n : Nat}
    (hr : Run anyStep (boot max_count initial_count) h S) (ha : a.timeout t = some n)
    (hstep : S.step a = some (es₀, S₀)) (hwrap : S.kernel.tick_count t.home + n < 2 ^ 64)
    (hcalls : ∀ b ∈ as, b.caller = some t → b = .proceed t)
    (he : S₀.exec anyStep as = some (es, S')) :
    (∀ e ∈ es₀ ++ es, e.times_out t = true → n ≤ ticks t.home as) ∧
      (a = .task_delay_ms t n → S'.call t = .own → n ≤ ticks t.home as) := by
  obtain ⟨A, -, hs⟩ := hr.sim anyStep fun _ _ _ => trivial
  obtain ⟨hruns, hin, hno, hquiet⟩ := InTime.start ha hstep hwrap
  obtain ⟨A₀, -, hs₀⟩ := hs.step_some hstep
  obtain ⟨hi, htick⟩ := step_clock hs (initialised_created hs (hs.running hruns).1) hstep
  rw [if_neg (by rw [hno]; exact Bool.false_ne_true)] at htick
  obtain ⟨hend, hout⟩ := hin.run as hs₀ (hr.ownedLocked.step hs hstep) hi hcalls
    (by rw [htick]; exact Nat.le_refl _) he
  rw [Nat.zero_add] at hend hout
  refine ⟨fun e hm ht => ?_, fun hdelay hown => ?_⟩
  · rcases List.mem_append.mp hm with hm | hm
    · cases (hquiet e hm).symm.trans ht
    · exact hout e hm ht
  · have hno (k : Call) (hk : S'.call t = k) (hne : k ≠ .own) : n ≤ ticks t.home as :=
      absurd (hk.symm.trans hown) hne
    cases hend with
    | returned _ hlate => exact hlate (decide_eq_true hdelay)
    | block_until _ hcall => exact hno _ hcall Call.noConfusion
    | delayed _ hcall _ _ => exact hno _ hcall Call.noConfusion
    | mutex_lock _ hcall _ _ => exact hno _ hcall Call.noConfusion
    | semaphore_take _ _ hcall => exact hno _ hcall Call.noConfusion
    | semaphore_wait _ _ hcall => exact hno _ hcall Call.noConfusion

/-- A task delays itself for two ticks, is blocked, and returns after them. -/
def delay_two_ticks : List Action :=
  [.proceed (.pool 0 0), .tick 0 [], .tick 0 [], .proceed (.pool 0 0)]

theorem delay_two_ticks_run :
    (before_delay.2.step (.task_delay_ms (.pool 0 0) 2)).isSome = true ∧
      (((before_delay.2.step (.task_delay_ms (.pool 0 0) 2)).get (by rfl)).2.exec anyStep
        delay_two_ticks).isSome = true := ⟨by rfl, by rfl⟩

theorem timeouts_not_early_delay : 2 ≤ ticks 0 delay_two_ticks :=
  (timeouts_not_early before_delay_reached rfl (Option.some_get delay_two_ticks_run.1).symm
    (by decide +kernel) (by decide) (Option.some_get delay_two_ticks_run.2).symm).2 rfl rfl

end Rpitos
