import Rpitos.Kernel.TimerView

/-!
# Kernel.TimerService

What stopping a timer is good for, and where the units of the timers' semaphore are, over runs in
which any of the calls comes at any moment.

`stopped_stays_stopped`: a stop that does not come between the service task's pull of the timer and
its re-arming is the last that is seen of it. `timers_not_stranded`: there is a unit for every
expired timer. Both are about runs that link no timer twice: the insertion into the blocked list
looks at no tag, neither in `software_timer_create` nor where the service task re-arms.
-/

namespace Rpitos

open Function StatusCode TimerMode TimerListId

namespace Timers

variable {n : Nat} {X Y Z : Timers n} {a : TimerAction n} {t : Fin n}

/-! ## Runs with any call -/

/-- One step; `software_timer_create` may be called on a timer in a list, too. -/
def advance (X : Timers n) : TimerAction n → Option (Timers n)
  | .create timer period callback timer_mode now =>
    (software_timer_create X timer period callback timer_mode now).map Prod.snd
  | a => X.step a

/-- A timer that is created is in no list. -/
def createsUnlisted (X : Timers n) : TimerAction n → Prop
  | .create timer _ _ _ _ => ∀ t ∈ timer, X.list_id t = TIMER_LIST_NONE
  | _ => True

instance (X : Timers n) : (a : TimerAction n) → Decidable (X.createsUnlisted a)
  | .create timer _ _ _ _ => inferInstanceAs (Decidable (∀ t ∈ timer, _))
  | .stop _ | .reset _ _ | .tick _ | .service => inferInstanceAs (Decidable True)

/-- The step does not put a timer into a list that is in one. -/
def linksOnce (X : Timers n) (a : TimerAction n) : Prop :=
  X.createsUnlisted a ∧ X.rearmsUnlisted a

instance (X : Timers n) (a : TimerAction n) : Decidable (X.linksOnce a) :=
  inferInstanceAs (Decidable (_ ∧ _))

theorem step_of_advance (hok : X.createsUnlisted a) (h : X.advance a = some Y) :
    X.step a = some Y := by
  cases a with
  | create timer period callback timer_mode now => exact (if_pos hok).trans h
  | stop timer => exact h
  | reset timer now => exact h
  | tick now_tick => exact h
  | service => exact h

/-- From sound lists, any step is one of the model without them. -/
theorem Sound.advance_view (h : X.Sound) (hstep : X.advance a = some Y) :
    X.view.Step a Y.view := by
  cases a with
  | create timer period callback timer_mode now => exact create_view hstep
  | stop timer => exact stop_view hstep
  | reset timer now => exact reset_view hstep
  | tick now_tick => exact h.tick_view hstep
  | service => exact h.service_view hstep

/-- A step that links no timer twice keeps the lists sound. -/
theorem Sound.advance (h : X.Sound) (hok : X.linksOnce a) (hstep : X.advance a = some Y) :
    Y.Sound :=
  h.step hok.2 (step_of_advance hok.1 hstep)

end Timers

/-! ## Stopping -/

/-- The call arms `t`. -/
def TimerAction.arms {n : Nat} (t : Fin n) : TimerAction n → Prop
  | .create timer _ _ _ _ => timer = some t
  | .reset timer _ => timer = some t
  | _ => False

instance {n : Nat} (t : Fin n) : (a : TimerAction n) → Decidable (a.arms t)
  | .create timer _ _ _ _ | .reset timer _ => inferInstanceAs (Decidable (timer = some t))
  | .stop _ | .tick _ | .service => inferInstanceAs (Decidable False)

namespace TimerView

variable {n : Nat} {V W : TimerView n} {a : TimerAction n} {t : Fin n}

/-- The service task has pulled `t` and has yet to call it back, or will arm it again. -/
def committed (V : TimerView n) (t : Fin n) : Prop :=
  V.callback t ≠ none ∧ (V.service = .pulled t ∨ V.service = .rearm t ∨
    (V.service = .callback t ∨ V.service = .called t) ∧ V.timer_mode t = TIMER_MODE_PERIODIC)

/-- `t` will not be called back unless a call arms it. -/
def Idle (V : TimerView n) (t : Fin n) : Prop :=
  V.callback t = none ∨ V.list_id t = TIMER_LIST_NONE ∧ ¬ V.committed t

/-- What the gives of a tick can change. -/
theorem gives_cases (k : Nat) : ∀ V : TimerView n, ∃ count service,
    give^[k] V = { V with count := count, service := service } ∧
      (service = V.service ∨ V.service = .waiting ∧ service = .pull) := by
  induction k with
  | zero => exact fun V => ⟨V.count, V.service, rfl, .inl rfl⟩
  | succ k ih =>
    intro V
    obtain ⟨count, service, h, hs⟩ := ih V.give
    rw [iterate_succ_apply, h]
    unfold give at hs ⊢
    by_cases hwaiting : V.service = .waiting
    · rw [if_pos hwaiting] at hs ⊢
      rcases hs with rfl | ⟨hs, -⟩
      · exact ⟨_, _, rfl, .inr ⟨hwaiting, rfl⟩⟩
      · cases hs
    · rw [if_neg hwaiting] at hs ⊢
      refine ⟨count, service, by split <;> rfl, ?_⟩
      split at hs <;> exact hs

/-- A step that does not arm an idle timer leaves it idle. -/
theorem Idle.step (h : V.Idle t) (ha : ¬ a.arms t) (hstep : V.Step a W) : W.Idle t := by
  have hother : ∀ {u : Fin n}, ¬ some u = some t → t ≠ u := fun hu e => hu (congrArg some e.symm)
  cases hstep with
  | create_null => exact h
  | create_zero => exact h
  | create_unarmed hperiod =>
    have htu := hother ha
    simpa [Idle, committed, configure, htu] using h
  | create hperiod =>
    have htu := hother ha
    simpa [Idle, committed, configure, arm, htu] using h
  | stop_null => exact h
  | @stop u =>
    by_cases htu : t = u
    · subst htu
      rcases h with h | ⟨-, h⟩
      · exact .inl h
      · exact .inr ⟨update_self .., h⟩
    · simpa [Idle, committed, disarm, htu] using h
  | reset_null => exact h
  | reset =>
    have htu := hother ha
    simpa [Idle, committed, arm, htu] using h
  | @tick now_tick =>
    obtain ⟨count, service, heq, hs⟩ := gives_cases (V.due now_tick).card (V.expire now_tick)
    rw [heq]
    rcases h with h | ⟨hid, hc⟩
    · exact .inl h
    · have hdue : t ∉ V.due now_tick := by simp [due, hid]
      refine .inr ⟨(if_neg hdue).trans hid, ?_⟩
      rcases hs with rfl | ⟨-, rfl⟩
      · exact hc
      · simp [committed]
  | take hservice hcount => simpa [Idle, committed, hservice] using h
  | wait hservice hcount => simpa [Idle, committed, hservice] using h
  | pull_none hservice hnone => simpa [Idle, committed, hservice] using h
  | @pull u hservice hactive =>
    rcases h with h | ⟨hid, -⟩
    · exact .inl h
    · have htu : u ≠ t := by
        rintro rfl
        rw [hid] at hactive
        cases hactive
      exact .inr ⟨(update_of_ne htu.symm ..).trans hid, by simp [committed, htu]⟩
  | @skip u hservice hcallback =>
    rcases h with h | ⟨hid, hc⟩
    · exact .inl h
    · refine .inr ⟨hid, fun hw => hc ?_⟩
      obtain ⟨hcb, hpc | hpc | ⟨hpc | hpc, -⟩⟩ := hw
      · cases hpc
      · cases hpc
      · cases hpc
      · cases hpc
        exact absurd hcallback hcb
  | @call u hservice hcallback =>
    rcases h with h | ⟨hid, hc⟩
    · exact .inl h
    · have htu : u ≠ t := by
        rintro rfl
        exact hc ⟨hcallback, .inl hservice⟩
      exact .inr ⟨hid, by simp [committed, htu]⟩
  | returns hservice => simpa [Idle, committed, hservice] using h
  | once hservice hmode =>
    rcases h with h | ⟨hid, -⟩
    · exact .inl h
    · exact .inr ⟨hid, by simp [committed]⟩
  | @again u hservice hmode =>
    rcases h with h | ⟨hid, hc⟩
    · exact .inl h
    · refine .inr ⟨hid, fun hw => hc ?_⟩
      obtain ⟨hcb, hpc | hpc | ⟨hpc | hpc, -⟩⟩ := hw
      · cases hpc
      · cases hpc
        exact ⟨hcb, .inr (.inr ⟨.inr hservice, hmode⟩)⟩
      · cases hpc
      · cases hpc
  | @rearm u hservice =>
    rcases h with h | ⟨hid, hc⟩
    · exact .inl h
    · by_cases hcb : V.callback t = none
      · exact .inl hcb
      · have htu : u ≠ t := by
          rintro rfl
          exact hc ⟨hcb, .inr (.inl hservice)⟩
        exact .inr ⟨(update_of_ne htu.symm ..).trans hid, by simp [committed]⟩

/-- An idle timer is not called back. -/
theorem Idle.not_called (h : V.Idle t) (hpc : V.service = .pulled t) (hstep : V.Step a W) :
    W.service ≠ .callback t := by
  intro hcalled
  have hsame : V.service ≠ .callback t := by rw [hpc]; simp
  unfold Idle committed at h
  cases hstep with
  | create_null => exact hsame hcalled
  | create_zero => exact hsame hcalled
  | create_unarmed hperiod => exact hsame hcalled
  | create hperiod => exact hsame hcalled
  | stop_null => exact hsame hcalled
  | stop => exact hsame hcalled
  | reset_null => exact hsame hcalled
  | reset => exact hsame hcalled
  | @tick now_tick =>
    obtain ⟨count, service, heq, hs⟩ := gives_cases (V.due now_tick).card (V.expire now_tick)
    rw [heq] at hcalled
    rcases hs with rfl | ⟨-, rfl⟩
    · exact hsame hcalled
    · cases hcalled
  | take hservice => rw [hservice] at hpc; cases hpc
  | wait hservice => rw [hservice] at hpc; cases hpc
  | pull_none hservice => rw [hservice] at hpc; cases hpc
  | pull hservice => rw [hservice] at hpc; cases hpc
  | skip hservice hcallback => cases hcalled
  | call hservice hcallback =>
    cases hservice.symm.trans hpc
    exact h.elim hcallback fun h => h.2 ⟨hcallback, .inl hpc⟩
  | returns hservice => rw [hservice] at hpc; cases hpc
  | once hservice => rw [hservice] at hpc; cases hpc
  | again hservice => rw [hservice] at hpc; cases hpc
  | rearm hservice => rw [hservice] at hpc; cases hpc

end TimerView

namespace Timers

variable {n : Nat} {X Y Z : Timers n} {t : Fin n}

/-- The service task has pulled `t` and has yet to call it back, or will arm it again. -/
def committed (X : Timers n) (t : Fin n) : Prop := X.view.committed t

/-- The step from `X` to `Y` begins an invocation of `t`'s callback. -/
def starts (X Y : Timers n) (t : Fin n) : Prop :=
  X.service = .pulled t ∧ Y.service = .callback t

/-- The steps of a run in which no call arms `t` again. -/
def leavesIdle (t : Fin n) (X : Timers n) (a : TimerAction n) : Prop := X.linksOnce a ∧ ¬ a.arms t

instance (t : Fin n) (X : Timers n) (a : TimerAction n) : Decidable (leavesIdle t X a) :=
  inferInstanceAs (Decidable (_ ∧ _))

theorem Sound.stop_idle (h : X.Sound) (hc : ¬ X.committed t) :
    ∃ Y, software_timer_stop X (some t) = some (E_OK, Y) ∧ Y.Sound ∧ Y.view.Idle t := by
  obtain ⟨code, Y, hY, hs⟩ := h.stop (some t)
  have hview : X.view.Step (.stop (some t)) Y.view := stop_view (by rw [hY]; rfl)
  have hcode : code = E_OK := by
    unfold software_timer_stop at hY
    dsimp only at hY
    split at hY <;> cases hY
    rfl
  subst hcode
  refine ⟨Y, hY, hs, ?_⟩
  generalize hW : Y.view = W at hview ⊢
  cases hview
  exact .inr ⟨update_self .., hc⟩

end Timers

/-- After a stop that finds the service task not committed to the timer, no step starts an
invocation of its callback, until a call arms it. -/
theorem stopped_stays_stopped {n : Nat} {X : Timers n} {t : Fin n}
    (hr : Reach Timers.advance Timers.linksOnce (Timers.boot n) X) (hc : ¬ X.committed t) :
    ∃ Y, software_timer_stop X (some t) = some (E_OK, Y) ∧
      ∀ Z a Z', Reach Timers.advance (Timers.leavesIdle t) Y Z → Z.advance a = some Z' →
        ¬ Z.starts Z' t := by
  have hX : X.Sound := hr.invariant Timers.boot_sound fun _ _ _ h hok hstep => h.advance hok hstep
  obtain ⟨Y, hY, hs, hidle⟩ := hX.stop_idle hc
  refine ⟨Y, hY, fun Z a Z' hrun hstep hstarts => ?_⟩
  obtain ⟨hZ, hZidle⟩ : Z.Sound ∧ Z.view.Idle t :=
    hrun.invariant (P := fun Z => Z.Sound ∧ Z.view.Idle t) ⟨hs, hidle⟩
      fun Z Z' a hZ hok hstep =>
        ⟨hZ.1.advance hok.1 hstep, hZ.2.step hok.2 (hZ.1.advance_view hstep)⟩
  exact hZidle.not_called hstarts.1 (hZ.advance_view hstep) hstarts.2

/-- A periodic timer that expires while the service task waits. -/
def expires_once {n : Nat} (t : Fin n) : List (TimerAction n) :=
  [.create (some t) 5 (some 0) .TIMER_MODE_PERIODIC (some 0), .service, .tick 5]

theorem expires_once_run : (execute Timers.advance Timers.linksOnce (Timers.boot 1)
    (expires_once 0)).isSome = true := by rfl

theorem stopped_stays_stopped_expired :
    ∃ Y, software_timer_stop ((execute Timers.advance Timers.linksOnce (Timers.boot 1)
        (expires_once 0)).get expires_once_run) (some 0) = some (E_OK, Y) ∧
      ∀ Z a Z', Reach Timers.advance (Timers.leavesIdle 0) Y Z → Z.advance a = some Z' →
        ¬ Z.starts Z' 0 := by
  refine stopped_stays_stopped (Reach.of_exec (expires_once 0) .start
    (Option.some_get expires_once_run).symm) fun hc => ?_
  have hpull : ((execute Timers.advance Timers.linksOnce (Timers.boot 1)
      (expires_once 0)).get expires_once_run).view.service = .pull := by rfl
  obtain ⟨-, h | h | ⟨h | h, -⟩⟩ := hc
  all_goals rw [hpull] at h; cases h

/-- The timer is pulled and its callback is in progress. -/
def in_callback {n : Nat} (t : Fin n) : List (TimerAction n) :=
  [.create (some t) 5 (some 0) .TIMER_MODE_PERIODIC (some 0), .tick 5, .service, .service, .service]

/-- The callback returns, the timer expires again and is pulled. -/
def called_again {n : Nat} : List (TimerAction n) :=
  [.service, .service, .service, .tick 10, .service, .service]

theorem in_callback_run : (execute Timers.advance anything (Timers.boot 1)
    (in_callback (Fin.last 0))).isSome = true := by rfl

/-- The state the stop leaves. -/
def stopped_in_callback : Timers 1 :=
  ((software_timer_stop ((execute Timers.advance anything (Timers.boot 1)
    (in_callback (Fin.last 0))).get in_callback_run) (some (Fin.last 0))).get (by rfl)).2

theorem called_again_run : (execute Timers.advance (fun _ a => ¬ TimerAction.arms 0 a)
    stopped_in_callback called_again).isSome = true := by rfl

/-- A stop in the callback does not keep the service task from arming the timer again. -/
theorem stopped_is_called : ¬ ∀ (n : Nat) (X Y Z Z' : Timers n) (t : Fin n) (a : TimerAction n),
    Reach Timers.advance anything (Timers.boot n) X →
    software_timer_stop X (some t) = some (E_OK, Y) →
    Reach Timers.advance (fun _ a => ¬ a.arms t) Y Z → Z.advance a = some Z' →
    ¬ Z.starts Z' t := by
  intro h
  exact h 1 _ stopped_in_callback _ _ 0 .service
    (Reach.of_exec (in_callback (Fin.last 0)) .start (Option.some_get in_callback_run).symm) rfl
    (Reach.of_exec called_again .start (Option.some_get called_again_run).symm) rfl ⟨rfl, rfl⟩

/-! ## Units -/

namespace TimerView

variable {n : Nat} {V W : TimerView n} {a : TimerAction n} {t : Fin n}

/-- The timers that wait for the service task. -/
def expired (V : TimerView n) : Finset (Fin n) :=
  Finset.univ.filter fun t => V.list_id t = TIMER_LIST_ACTIVE

/-- The units in the counter, and the one the service task has for its next pull. -/
def units (V : TimerView n) : Nat := V.count + if V.service = .pull then 1 else 0

/-- There is a unit for every expired timer, and none when the service task waits for one. -/
structure Stocked (V : TimerView n) : Prop where
  covered : V.expired.card ≤ V.units
  waiting : V.service = .waiting → V.count = 0

/-- Timers that leave the active list, or were not in it, need no unit. -/
theorem expired_subset (h : ∀ u, W.list_id u = TIMER_LIST_ACTIVE → V.list_id u = TIMER_LIST_ACTIVE) :
    W.expired.card ≤ V.expired.card :=
  Finset.card_le_card (Finset.monotone_filter_right _ fun u _ hu => h u hu)

theorem active_of_update {list_id : TimerListId} (hne : list_id ≠ TIMER_LIST_ACTIVE) (u : Fin n)
    (h : update V.list_id t list_id u = TIMER_LIST_ACTIVE) : V.list_id u = TIMER_LIST_ACTIVE := by
  by_cases hut : u = t
  · subst hut
    rw [update_self] at h
    exact absurd h hne
  · rwa [update_of_ne hut] at h

/-- A call that arms or disarms. -/
theorem Stocked.of_le (h : V.Stocked) (hcard : W.expired.card ≤ V.expired.card)
    (hcount : W.count = V.count) (hservice : W.service = V.service) : W.Stocked := by
  refine ⟨?_, fun hw => ?_⟩
  · have : W.units = V.units := by rw [units, units, hcount, hservice]
    rw [this]
    exact Nat.le_trans hcard h.covered
  · rw [hcount]
    exact h.waiting (hservice ▸ hw)

/-- The service task goes on, not to or from the pull. -/
theorem Stocked.moves (h : V.Stocked) {pc : ServicePc n} (hfrom : V.service ≠ .pull)
    (hto : pc ≠ .pull) (hwaiting : pc = .waiting → V.count = 0) :
    Stocked { V with service := pc } := by
  have hcov := h.covered
  unfold units at hcov
  rw [if_neg hfrom] at hcov
  refine ⟨?_, hwaiting⟩
  unfold units
  rw [if_neg hto]
  exact hcov

theorem give_count_le (V : TimerView n) : V.count ≤ V.give.count := by
  unfold give
  split
  · exact Nat.le_refl _
  · split
    · exact Nat.le_succ _
    · exact Nat.le_refl _

theorem gives_count_le (k : Nat) : ∀ V : TimerView n, V.count ≤ (give^[k] V).count := by
  induction k with
  | zero => exact fun V => Nat.le_refl _
  | succ k ih => exact fun V => Nat.le_trans V.give_count_le (ih V.give)

/-- A give that does not find the counter full adds a unit. -/
theorem give_units (hroom : V.give.count < SEMAPHORE_MAX_COUNT_UNLIMITED) :
    V.give.units = V.units + 1 ∧ (V.give.service = .waiting → V.give.count = 0) := by
  unfold give at hroom ⊢
  by_cases hw : V.service = .waiting
  · rw [if_pos hw]
    exact ⟨by simp [units, hw], fun h => by cases h⟩
  · rw [if_neg hw] at hroom ⊢
    by_cases hcount : V.count < SEMAPHORE_MAX_COUNT_UNLIMITED
    · rw [if_pos hcount]
      exact ⟨by simp only [units]; omega, fun h => absurd h hw⟩
    · rw [if_neg hcount] at hroom
      exact absurd hroom hcount

theorem gives_units (k : Nat) : ∀ {V : TimerView n}, (V.service = .waiting → V.count = 0) →
    (give^[k] V).count < SEMAPHORE_MAX_COUNT_UNLIMITED →
    (give^[k] V).units = V.units + k ∧
      ((give^[k] V).service = .waiting → (give^[k] V).count = 0) := by
  induction k with
  | zero => exact fun hwaiting _ => ⟨rfl, hwaiting⟩
  | succ k ih =>
    intro V hwaiting hroom
    rw [iterate_succ_apply] at hroom ⊢
    obtain ⟨h1, h2⟩ := give_units (Nat.lt_of_le_of_lt (gives_count_le k V.give) hroom)
    obtain ⟨h3, h4⟩ := ih h2 hroom
    exact ⟨by omega, h4⟩

/-- The timers that a tick moves join the expired ones. -/
theorem expired_expire (V : TimerView n) (now_tick : Nat) :
    (V.expire now_tick).expired.card ≤ V.expired.card + (V.due now_tick).card := by
  refine Nat.le_trans (Finset.card_le_card fun u hu => ?_) (Finset.card_union_le _ _)
  have hid := (Finset.mem_filter.mp hu).2
  by_cases hdue : u ∈ V.due now_tick
  · exact Finset.mem_union_right _ hdue
  · rw [show (V.expire now_tick).list_id u = V.list_id u from if_neg hdue] at hid
    exact Finset.mem_union_left _ (Finset.mem_filter.mpr ⟨Finset.mem_univ u, hid⟩)

/-- Each step keeps a unit for every expired timer, unless it fills the counter. -/
theorem Stocked.step (h : V.Stocked) (hstep : V.Step a W)
    (hroom : W.count < SEMAPHORE_MAX_COUNT_UNLIMITED) : W.Stocked := by
  have hcov := h.covered
  cases hstep with
  | create_null => exact h
  | create_zero => exact h
  | create_unarmed hperiod =>
    exact h.of_le (expired_subset (active_of_update (by simp))) rfl rfl
  | create hperiod =>
    refine h.of_le (expired_subset fun u hu => ?_) rfl rfl
    exact active_of_update (by simp) u (active_of_update (V := configure _ _ _ _ _) (by simp) u hu)
  | stop_null => exact h
  | stop => exact h.of_le (expired_subset (active_of_update (by simp))) rfl rfl
  | reset_null => exact h
  | reset => exact h.of_le (expired_subset (active_of_update (by simp))) rfl rfl
  | @tick now_tick =>
    obtain ⟨count, service, heq, -⟩ := gives_cases (V.due now_tick).card (V.expire now_tick)
    obtain ⟨hunits, hwaiting⟩ := gives_units _ (V := V.expire now_tick) h.waiting hroom
    refine ⟨?_, hwaiting⟩
    have hsame : (give^[(V.due now_tick).card] (V.expire now_tick)).expired =
        (V.expire now_tick).expired := by rw [heq]; rfl
    have hexpired := V.expired_expire now_tick
    have hbefore : (V.expire now_tick).units = V.units := rfl
    rw [hunits, hsame, hbefore]
    omega
  | take hservice hcount =>
    refine ⟨?_, fun hw => by cases hw⟩
    have : V.expired.card ≤ V.count := by simpa [units, hservice] using hcov
    show V.expired.card ≤ V.count - 1 + 1
    omega
  | wait hservice hcount => exact h.moves (by simp [hservice]) (by simp) fun _ => hcount
  | pull_none hservice hnone =>
    refine ⟨?_, fun hw => by cases hw⟩
    have : V.expired = ∅ := Finset.filter_eq_empty_iff.mpr fun u _ => hnone u
    show V.expired.card ≤ _
    rw [this]
    exact Nat.zero_le _
  | @pull t hservice hactive =>
    refine ⟨?_, fun hw => by cases hw⟩
    have hmem : t ∈ V.expired := Finset.mem_filter.mpr ⟨Finset.mem_univ t, hactive⟩
    have herase : (V.disarm t).expired ⊆ V.expired.erase t := fun u hu => by
      have hid := (Finset.mem_filter.mp hu).2
      have hut : u ≠ t := by
        rintro rfl
        rw [show (V.disarm u).list_id u = TIMER_LIST_NONE from update_self ..] at hid
        cases hid
      exact Finset.mem_erase.mpr ⟨hut, Finset.mem_filter.mpr
        ⟨Finset.mem_univ u, active_of_update (by simp) u hid⟩⟩
    have hcard := Finset.card_le_card herase
    rw [Finset.card_erase_of_mem hmem] at hcard
    have : V.expired.card ≤ V.count + 1 := by simpa [units, hservice] using hcov
    show (V.disarm t).expired.card ≤ V.count + 0
    omega
  | skip hservice hcallback => exact h.moves (by simp [hservice]) (by simp) (by simp)
  | call hservice hcallback => exact h.moves (by simp [hservice]) (by simp) (by simp)
  | returns hservice => exact h.moves (by simp [hservice]) (by simp) (by simp)
  | once hservice hmode => exact h.moves (by simp [hservice]) (by simp) (by simp)
  | again hservice hmode => exact h.moves (by simp [hservice]) (by simp) (by simp)
  | @rearm t hservice =>
    refine ⟨?_, fun hw => by cases hw⟩
    have hcard : (V.arm t (u64 (V.expiry_tick t + V.period t))).expired.card ≤ V.expired.card :=
      expired_subset (active_of_update (by simp))
    have : V.expired.card ≤ V.count := by simpa [units, hservice] using hcov
    show (V.arm t (u64 (V.expiry_tick t + V.period t))).expired.card ≤ V.count + 0
    omega

end TimerView

namespace Timers

variable {n : Nat} {X : Timers n}

/-- The semaphore's units that are not spent: in the counter, or with the service task before its
pull. -/
def units (X : Timers n) : Nat := X.count + if X.service = .pull then 1 else 0

/-- The step does not bring the semaphore to its maximum. -/
def neverFull (X : Timers n) (a : TimerAction n) : Prop :=
  ∀ Y ∈ X.advance a, Y.count < SEMAPHORE_MAX_COUNT_UNLIMITED

instance (X : Timers n) (a : TimerAction n) : Decidable (X.neverFull a) :=
  inferInstanceAs (Decidable (∀ Y ∈ X.advance a, _))

/-- There is a unit for each timer of the active list, and none is in it while the service task
waits. -/
def Served (X : Timers n) : Prop :=
  ∃ as, Chain X.next X.active_list_head as ∧ as.Nodup ∧ as.length ≤ X.units ∧
    (X.service = .waiting → as = [])

theorem Sound.served (h : X.Sound) (hs : X.view.Stocked) : X.Served := by
  obtain ⟨bs, as, hl, ht⟩ := h
  have hnodup : as.Nodup := (List.nodup_append.mp hl.nodup).2.1
  have hcard : X.view.expired.card = as.length := by
    rw [← List.toFinset_card_of_nodup hnodup]
    congr 1
    ext u
    rw [List.mem_toFinset, TimerView.expired, Finset.mem_filter, ← ht.active u]
    exact and_iff_right (Finset.mem_univ u)
  have hcovered := hs.covered
  rw [hcard] at hcovered
  refine ⟨as, hl.active, hnodup, hcovered, fun hw => ?_⟩
  have hunits : X.view.units = 0 := by
    rw [TimerView.units, hs.waiting hw, show X.view.service = .waiting from hw]
    rfl
  rw [hunits] at hcovered
  exact List.eq_nil_of_length_eq_zero (Nat.le_zero.mp hcovered)

end Timers

/-- In every run that links no timer twice and never fills the semaphore, no expired timer is left
without a unit. -/
theorem timers_not_stranded {n : Nat} {X : Timers n}
    (hr : Reach Timers.advance (fun X a => X.linksOnce a ∧ X.neverFull a) (Timers.boot n) X) :
    X.Served := by
  obtain ⟨h, hs⟩ : X.Sound ∧ X.view.Stocked :=
    hr.invariant (P := fun X => X.Sound ∧ X.view.Stocked)
      ⟨Timers.boot_sound, by simp [TimerView.expired, Timers.view, Timers.boot], fun h => by cases h⟩
      fun X Y a hX hok hstep => ⟨hX.1.advance hok.1 hstep,
        hX.2.step (hX.1.advance_view hstep) (hok.2 Y hstep)⟩
  exact h.served hs

theorem expires_once_served_run : (execute Timers.advance
    (fun X a => X.linksOnce a ∧ X.neverFull a) (Timers.boot 1)
    (expires_once 0)).isSome = true := by rfl

theorem timers_not_stranded_expired : ((execute Timers.advance
    (fun X a => X.linksOnce a ∧ X.neverFull a) (Timers.boot 1) (expires_once 0)).get
    expires_once_served_run).Served :=
  timers_not_stranded (Reach.of_exec (expires_once 0) .start
    (Option.some_get expires_once_served_run).symm)

/-- The timer that the service task has pulled and not finished with. -/
def ServicePc.serviced {n : Nat} : ServicePc n → Option (Fin n)
  | .pulled t | .callback t | .called t | .rearm t => some t
  | _ => none

/-- No stop and no reset of the timer being serviced. -/
def Timers.sparesServiced {n : Nat} (X : Timers n) : TimerAction n → Prop
  | .stop timer | .reset timer _ => ∀ t ∈ timer, X.service.serviced ≠ some t
  | _ => True

instance {n : Nat} (X : Timers n) : (a : TimerAction n) → Decidable (X.sparesServiced a)
  | .stop timer | .reset timer _ => inferInstanceAs (Decidable (∀ t ∈ timer, _))
  | .create _ _ _ _ _ | .tick _ | .service => inferInstanceAs (Decidable True)

/-- A periodic timer that its own callback creates anew: it is linked to itself, expires twice, and
is serviced once. Then another timer is created behind it. -/
def created_in_callback {n : Nat} (t u : Fin n) : List (TimerAction n) :=
  [.create (some t) 5 (some 0) .TIMER_MODE_PERIODIC (some 0), .tick 5, .service, .service, .service,
   .create (some t) 5 (some 0) .TIMER_MODE_PERIODIC (some 5), .service, .service, .service, .tick 15,
   .service, .service, .service, .service, .service, .service,
   .create (some u) 30 none .TIMER_MODE_ONE_SHOT (some 15)]

theorem created_in_callback_run : (execute Timers.advance
    (fun X a => X.sparesServiced a ∧ X.neverFull a) (Timers.boot 2)
    (created_in_callback 0 1)).isSome = true := by rfl

/-- The active list runs into the blocked list: two timers for one unit. -/
theorem timers_stranded : ¬ ∀ (n : Nat) (X : Timers n),
    Reach Timers.advance (fun X a => X.sparesServiced a ∧ X.neverFull a) (Timers.boot n) X →
    X.Served := by
  intro h
  obtain ⟨as, hchain, -, hunits, -⟩ := h 2 _
    (Reach.of_exec (created_in_callback 0 1) .start (Option.some_get created_in_callback_run).symm)
  have hboth : Chain ((execute Timers.advance (fun X a => X.sparesServiced a ∧ X.neverFull a)
      (Timers.boot 2) (created_in_callback 0 1)).get created_in_callback_run).next
      ((execute Timers.advance (fun X a => X.sparesServiced a ∧ X.neverFull a)
      (Timers.boot 2) (created_in_callback 0 1)).get
      created_in_callback_run).active_list_head [0, 1] :=
    ⟨by rfl, by rfl, by rfl⟩
  rw [hchain.unique hboth] at hunits
  exact absurd hunits (by decide +kernel)

end Rpitos
