import Rpitos.Kernel.TimerService

/-!
# Kernel.TimerPeriod

Periodic timers do not drift. The invocations of one timer's callback are recorded, each with the
timer's expiry and the tick count at which it starts. `periodic_no_drift`: whatever is done with the
other timers, and however late the service task is, the `k`-th is for the first expiry plus `k`
periods, and not before it.
-/

namespace Rpitos

open Function StatusCode TimerMode TimerListId

/-- The timer a call is about. -/
def TimerAction.timer {n : Nat} : TimerAction n → Option (Fin n)
  | .create timer _ _ _ _ | .stop timer | .reset timer _ => timer
  | _ => none

/-! ## The timer being serviced is in no list -/

namespace TimerView

variable {n : Nat} {V W : TimerView n} {a : TimerAction n} {t : Fin n}

def ServicedUnlisted (V : TimerView n) : Prop :=
  ∀ t, V.service.serviced = some t → V.list_id t = TIMER_LIST_NONE

/-- Calls about other timers leave the timer being serviced alone. -/
theorem ServicedUnlisted.step (h : V.ServicedUnlisted)
    (ha : ∀ u ∈ a.timer, V.service.serviced ≠ some u) (hstep : V.Step a W) :
    W.ServicedUnlisted := by
  have hother : ∀ {t u : Fin n}, V.service.serviced = some t →
      V.service.serviced ≠ some u → t ≠ u := fun ht hu e => hu (e ▸ ht)
  intro t ht
  cases hstep with
  | create_null => exact h t ht
  | create_zero => exact h t ht
  | create_unarmed hperiod =>
    exact (update_of_ne (hother ht (ha _ rfl)) ..).trans (h t ht)
  | create hperiod =>
    have htu := hother ht (ha _ rfl)
    exact (update_of_ne htu ..).trans ((update_of_ne htu ..).trans (h t ht))
  | stop_null => exact h t ht
  | stop => exact (update_of_ne (hother ht (ha _ rfl)) ..).trans (h t ht)
  | reset_null => exact h t ht
  | reset => exact (update_of_ne (hother ht (ha _ rfl)) ..).trans (h t ht)
  | @tick now_tick =>
    obtain ⟨count, service, heq, hs⟩ := gives_cases (V.due now_tick).card (V.expire now_tick)
    rw [heq] at ht ⊢
    rcases hs with rfl | ⟨-, rfl⟩
    · have hid := h t ht
      have hdue : t ∉ V.due now_tick := by simp [due, hid]
      exact (if_neg hdue).trans hid
    · cases ht
  | take hservice hcount => cases ht
  | wait hservice hcount => cases ht
  | pull_none hservice hnone => cases ht
  | pull hservice hactive => cases ht; exact update_self ..
  | skip hservice hcallback => cases ht; exact h _ (by rw [hservice]; rfl)
  | call hservice hcallback => cases ht; exact h _ (by rw [hservice]; rfl)
  | returns hservice => cases ht; exact h _ (by rw [hservice]; rfl)
  | once hservice hmode => cases ht
  | again hservice hmode => cases ht; exact h _ (by rw [hservice]; rfl)
  | rearm hservice => cases ht

end TimerView

namespace Timers

variable {n : Nat} {X Y : Timers n} {a : TimerAction n}

/-- A call is about a timer that is not being serviced, a creation about one in no list. -/
def orderly (X : Timers n) (a : TimerAction n) : Prop :=
  X.createsUnlisted a ∧ ∀ t ∈ a.timer, X.service.serviced ≠ some t

instance (X : Timers n) (a : TimerAction n) : Decidable (X.orderly a) :=
  inferInstanceAs (Decidable (_ ∧ _))

/-- What orderly calls keep. -/
structure Orderly (X : Timers n) : Prop where
  sound : X.Sound
  serviced : X.view.ServicedUnlisted

theorem Orderly.linksOnce (h : X.Orderly) (hok : X.orderly a) : X.linksOnce a := by
  refine ⟨hok.1, ?_⟩
  unfold rearmsUnlisted
  split
  · rename_i t hservice
    exact h.serviced t (by rw [show X.view.service = X.service from rfl, hservice]; rfl)
  · trivial

theorem Orderly.advance (h : X.Orderly) (hok : X.orderly a) (hstep : X.advance a = some Y) :
    Y.Orderly :=
  ⟨h.sound.advance (h.linksOnce hok) hstep, h.serviced.step hok.2 (h.sound.advance_view hstep)⟩

theorem boot_orderly : (boot n).Orderly := ⟨boot_sound, fun _ h => by cases h⟩

end Timers

/-! ## One timer's invocations -/

/-- The timers, the tick count, and for each invocation of the watched timer's callback its expiry
and the tick count at its start, oldest first. -/
structure TimerWatch (n : Nat) where
  timers : Timers n
  tick_count : Nat
  invocations : List (Nat × Nat)

namespace TimerWatch

variable {n : Nat}

/-- The tick count after a step: a tick counts up, and passes the count on. -/
def clock (tick_count : Nat) : TimerAction n → Option Nat
  | .tick now_tick => if now_tick = u64 (tick_count + 1) then some now_tick else none
  | _ => some tick_count

/-- One step while `t` is watched. -/
def step (t : Fin n) (W : TimerWatch n) (a : TimerAction n) : Option (TimerWatch n) :=
  match clock W.tick_count a, W.timers.advance a with
  | some tick_count, some Y => some {
      timers := Y
      tick_count := tick_count
      invocations := W.invocations ++
        if W.timers.service = .pulled t ∧ Y.service = .callback t then
          [(Y.expiry_tick t, W.tick_count)]
        else [] }
  | _, _ => none

/-- No call is about `t` or about the timer being serviced, and the tick count does not wrap. -/
def spares (t : Fin n) (W : TimerWatch n) (a : TimerAction n) : Prop :=
  (∀ u ∈ a.timer, u ≠ t ∧ W.timers.service.serviced ≠ some u) ∧ W.tick_count + 1 < 2 ^ 64

instance (t : Fin n) (W : TimerWatch n) (a : TimerAction n) : Decidable (W.spares t a) :=
  inferInstanceAs (Decidable (_ ∧ _))

/-- The expiry of the `k`-th period, as 64 bits hold it. -/
def expiry (e₀ p k : Nat) : Nat := u64 (e₀ + k * p)

theorem expiry_succ (e₀ p k : Nat) : u64 (expiry e₀ p k + p) = expiry e₀ p (k + 1) := by
  unfold expiry u64
  rw [Nat.mod_add_mod, Nat.add_mul, Nat.one_mul, Nat.add_assoc]

/-- Where `t` is after `k` invocations, at tick count `c`. -/
inductive Phase (V : TimerView n) (t : Fin n) (e₀ p c k : Nat) : Prop
  | listed (hserviced : V.service.serviced ≠ some t)
      (hid : V.list_id t = TIMER_LIST_BLOCKED ∨
        V.list_id t = TIMER_LIST_ACTIVE ∧ V.expiry_tick t ≤ c)
      (hexpiry : V.expiry_tick t = expiry e₀ p k)
  | pulled (hservice : V.service = .pulled t) (hdue : V.expiry_tick t ≤ c)
      (hexpiry : V.expiry_tick t = expiry e₀ p k)
  | called (j : Nat) (hk : k = j + 1)
      (hservice : V.service = .callback t ∨ V.service = .called t ∨ V.service = .rearm t)
      (hexpiry : V.expiry_tick t = expiry e₀ p j)

/-- What holds of `t` at tick count `c`, after the invocations `calls`. -/
structure OnTime (V : TimerView n) (t : Fin n) (e₀ p c : Nat) (calls : List (Nat × Nat)) :
    Prop where
  period : V.period t = p
  timer_mode : V.timer_mode t = TIMER_MODE_PERIODIC
  callback : V.callback t ≠ none
  phase : Phase V t e₀ p c calls.length
  calls : ∀ k (h : k < calls.length), calls[k].1 = expiry e₀ p k ∧ calls[k].1 ≤ calls[k].2

variable {V W : TimerView n} {a : TimerAction n} {t u : Fin n} {e₀ p c c' k : Nat}
  {calls calls' : List (Nat × Nat)}

/-- A timer that is not being serviced is armed or has expired. -/
theorem Phase.of_not_serviced (h : Phase V t e₀ p c k) (hs : V.service.serviced ≠ some t) :
    (V.list_id t = TIMER_LIST_BLOCKED ∨ V.list_id t = TIMER_LIST_ACTIVE ∧ V.expiry_tick t ≤ c) ∧
      V.expiry_tick t = expiry e₀ p k := by
  cases h with
  | listed hserviced hid hexpiry => exact ⟨hid, hexpiry⟩
  | pulled hservice hdue hexpiry => rw [hservice] at hs; exact absurd rfl hs
  | called j hk hservice hexpiry =>
    rcases hservice with h | h | h
    all_goals rw [h] at hs; exact absurd rfl hs

/-- The service task goes on with another timer, or with none. -/
theorem Phase.elsewhere (h : Phase V t e₀ p c k) (hs : V.service.serviced ≠ some t)
    (hs' : W.service.serviced ≠ some t) (hid : W.list_id t = V.list_id t)
    (hexpiry : W.expiry_tick t = V.expiry_tick t) : Phase W t e₀ p c k := by
  obtain ⟨h1, h2⟩ := h.of_not_serviced hs
  exact .listed hs' (by rw [hid, hexpiry]; exact h1) (by rw [hexpiry]; exact h2)

/-- A timer whose callback is being called. -/
theorem Phase.in_call (h : Phase V t e₀ p c k)
    (hservice : V.service = .callback t ∨ V.service = .called t ∨ V.service = .rearm t) :
    ∃ j, k = j + 1 ∧ V.expiry_tick t = expiry e₀ p j := by
  cases h with
  | listed hserviced hid hexpiry =>
    rcases hservice with h | h | h
    all_goals rw [h] at hserviced; exact absurd rfl hserviced
  | pulled hpulled hdue hexpiry =>
    rcases hservice with h | h | h
    all_goals rw [hpulled] at h; cases h
  | called j hk hservice hexpiry => exact ⟨j, hk, hexpiry⟩

/-- Nothing of `t` changes, and the service task stays where it is. -/
theorem Phase.congr (h : Phase V t e₀ p c k) (hservice : W.service = V.service)
    (hid : W.list_id t = V.list_id t) (hexpiry : W.expiry_tick t = V.expiry_tick t) :
    Phase W t e₀ p c k := by
  cases h with
  | listed hserviced h1 h2 =>
    exact .listed (by rw [hservice]; exact hserviced) (by rw [hid, hexpiry]; exact h1)
      (by rw [hexpiry]; exact h2)
  | pulled h1 h2 h3 =>
    exact .pulled (by rw [hservice]; exact h1) (by rw [hexpiry]; exact h2)
      (by rw [hexpiry]; exact h3)
  | called j hk h1 h2 =>
    exact .called j hk (by rw [hservice]; exact h1) (by rw [hexpiry]; exact h2)

theorem Phase.later (h : Phase V t e₀ p c k) (hle : c ≤ c') : Phase V t e₀ p c' k := by
  cases h with
  | listed hserviced hid hexpiry =>
    exact .listed hserviced (hid.imp_right fun hid => ⟨hid.1, Nat.le_trans hid.2 hle⟩) hexpiry
  | pulled hservice hdue hexpiry => exact .pulled hservice (Nat.le_trans hdue hle) hexpiry
  | called j hk hservice hexpiry => exact .called j hk hservice hexpiry

/-- A tick moves `t` when it is due, and may wake the service task. -/
theorem Phase.tick (h : Phase V t e₀ p c k) :
    Phase (TimerView.give^[(V.due c).card] (V.expire c)) t e₀ p c k := by
  obtain ⟨count, service, heq, hs⟩ := TimerView.gives_cases (V.due c).card (V.expire c)
  rw [heq]
  have hexpired : Phase (V.expire c) t e₀ p c k := by
    cases h with
    | listed hserviced hid hexpiry =>
      refine .listed hserviced ?_ hexpiry
      by_cases hdue : t ∈ V.due c
      · exact .inr ⟨if_pos hdue, (Finset.mem_filter.mp hdue).2.2⟩
      · rw [show (V.expire c).list_id t = V.list_id t from if_neg hdue]
        exact hid
    | pulled hservice hdue hexpiry => exact .pulled hservice hdue hexpiry
    | called j hk hservice hexpiry => exact .called j hk hservice hexpiry
  rcases hs with rfl | ⟨hwaiting, rfl⟩
  · exact hexpired.congr rfl rfl rfl
  · have hwaits : (V.expire c).service.serviced ≠ some t := by rw [hwaiting]; simp [ServicePc.serviced]
    exact hexpired.elsewhere hwaits (by simp [ServicePc.serviced]) rfl rfl

/-- A step that is not a call of `t`. -/
theorem OnTime.quiet (h : OnTime V t e₀ p c calls) (hphase : Phase W t e₀ p c' calls.length)
    (hno : ¬ (V.service = .pulled t ∧ W.service = .callback t))
    (hperiod : W.period t = V.period t) (hmode : W.timer_mode t = V.timer_mode t)
    (hcallback : W.callback t = V.callback t) :
    OnTime W t e₀ p c' (calls ++
      if V.service = .pulled t ∧ W.service = .callback t then calls' else []) := by
  rw [if_neg hno, List.append_nil]
  exact ⟨hperiod.trans h.period, hmode.trans h.timer_mode, by rw [hcallback]; exact h.callback,
    hphase, h.calls⟩

/-- The call of `t`: it is recorded with the expiry of its period, at a tick count not before it. -/
theorem OnTime.call (h : OnTime V t e₀ p c calls) (hservice : V.service = .pulled t) :
    OnTime { V with service := .callback t } t e₀ p c (calls ++ [(V.expiry_tick t, c)]) := by
  have hphase := h.phase
  rcases hphase with ⟨hserviced, -, -⟩ | ⟨-, hdue, hexpiry⟩ | ⟨j, -, hpc, -⟩
  · rw [hservice] at hserviced
    exact absurd rfl hserviced
  · refine ⟨h.period, h.timer_mode, h.callback, ?_, fun k hk => ?_⟩
    · exact .called calls.length (by simp) (.inl rfl) hexpiry
    · rw [List.getElem_append]
      split
      · rename_i hlt
        exact h.calls k hlt
      · rename_i hlt
        have hlast : k = calls.length := by
          rw [List.length_append, List.length_singleton] at hk
          omega
        subst hlast
        simpa [hexpiry] using hdue
  · rw [hservice] at hpc
    rcases hpc with hpc | hpc | hpc <;> cases hpc

/-- The re-arming of `t`: the next period begins where this one was due. -/
theorem Phase.rearm (h : Phase V t e₀ p c k) (hservice : V.service = .rearm t)
    (hperiod : V.period t = p) :
    Phase { V.arm t (u64 (V.expiry_tick t + V.period t)) with service := .take } t e₀ p c k := by
  obtain ⟨j, rfl, hexpiry⟩ := h.in_call (.inr (.inr hservice))
  refine .listed (by simp [ServicePc.serviced]) (.inl (update_self ..)) ?_
  rw [← expiry_succ, ← hexpiry, ← hperiod]
  exact update_self ..

/-- A section of the service task. -/
theorem OnTime.service_step (h : OnTime V t e₀ p c calls) (hstep : V.Step .service W) :
    OnTime W t e₀ p c (calls ++
      if V.service = .pulled t ∧ W.service = .callback t then [(W.expiry_tick t, c)] else []) := by
  have hphase := h.phase
  cases hstep with
  | take hservice hcount =>
    exact h.quiet (hphase.elsewhere (by rw [hservice]; simp [ServicePc.serviced])
      (by simp [ServicePc.serviced]) rfl rfl) (by simp) rfl rfl rfl
  | wait hservice hcount =>
    exact h.quiet (hphase.elsewhere (by rw [hservice]; simp [ServicePc.serviced])
      (by simp [ServicePc.serviced]) rfl rfl) (by simp) rfl rfl rfl
  | pull_none hservice hnone =>
    exact h.quiet (hphase.elsewhere (by rw [hservice]; simp [ServicePc.serviced])
      (by simp [ServicePc.serviced]) rfl rfl) (by simp) rfl rfl rfl
  | @pull u hservice hactive =>
    have hs : V.service.serviced ≠ some t := by rw [hservice]; simp [ServicePc.serviced]
    refine h.quiet ?_ (by simp) rfl rfl rfl
    by_cases hut : u = t
    · subst hut
      obtain ⟨hid, hexpiry⟩ := hphase.of_not_serviced hs
      rcases hid with hid | ⟨-, hdue⟩
      · rw [hid] at hactive
        cases hactive
      · exact .pulled rfl hdue hexpiry
    · exact hphase.elsewhere hs (by simpa [ServicePc.serviced] using hut)
        (update_of_ne (Ne.symm hut) ..) rfl
  | @skip u hservice hcallback =>
    have hut : u ≠ t := by
      rintro rfl
      exact h.callback hcallback
    exact h.quiet (hphase.elsewhere (by rw [hservice]; simpa [ServicePc.serviced] using hut)
      (by simpa [ServicePc.serviced] using hut) rfl rfl) (by simp) rfl rfl rfl
  | @call u hservice hcallback =>
    by_cases hut : u = t
    · subst hut
      rw [if_pos ⟨hservice, rfl⟩]
      exact h.call hservice
    · exact h.quiet (hphase.elsewhere (by rw [hservice]; simpa [ServicePc.serviced] using hut)
        (by simpa [ServicePc.serviced] using hut) rfl rfl) (by simp [hut]) rfl rfl rfl
  | @returns u hservice =>
    refine h.quiet ?_ (by simp) rfl rfl rfl
    by_cases hut : u = t
    · subst hut
      obtain ⟨j, hk, hexpiry⟩ := hphase.in_call (.inl hservice)
      exact .called j hk (.inr (.inl rfl)) hexpiry
    · exact hphase.elsewhere (by rw [hservice]; simpa [ServicePc.serviced] using hut)
        (by simpa [ServicePc.serviced] using hut) rfl rfl
  | @once u hservice hmode =>
    have hut : u ≠ t := by
      rintro rfl
      exact hmode h.timer_mode
    exact h.quiet (hphase.elsewhere (by rw [hservice]; simpa [ServicePc.serviced] using hut)
      (by simp [ServicePc.serviced]) rfl rfl) (by simp) rfl rfl rfl
  | @again u hservice hmode =>
    refine h.quiet ?_ (by simp) rfl rfl rfl
    by_cases hut : u = t
    · subst hut
      obtain ⟨j, hk, hexpiry⟩ := hphase.in_call (.inr (.inl hservice))
      exact .called j hk (.inr (.inr rfl)) hexpiry
    · exact hphase.elsewhere (by rw [hservice]; simpa [ServicePc.serviced] using hut)
        (by simpa [ServicePc.serviced] using hut) rfl rfl
  | @rearm u hservice =>
    refine h.quiet ?_ (by simp) rfl rfl rfl
    by_cases hut : u = t
    · subst hut
      exact hphase.rearm hservice h.period
    · have htu : t ≠ u := Ne.symm hut
      exact hphase.elsewhere (by rw [hservice]; simpa [ServicePc.serviced] using hut)
        (by simp [ServicePc.serviced]) (update_of_ne htu ..) (update_of_ne htu ..)

/-- A call about another timer. -/
theorem OnTime.other (h : OnTime V t e₀ p c calls) (hservice : W.service = V.service)
    (hid : W.list_id t = V.list_id t) (hexpiry : W.expiry_tick t = V.expiry_tick t)
    (hperiod : W.period t = V.period t) (hmode : W.timer_mode t = V.timer_mode t)
    (hcallback : W.callback t = V.callback t) :
    OnTime W t e₀ p c (calls ++
      if V.service = .pulled t ∧ W.service = .callback t then calls' else []) := by
  refine h.quiet (h.phase.congr hservice hid hexpiry) ?_ hperiod hmode hcallback
  rintro ⟨h1, h2⟩
  rw [hservice, h1] at h2
  cases h2

/-- Each step of a run keeps `t` on time. -/
theorem OnTime.step (h : OnTime V t e₀ p c calls) (ha : ∀ u ∈ a.timer, u ≠ t)
    (hc : clock c a = some c') (hfit : c + 1 < 2 ^ 64) (hstep : V.Step a W) :
    OnTime W t e₀ p c' (calls ++
      if V.service = .pulled t ∧ W.service = .callback t then [(W.expiry_tick t, c)] else []) := by
  cases a with
  | create timer period callback timer_mode now =>
    cases hc
    cases hstep with
    | create_null => exact h.other rfl rfl rfl rfl rfl rfl
    | create_zero => exact h.other rfl rfl rfl rfl rfl rfl
    | @create_unarmed u =>
      have htu : t ≠ u := Ne.symm (ha u rfl)
      exact h.other rfl (update_of_ne htu ..) (update_of_ne htu ..) (update_of_ne htu ..)
        (update_of_ne htu ..) (update_of_ne htu ..)
    | @create u =>
      have htu : t ≠ u := Ne.symm (ha u rfl)
      exact h.other rfl ((update_of_ne htu ..).trans (update_of_ne htu ..))
        ((update_of_ne htu ..).trans (update_of_ne htu ..)) (update_of_ne htu ..)
        (update_of_ne htu ..) (update_of_ne htu ..)
  | stop timer =>
    cases hc
    cases hstep with
    | stop_null => exact h.other rfl rfl rfl rfl rfl rfl
    | @stop u => exact h.other rfl (update_of_ne (Ne.symm (ha u rfl)) ..) rfl rfl rfl rfl
  | reset timer now =>
    cases hc
    cases hstep with
    | reset_null => exact h.other rfl rfl rfl rfl rfl rfl
    | @reset u =>
      have htu : t ≠ u := Ne.symm (ha u rfl)
      exact h.other rfl (update_of_ne htu ..) (update_of_ne htu ..) rfl rfl rfl
  | tick now_tick =>
    obtain ⟨hnow, hc⟩ := Option.ite_none_right_eq_some.mp hc
    cases hc
    have hle : c ≤ c' := by
      rw [hnow, show u64 (c + 1) = c + 1 from Nat.mod_eq_of_lt hfit]
      omega
    cases hstep
    obtain ⟨count, service, heq, hs⟩ :=
      TimerView.gives_cases (V.due c').card (V.expire c')
    refine h.quiet (h.phase.later hle).tick ?_ ?_ ?_ ?_
    · rw [heq]
      rintro ⟨h1, h2⟩
      rcases hs with rfl | ⟨-, rfl⟩
      · cases h1.symm.trans h2
      · cases h2
    all_goals rw [heq]; rfl
  | service => cases hc; exact h.service_step hstep

end TimerWatch

/-- A periodic timer that is armed, with a callback. -/
structure Timers.Armed {n : Nat} (X : Timers n) (t : Fin n) (e₀ p : Nat) : Prop where
  list_id : X.list_id t = TIMER_LIST_BLOCKED
  timer_mode : X.timer_mode t = TIMER_MODE_PERIODIC
  callback : X.callback t ≠ none
  expiry_tick : X.expiry_tick t = e₀
  period : X.period t = p

/-- The run of the watched timer's steps. -/
theorem TimerWatch.on_time {n : Nat} {X : Timers n} {t : Fin n} {e₀ p c : Nat} {W : TimerWatch n}
    (hX : X.Orderly) (harmed : X.Armed t e₀ p) (he₀ : e₀ < 2 ^ 64)
    (hrun : Reach (TimerWatch.step t) (fun W a => W.spares t a ∧ W.timers.createsUnlisted a)
      ⟨X, c, []⟩ W) :
    W.timers.Orderly ∧ OnTime W.timers.view t e₀ p W.tick_count W.invocations := by
  refine hrun.invariant
    (P := fun W => W.timers.Orderly ∧ OnTime W.timers.view t e₀ p W.tick_count W.invocations)
    ⟨hX, harmed.period, harmed.timer_mode, harmed.callback, ?_, fun k hk => ?_⟩ ?_
  · refine .listed (fun hs => ?_) (.inl harmed.list_id) ?_
    · have hnone := hX.serviced t hs
      cases harmed.list_id.symm.trans hnone
    · have hfirst : expiry e₀ p 0 = e₀ := by
        unfold expiry u64
        rw [Nat.zero_mul, Nat.add_zero, Nat.mod_eq_of_lt he₀]
      exact harmed.expiry_tick.trans hfirst.symm
  · cases hk
  · rintro W W' a ⟨ho, ht⟩ ⟨hspares, hcreates⟩ hstep
    unfold TimerWatch.step at hstep
    cases hc : clock W.tick_count a with
    | none => rw [hc] at hstep; cases hstep
    | some c' =>
      cases hY : W.timers.advance a with
      | none => rw [hc, hY] at hstep; cases hstep
      | some Y =>
        rw [hc, hY] at hstep
        cases hstep
        have hok : W.timers.orderly a := ⟨hcreates, fun u hu => (hspares.1 u hu).2⟩
        refine ⟨ho.advance hok hY, ?_⟩
        exact ht.step (fun u hu => (hspares.1 u hu).1) hc hspares.2 (ho.sound.advance_view hY)

/-- In every run from a state in which `t` is armed for `e₀`, without a call about `t` or about the
timer being serviced, the `k`-th invocation of `t`'s callback is for `e₀ + k * p`, and not before. -/
theorem periodic_no_drift {n : Nat} {X : Timers n} {t : Fin n} {e₀ p c k : Nat} {W : TimerWatch n}
    (hr : Reach Timers.advance Timers.orderly (Timers.boot n) X) (harmed : X.Armed t e₀ p)
    (hrun : Reach (TimerWatch.step t) (fun W a => W.spares t a ∧ W.timers.createsUnlisted a)
      ⟨X, c, []⟩ W)
    (hk : k < W.invocations.length) (hfit : e₀ + k * p < 2 ^ 64) :
    W.invocations[k].1 = e₀ + k * p ∧ e₀ + k * p ≤ W.invocations[k].2 := by
  have hX : X.Orderly := hr.invariant Timers.boot_orderly fun _ _ _ h hok hstep =>
    h.advance hok hstep
  obtain ⟨-, h⟩ := TimerWatch.on_time hX harmed (by omega) hrun
  obtain ⟨h1, h2⟩ := h.calls k hk
  have hexpiry : TimerWatch.expiry e₀ p k = e₀ + k * p := Nat.mod_eq_of_lt hfit
  rw [h1, hexpiry] at h2
  exact ⟨h1.trans hexpiry, h2⟩

/-- A periodic timer is armed. -/
def arms_periodic {n : Nat} (t : Fin n) : List (TimerAction n) :=
  [.create (some t) 2 (some 0) .TIMER_MODE_PERIODIC (some 0), .service]

/-- It expires twice, and the service task is a period late the first time. -/
def called_late {n : Nat} : List (TimerAction n) :=
  [.tick 1, .tick 2, .tick 3, .tick 4, .service, .service, .service, .service, .service, .tick 5,
   .service, .service, .service]

theorem arms_periodic_run : (execute Timers.advance Timers.orderly (Timers.boot 1)
    (arms_periodic (Fin.last 0))).isSome = true := by rfl

/-- The state in which the watch begins. -/
def periodic_armed : Timers 1 := (execute Timers.advance Timers.orderly (Timers.boot 1)
  (arms_periodic (Fin.last 0))).get arms_periodic_run

theorem called_late_run : (execute (TimerWatch.step (Fin.last 0))
    (fun W a => W.spares (Fin.last 0) a ∧ W.timers.createsUnlisted a) ⟨periodic_armed, 0, []⟩
    called_late).isSome = true := by rfl

/-- The state in which the watch ends. -/
def called_twice : TimerWatch 1 := (execute (TimerWatch.step (Fin.last 0))
  (fun W a => W.spares (Fin.last 0) a ∧ W.timers.createsUnlisted a) ⟨periodic_armed, 0, []⟩
  called_late).get called_late_run

theorem periodic_no_drift_late : ∃ h : 1 < called_twice.invocations.length,
    called_twice.invocations[1].1 = 2 + 1 * 2 ∧ 2 + 1 * 2 ≤ called_twice.invocations[1].2 :=
  ⟨by decide +kernel, periodic_no_drift
    (Reach.of_exec (arms_periodic (Fin.last 0)) .start (Option.some_get arms_periodic_run).symm)
    ⟨rfl, rfl, by decide, rfl, rfl⟩
    (Reach.of_exec called_late .start (Option.some_get called_late_run).symm) _ (by decide)⟩

/-- A periodic timer armed for tick 100. -/
def arms_for_100 {n : Nat} (t : Fin n) : List (TimerAction n) :=
  [.create (some t) 100 (some 0) .TIMER_MODE_PERIODIC (some 0)]

/-- Two timers expire at tick 1. One of them is created anew while it is in the active list: it is
linked before the periodic timer, so that the active list goes on into the blocked list. The other
one is stopped and leaves a unit. -/
def created_while_active {n : Nat} (u v : Fin n) : List (TimerAction n) :=
  [.create (some u) 1 none .TIMER_MODE_ONE_SHOT (some 0),
   .create (some v) 1 none .TIMER_MODE_ONE_SHOT (some 0), .tick 1,
   .create (some u) 50 none .TIMER_MODE_ONE_SHOT (some 1), .stop (some v),
   .service, .service, .service, .service, .service, .service, .service]

theorem arms_for_100_run : (execute Timers.advance Timers.orderly (Timers.boot 3)
    (arms_for_100 (Fin.last 2))).isSome = true := by rfl

def armed_for_100 : Timers 3 := (execute Timers.advance Timers.orderly (Timers.boot 3)
  (arms_for_100 (Fin.last 2))).get arms_for_100_run

theorem created_while_active_run : (execute (TimerWatch.step (Fin.last 2))
    (TimerWatch.spares (Fin.last 2)) ⟨armed_for_100, 0, []⟩
    (created_while_active 0 1)).isSome = true := by rfl

/-- The periodic timer is called at tick 1. -/
theorem periodic_called_early : ¬ ∀ (n : Nat) (X : Timers n) (t : Fin n) (e₀ p c k : Nat)
    (W : TimerWatch n), Reach Timers.advance Timers.orderly (Timers.boot n) X → X.Armed t e₀ p →
    Reach (TimerWatch.step t) (TimerWatch.spares t) ⟨X, c, []⟩ W →
    ∀ hk : k < W.invocations.length, e₀ + k * p < 2 ^ 64 →
      W.invocations[k].1 = e₀ + k * p ∧ e₀ + k * p ≤ W.invocations[k].2 := by
  intro h
  obtain ⟨-, hearly⟩ := h 3 armed_for_100 (Fin.last 2) 100 100 0 0 _
    (Reach.of_exec (arms_for_100 (Fin.last 2)) .start (Option.some_get arms_for_100_run).symm)
    ⟨rfl, rfl, by decide, rfl, rfl⟩
    (Reach.of_exec (created_while_active 0 1) .start
      (Option.some_get created_while_active_run).symm)
    (by decide +kernel) (by decide)
  exact absurd hearly (by decide +kernel)

end Rpitos
