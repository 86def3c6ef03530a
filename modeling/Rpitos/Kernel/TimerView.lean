import Rpitos.Kernel.TimerRuns

/-!
# Kernel.TimerView

The software timers without their lists: each timer is unarmed, armed or expired, and the service
task pulls any expired timer. `Sound.view_step`: while the lists are sound, a step of
`software_timer.c` is a step of this model. What is promised about single timers and about the units
of the semaphore is proved on it.
-/

namespace Rpitos

open Function StatusCode TimerMode TimerListId

/-- What is seen of the timers when the links are hidden. -/
structure TimerView (n : Nat) where
  expiry_tick : Fin n → Nat
  period : Fin n → Nat
  timer_mode : Fin n → TimerMode
  callback : Fin n → Option TimerCallback
  list_id : Fin n → TimerListId
  count : Nat
  service : ServicePc n

namespace TimerView

variable {n : Nat}

/-- Armed to expire at `expiry_tick`. -/
def arm (V : TimerView n) (t : Fin n) (expiry_tick : Nat) : TimerView n := { V with
  expiry_tick := update V.expiry_tick t expiry_tick
  list_id := update V.list_id t TIMER_LIST_BLOCKED }

def disarm (V : TimerView n) (t : Fin n) : TimerView n :=
  { V with list_id := update V.list_id t TIMER_LIST_NONE }

/-- Created, not armed yet. -/
def configure (V : TimerView n) (t : Fin n) (period : Nat) (callback : Option TimerCallback)
    (timer_mode : TimerMode) : TimerView n := { V with
  period := update V.period t period
  callback := update V.callback t callback
  timer_mode := update V.timer_mode t timer_mode
  expiry_tick := update V.expiry_tick t 0
  list_id := update V.list_id t TIMER_LIST_NONE }

/-- The armed timers that are due. -/
def due (V : TimerView n) (now_tick : Nat) : Finset (Fin n) :=
  Finset.univ.filter fun t => V.list_id t = TIMER_LIST_BLOCKED ∧ V.expiry_tick t ≤ now_tick

def expire (V : TimerView n) (now_tick : Nat) : TimerView n := { V with
  list_id := fun t => if t ∈ V.due now_tick then TIMER_LIST_ACTIVE else V.list_id t }

def give (V : TimerView n) : TimerView n :=
  if V.service = .waiting then { V with service := .pull }
  else if V.count < SEMAPHORE_MAX_COUNT_UNLIMITED then { V with count := V.count + 1 } else V

/-- What the calls, the tick and the service task do. -/
inductive Step (V : TimerView n) : TimerAction n → TimerView n → Prop
  | create_null {period : Nat} {callback : Option TimerCallback} {timer_mode : TimerMode}
      {now : Option Nat} : Step V (.create none period callback timer_mode now) V
  | create_zero {t : Fin n} {callback : Option TimerCallback} {timer_mode : TimerMode}
      {now : Option Nat} : Step V (.create (some t) 0 callback timer_mode now) V
  | create_unarmed {t : Fin n} {period : Nat} {callback : Option TimerCallback}
      {timer_mode : TimerMode} (hperiod : 0 < period) :
      Step V (.create (some t) period callback timer_mode none)
        (V.configure t period callback timer_mode)
  | create {t : Fin n} {period : Nat} {callback : Option TimerCallback} {timer_mode : TimerMode}
      {now : Nat} (hperiod : 0 < period) :
      Step V (.create (some t) period callback timer_mode (some now))
        ((V.configure t period callback timer_mode).arm t (u64 (now + period)))
  | stop_null : Step V (.stop none) V
  | stop {t : Fin n} : Step V (.stop (some t)) (V.disarm t)
  | reset_null {now : Nat} : Step V (.reset none now) V
  | reset {t : Fin n} {now : Nat} :
      Step V (.reset (some t) now) (V.arm t (u64 (now + V.period t)))
  | tick {now_tick : Nat} :
      Step V (.tick now_tick) (give^[(V.due now_tick).card] (V.expire now_tick))
  | take (hservice : V.service = .take) (hcount : 0 < V.count) :
      Step V .service { V with count := V.count - 1, service := .pull }
  | wait (hservice : V.service = .take) (hcount : V.count = 0) :
      Step V .service { V with service := .waiting }
  | pull_none (hservice : V.service = .pull) (hnone : ∀ t, V.list_id t ≠ TIMER_LIST_ACTIVE) :
      Step V .service { V with service := .take }
  | pull {t : Fin n} (hservice : V.service = .pull) (hactive : V.list_id t = TIMER_LIST_ACTIVE) :
      Step V .service { V.disarm t with service := .pulled t }
  | skip {t : Fin n} (hservice : V.service = .pulled t) (hcallback : V.callback t = none) :
      Step V .service { V with service := .called t }
  | call {t : Fin n} (hservice : V.service = .pulled t) (hcallback : V.callback t ≠ none) :
      Step V .service { V with service := .callback t }
  | returns {t : Fin n} (hservice : V.service = .callback t) :
      Step V .service { V with service := .called t }
  | once {t : Fin n} (hservice : V.service = .called t)
      (hmode : V.timer_mode t ≠ TIMER_MODE_PERIODIC) : Step V .service { V with service := .take }
  | again {t : Fin n} (hservice : V.service = .called t)
      (hmode : V.timer_mode t = TIMER_MODE_PERIODIC) : Step V .service { V with service := .rearm t }
  | rearm {t : Fin n} (hservice : V.service = .rearm t) :
      Step V .service { V.arm t (u64 (V.expiry_tick t + V.period t)) with service := .take }

end TimerView

namespace Timers

variable {n : Nat} {X Y : Timers n} {bs as : List (Fin n)} {t : Fin n}

def view (X : Timers n) : TimerView n where
  expiry_tick := X.expiry_tick
  period := X.period
  timer_mode := X.timer_mode
  callback := X.callback
  list_id := X.list_id
  count := X.count
  service := X.service

/-! ## Steps that only move links -/

theorem leave_view (h : software_timer_leave X t = some Y) : Y.view = X.view := by
  have hunlink : ∀ {f : Timers n → Fin n → Option (Bool × Timers n)},
      (∀ {b Z}, f X t = some (b, Z) → Z.view = X.view) → (f X t).map Prod.snd = some Y →
      Y.view = X.view := by
    intro f hf hmap
    obtain ⟨⟨b, Z⟩, hZ, rfl⟩ := Option.map_eq_some_iff.mp hmap
    exact hf hZ
  unfold software_timer_leave at h
  cases hid : X.list_id t with
  | TIMER_LIST_NONE => rw [hid] at h; cases h; rfl
  | TIMER_LIST_BLOCKED =>
    rw [hid] at h
    refine hunlink (fun {b Z} hZ => ?_) h
    unfold software_timer_unlink_blocked at hZ
    split at hZ <;> cases hZ
    rfl
  | TIMER_LIST_ACTIVE =>
    rw [hid] at h
    refine hunlink (fun {b Z} hZ => ?_) h
    unfold software_timer_unlink_active at hZ
    split at hZ <;> cases hZ
    rfl

theorem add_to_blocked_list_view (h : software_timer_add_to_blocked_list X t = some Y) :
    Y.view = { X.view with list_id := update X.list_id t TIMER_LIST_BLOCKED } := by
  unfold software_timer_add_to_blocked_list at h
  split at h <;> cases h
  rfl

theorem create_view {timer : Option (Fin n)} {period : Nat} {callback : Option TimerCallback}
    {timer_mode : TimerMode} {now : Option Nat}
    (h : (software_timer_create X timer period callback timer_mode now).map Prod.snd = some Y) :
    X.view.Step (.create timer period callback timer_mode now) Y.view := by
  unfold software_timer_create at h
  cases timer with
  | none => cases h; exact .create_null
  | some t =>
    dsimp only at h
    by_cases hperiod : period = 0
    · subst hperiod
      cases h
      exact .create_zero
    · rw [if_neg hperiod] at h
      cases now with
      | none => cases h; exact .create_unarmed (Nat.pos_of_ne_zero hperiod)
      | some now =>
        obtain ⟨⟨code, Z⟩, hZ, rfl⟩ := Option.map_eq_some_iff.mp h
        obtain ⟨W, hadd, hW⟩ := Option.map_eq_some_iff.mp hZ
        cases hW
        rw [add_to_blocked_list_view hadd]
        exact .create (Nat.pos_of_ne_zero hperiod)

theorem stop_view {timer : Option (Fin n)}
    (h : (software_timer_stop X timer).map Prod.snd = some Y) :
    X.view.Step (.stop timer) Y.view := by
  unfold software_timer_stop at h
  cases timer with
  | none => cases h; exact .stop_null
  | some t =>
    dsimp only at h
    cases hl : software_timer_leave X t with
    | none => rw [hl] at h; cases h
    | some Z =>
      rw [hl] at h
      cases h
      have hview : ({ Z with list_id := update Z.list_id t TIMER_LIST_NONE } : Timers n).view =
          Z.view.disarm t := rfl
      rw [hview, leave_view hl]
      exact .stop

theorem reset_view {timer : Option (Fin n)} {now : Nat}
    (h : (software_timer_reset X timer now).map Prod.snd = some Y) :
    X.view.Step (.reset timer now) Y.view := by
  unfold software_timer_reset at h
  cases timer with
  | none => cases h; exact .reset_null
  | some t =>
    dsimp only at h
    cases hl : software_timer_leave X t with
    | none => rw [hl] at h; cases h
    | some Z =>
      rw [hl] at h
      dsimp only at h
      obtain ⟨⟨code, W⟩, hW, rfl⟩ := Option.map_eq_some_iff.mp h
      obtain ⟨V, hadd, hV⟩ := Option.map_eq_some_iff.mp hW
      cases hV
      have hview : W.view = X.view.arm t (u64 (now + X.view.period t)) := by
        rw [← leave_view hl]
        exact add_to_blocked_list_view hadd
      show X.view.Step _ W.view
      rw [hview]
      exact .reset

/-! ## The tick and the service task -/

theorem give_view (X : Timers n) : (software_timer_give X).view = X.view.give := by
  unfold software_timer_give TimerView.give
  by_cases hwaiting : X.service = .waiting
  · rw [if_pos hwaiting, if_pos (show X.view.service = .waiting from hwaiting)]
    rfl
  · rw [if_neg hwaiting, if_neg (show ¬ X.view.service = .waiting from hwaiting)]
    by_cases hcount : X.count < SEMAPHORE_MAX_COUNT_UNLIMITED
    · rw [if_pos hcount, if_pos (show X.view.count < _ from hcount)]
      rfl
    · rw [if_neg hcount, if_neg (show ¬ X.view.count < _ from hcount)]

theorem gives_view (k : Nat) : ∀ X : Timers n, (X.gives k).view = TimerView.give^[k] X.view := by
  induction k with
  | zero => exact fun _ => rfl
  | succ k ih =>
    intro X
    rw [gives_succ, ih, give_view]
    rfl

theorem gives_eq (k : Nat) : ∀ X : Timers n, ∃ count service,
    X.gives k = { X with count := count, service := service } := by
  induction k with
  | zero => exact fun X => ⟨X.count, X.service, rfl⟩
  | succ k ih =>
    intro X
    obtain ⟨count, service, h⟩ := ih (software_timer_give X)
    refine ⟨count, service, ?_⟩
    rw [gives_succ, h, give_eq X]

/-- The due timers of the blocked list are the armed ones that are due. -/
theorem Lists.due_card (hl : X.Lists bs as) (ht : Tags X.list_id bs as) (now_tick : Nat) :
    (X.view.due now_tick).card = (X.due now_tick bs).length ∧
      ∀ u, u ∈ X.view.due now_tick ↔ u ∈ X.due now_tick bs := by
  have hmem : ∀ u, u ∈ X.view.due now_tick ↔ u ∈ X.due now_tick bs := fun u => by
    rw [mem_due, TimerView.due, Finset.mem_filter, ← ht.blocked u]
    exact and_iff_right (Finset.mem_univ u)
  have hnodup : (X.due now_tick bs).Nodup := hl.blocked.nodup.filter _
  have heq : X.view.due now_tick = (X.due now_tick bs).toFinset := by
    ext u
    rw [hmem, List.mem_toFinset]
  exact ⟨by rw [heq, List.toFinset_card_of_nodup hnodup], hmem⟩

theorem Sound.tick_view {now_tick : Nat} (h : X.Sound)
    (hstep : software_timer_tick X now_tick = some Y) : X.view.Step (.tick now_tick) Y.view := by
  obtain ⟨bs, as, hl, ht⟩ := h
  obtain ⟨Z, hZ, hticked⟩ := hl.tick now_tick
  rw [hZ] at hstep
  cases hstep
  obtain ⟨hcard, hmem⟩ := hl.due_card ht now_tick
  have hlist_id : Y.list_id = (X.view.expire now_tick).list_id := by
    funext u
    rw [hticked.list_id u]
    exact if_congr (hmem u).symm rfl rfl
  -- the gives do not look at the tags
  let W : Timers n := { X with list_id := (X.view.expire now_tick).list_id }
  obtain ⟨hcount, hservice⟩ :=
    gives_congr (X := X) (Y := W) (X.due now_tick bs).length rfl rfl
  have hview : Y.view = (W.gives (X.due now_tick bs).length).view := by
    obtain ⟨count, service, hW⟩ := gives_eq (X.due now_tick bs).length W
    rw [hW] at hcount hservice ⊢
    unfold view
    rw [hticked.count, hticked.service, hticked.expiry_tick, hticked.period,
      hticked.timer_mode, hticked.callback, hlist_id, ← hcount, ← hservice]
  rw [hview, gives_view, ← hcard]
  exact .tick

/-- The head of the active list is an expired timer, and there is none when the list is empty. -/
theorem Sound.active_head (h : X.Sound) :
    (∀ t, X.active_list_head = some t → X.list_id t = TIMER_LIST_ACTIVE) ∧
      (X.active_list_head = none → ∀ t, X.list_id t ≠ TIMER_LIST_ACTIVE) := by
  obtain ⟨bs, as, hl, ht⟩ := h
  have hactive := hl.active
  cases as with
  | nil =>
    rw [show X.active_list_head = none from hactive]
    refine ⟨fun t h => ?_, fun _ t hid => ?_⟩
    · cases h
    · cases (ht.active t).mp hid
  | cons a as =>
    rw [hactive.1]
    refine ⟨fun t h => ?_, fun h => by cases h⟩
    cases h
    exact (ht.active a).mpr (List.mem_cons_self ..)

theorem Sound.service_view (h : X.Sound) (hstep : software_timer_service_task X = some Y) :
    X.view.Step .service Y.view := by
  unfold software_timer_service_task at hstep
  cases hpc : X.service with
  | take =>
    rw [hpc] at hstep
    dsimp only at hstep
    split at hstep
    · cases hstep; exact .take hpc (by assumption)
    · cases hstep; exact .wait hpc (Nat.eq_zero_of_not_pos (by assumption))
  | waiting => rw [hpc] at hstep; cases hstep
  | pull =>
    rw [hpc] at hstep
    dsimp only at hstep
    cases hhead : X.active_list_head with
    | none =>
      rw [hhead] at hstep
      cases hstep
      exact .pull_none hpc (h.active_head.2 hhead)
    | some t =>
      rw [hhead] at hstep
      cases hstep
      exact .pull hpc (h.active_head.1 t hhead)
  | pulled t =>
    rw [hpc] at hstep
    cases hstep
    by_cases hcallback : X.callback t = none
    · rw [if_pos hcallback]; exact .skip hpc hcallback
    · rw [if_neg hcallback]; exact .call hpc hcallback
  | callback t => rw [hpc] at hstep; cases hstep; exact .returns hpc
  | called t =>
    rw [hpc] at hstep
    cases hstep
    by_cases hmode : X.timer_mode t = TIMER_MODE_PERIODIC
    · rw [if_pos hmode]; exact .again hpc hmode
    · rw [if_neg hmode]; exact .once hpc hmode
  | rearm t =>
    rw [hpc] at hstep
    obtain ⟨Z, hadd, rfl⟩ := Option.map_eq_some_iff.mp hstep
    have hview : ({ Z with service := .take } : Timers n).view =
        { X.view.arm t (u64 (X.view.expiry_tick t + X.view.period t)) with service := .take } := by
      show ({ Z.view with service := .take } : TimerView n) = _
      rw [add_to_blocked_list_view hadd]
      rfl
    rw [hview]
    exact .rearm hpc

/-- While the lists are sound, a step is a step of the model without them. -/
theorem Sound.view_step {a : TimerAction n} (h : X.Sound) (hstep : X.step a = some Y) :
    X.view.Step a Y.view := by
  cases a with
  | create timer period callback timer_mode now =>
    exact create_view (Option.ite_none_right_eq_some.mp hstep).2
  | stop timer => exact stop_view hstep
  | reset timer now => exact reset_view hstep
  | tick now_tick => exact h.tick_view hstep
  | service => exact h.service_view hstep

end Timers
end Rpitos
