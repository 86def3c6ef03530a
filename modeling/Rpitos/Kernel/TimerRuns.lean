import Rpitos.Kernel.TimerTick

/-!
# Kernel.TimerRuns

The structure of the software timers over runs. Every call and every section of the service task
keeps the two lists sound, except the re-arming of a timer that a call has put back into a list
while its callback was in progress: the insertion does not look at the tag, and links the timer a
second time. `timer_lists`: in every run without such a step the lists are sound in every state.
-/

namespace Rpitos

open Function StatusCode TimerMode TimerListId

namespace Timers

variable {n : Nat} {X Y : Timers n} {bs as : List (Fin n)} {t u : Fin n}

namespace Lists

theorem unlink_blocked (h : X.Lists bs as) (ht : t ∈ bs) :
    ∃ next head, software_timer_unlink_blocked X t =
        some (true, { X with next := next, blocked_list_head := head }) ∧
      Lists { X with next := next, blocked_list_head := head } (bs.erase t) as := by
  obtain ⟨next, head, hu, hc, hframe⟩ := h.blocked.unlinkNode ht h.length_blocked
  refine ⟨next, head, ?_, hc, h.active.congr fun a ha => hframe a fun hb => h.disjoint hb ha, ?_,
    h.sorted.sublist List.erase_sublist⟩
  · unfold software_timer_unlink_blocked
    rw [hu]
  · exact h.nodup.sublist (List.erase_sublist.append_right as)

theorem unlink_active (h : X.Lists bs as) (ht : t ∈ as) :
    ∃ next head, software_timer_unlink_active X t =
        some (true, { X with next := next, active_list_head := head }) ∧
      Lists { X with next := next, active_list_head := head } bs (as.erase t) := by
  obtain ⟨next, head, hu, hc, hframe⟩ := h.active.unlinkNode ht h.length_active
  refine ⟨next, head, ?_, h.blocked.congr fun a ha => hframe a (h.disjoint ha), hc, ?_, h.sorted⟩
  · unfold software_timer_unlink_active
    rw [hu]
  · exact h.nodup.sublist (List.erase_sublist.append_left bs)

theorem add_to_blocked_list (h : X.Lists bs as) (hb : t ∉ bs) (ha : t ∉ as) :
    ∃ next head, software_timer_add_to_blocked_list X t =
        some { X with list_id := update X.list_id t TIMER_LIST_BLOCKED, next := next,
                      blocked_list_head := head } ∧
      Lists { X with list_id := update X.list_id t TIMER_LIST_BLOCKED, next := next,
                     blocked_list_head := head } (insertBy X.expiry_tick t bs) as := by
  obtain ⟨next, head, hi, hc, hframe⟩ :=
    h.blocked.insertNode X.expiry_tick hb h.length_blocked
  refine ⟨next, head, ?_, hc, h.active.congr fun a has => ?_, ?_, pairwise_insertBy h.sorted⟩
  · unfold software_timer_add_to_blocked_list
    rw [hi]
  · exact hframe a (fun hab => h.disjoint hab has) (ne_of_mem_of_not_mem has ha)
  · obtain ⟨-, hnd, hdisj⟩ := List.nodup_append.mp h.nodup
    refine List.nodup_append.mpr ⟨hc.nodup, hnd, fun a hab b hb' => ?_⟩
    rcases mem_insertBy.mp hab with rfl | hab
    · exact (ne_of_mem_of_not_mem hb' ha).symm
    · exact hdisj a hab b hb'

end Lists

namespace Tags

variable {list_id : Fin n → TimerListId}

/-- A timer that leaves a list gets the tag NONE. -/
theorem erase_blocked (h : Tags list_id bs as) (hl : X.Lists bs as) (ht : t ∈ bs) :
    Tags (update list_id t TIMER_LIST_NONE) (bs.erase t) as := by
  have hne : ∀ u, u ≠ t → (u ∈ bs.erase t ↔ u ∈ bs) := fun u hu => List.mem_erase_of_ne hu
  have hself : t ∉ bs.erase t := (List.Nodup.mem_erase_iff hl.blocked.nodup).not.mpr (by simp)
  have hta := hl.disjoint ht
  refine ⟨fun u => ?_, fun u => ?_, fun u => ?_⟩
  all_goals by_cases hu : u = t
  · subst hu; simp [hself]
  · rw [update_of_ne hu, hne u hu]; exact h.blocked u
  · subst hu; simp [hta]
  · rw [update_of_ne hu]; exact h.active u
  · subst hu; simp [hself, hta]
  · rw [update_of_ne hu, hne u hu]; exact h.none u

theorem erase_active (h : Tags list_id bs as) (hl : X.Lists bs as) (ht : t ∈ as) :
    Tags (update list_id t TIMER_LIST_NONE) bs (as.erase t) := by
  have hne : ∀ u, u ≠ t → (u ∈ as.erase t ↔ u ∈ as) := fun u hu => List.mem_erase_of_ne hu
  have hself : t ∉ as.erase t := (List.Nodup.mem_erase_iff hl.active.nodup).not.mpr (by simp)
  have htb : t ∉ bs := fun hb => hl.disjoint hb ht
  refine ⟨fun u => ?_, fun u => ?_, fun u => ?_⟩
  all_goals by_cases hu : u = t
  · subst hu; simp [htb]
  · rw [update_of_ne hu]; exact h.blocked u
  · subst hu; simp [hself]
  · rw [update_of_ne hu, hne u hu]; exact h.active u
  · subst hu; simp [hself, htb]
  · rw [update_of_ne hu, hne u hu]; exact h.none u

/-- A timer in no list gets the tag of the list it joins. -/
theorem add_blocked (h : Tags (update list_id t TIMER_LIST_NONE) bs as) {bs' : List (Fin n)}
    (hmem : ∀ u, u ∈ bs' ↔ u = t ∨ u ∈ bs) : Tags (update list_id t TIMER_LIST_BLOCKED) bs' as := by
  have hta := ((h.none t).mp (update_self ..)).2
  refine ⟨fun u => ?_, fun u => ?_, fun u => ?_⟩
  all_goals by_cases hu : u = t
  · subst hu; simp [hmem]
  · have := h.blocked u
    rw [update_of_ne hu] at this ⊢
    rw [this, hmem]
    exact (or_iff_right hu).symm
  · subst hu; simp [hta]
  · have := h.active u
    rwa [update_of_ne hu] at this ⊢
  · subst hu; simp [hmem]
  · have := h.none u
    rw [update_of_ne hu] at this ⊢
    rw [this, hmem, or_iff_right hu]

theorem of_none (h : Tags list_id bs as) (ht : list_id t = TIMER_LIST_NONE) :
    Tags (update list_id t TIMER_LIST_NONE) bs as := by
  rw [← ht, update_eq_self]; exact h

end Tags

/-- `t` is in no list, and everything else is sound. -/
def Apart (X : Timers n) (t : Fin n) : Prop :=
  ∃ bs as, X.Lists bs as ∧ Tags (update X.list_id t TIMER_LIST_NONE) bs as

/-- Inserting a timer that is in no list. -/
theorem Apart.add_to_blocked_list (h : X.Apart t) :
    ∃ Y, software_timer_add_to_blocked_list X t = some Y ∧ Y.Sound := by
  obtain ⟨bs, as, hl, ht⟩ := h
  obtain ⟨hb, ha⟩ := (ht.none t).mp (update_self ..)
  obtain ⟨next, head, hadd, hl⟩ := hl.add_to_blocked_list hb ha
  exact ⟨_, hadd, _, as, hl, ht.add_blocked fun u => mem_insertBy⟩

/-- The fields of a timer that is in no list do not matter. -/
theorem Apart.congr (h : X.Apart t) (hbh : Y.blocked_list_head = X.blocked_list_head)
    (hah : Y.active_list_head = X.active_list_head) (hnext : ∀ u, u ≠ t → Y.next u = X.next u)
    (hexp : ∀ u, u ≠ t → Y.expiry_tick u = X.expiry_tick u)
    (hid : ∀ u, u ≠ t → Y.list_id u = X.list_id u) : Y.Apart t := by
  obtain ⟨bs, as, hl, ht⟩ := h
  obtain ⟨hb, ha⟩ := (ht.none t).mp (update_self ..)
  refine ⟨bs, as, hl.congr hbh hah (fun u hu => hnext u ?_) fun u hu => hexp u ?_, ?_⟩
  · rintro rfl; exact hu.elim hb ha
  · rintro rfl; exact hb hu
  · rw [show update Y.list_id t TIMER_LIST_NONE = update X.list_id t TIMER_LIST_NONE from ?_]
    · exact ht
    · funext u
      by_cases hu : u = t
      · subst hu; rw [update_self, update_self]
      · rw [update_of_ne hu, update_of_ne hu, hid u hu]

/-- What the sections of the service task that touch no list do. -/
theorem Sound.congr (h : X.Sound) (hbh : Y.blocked_list_head = X.blocked_list_head)
    (hah : Y.active_list_head = X.active_list_head) (hnext : Y.next = X.next)
    (hexp : Y.expiry_tick = X.expiry_tick) (hid : Y.list_id = X.list_id) : Y.Sound := by
  obtain ⟨bs, as, hl, ht⟩ := h
  exact ⟨bs, as, hl.congr hbh hah (fun u _ => by rw [hnext]) fun u _ => by rw [hexp],
    by rw [hid]; exact ht⟩

theorem Sound.apart (h : X.Sound) (ht : X.list_id t = TIMER_LIST_NONE) : X.Apart t := by
  obtain ⟨bs, as, hl, htags⟩ := h
  exact ⟨bs, as, hl, htags.of_none ht⟩

theorem Sound.leave (h : X.Sound) : ∃ Y, software_timer_leave X t = some Y ∧ Y.Apart t := by
  unfold software_timer_leave
  cases hid : X.list_id t with
  | TIMER_LIST_NONE => exact ⟨X, rfl, h.apart hid⟩
  | TIMER_LIST_BLOCKED =>
    obtain ⟨bs, as, hl, ht⟩ := h
    have hb := (ht.blocked t).mp hid
    obtain ⟨next, head, hu, hl'⟩ := hl.unlink_blocked hb
    rw [hu]
    exact ⟨_, rfl, _, as, hl', ht.erase_blocked hl hb⟩
  | TIMER_LIST_ACTIVE =>
    obtain ⟨bs, as, hl, ht⟩ := h
    have ha := (ht.active t).mp hid
    obtain ⟨next, head, hu, hl'⟩ := hl.unlink_active ha
    rw [hu]
    exact ⟨_, rfl, bs, _, hl', ht.erase_active hl ha⟩

theorem Sound.stop (h : X.Sound) (timer : Option (Fin n)) :
    ∃ code Y, software_timer_stop X timer = some (code, Y) ∧ Y.Sound := by
  cases timer with
  | none => exact ⟨_, _, rfl, h⟩
  | some t =>
    obtain ⟨Y, hY, bs, as, hl, ht⟩ := h.leave (t := t)
    unfold software_timer_stop
    dsimp only
    rw [hY]
    exact ⟨_, _, rfl, bs, as, hl.congr rfl rfl (fun _ _ => rfl) fun _ _ => rfl, ht⟩

theorem Sound.reset (h : X.Sound) (timer : Option (Fin n)) (now : Nat) :
    ∃ code Y, software_timer_reset X timer now = some (code, Y) ∧ Y.Sound := by
  cases timer with
  | none => exact ⟨_, _, rfl, h⟩
  | some t =>
    obtain ⟨Y, hY, ha⟩ := h.leave (t := t)
    unfold software_timer_reset
    dsimp only
    rw [hY]
    dsimp only
    obtain ⟨Z, hZ, hs⟩ := (ha.congr (Y := { Y with
      expiry_tick := update Y.expiry_tick t (u64 (now + Y.period t)) }) rfl rfl (fun _ _ => rfl)
      (fun u hu => update_of_ne hu ..) fun _ _ => rfl).add_to_blocked_list
    rw [hZ]
    exact ⟨_, _, rfl, hs⟩

theorem Sound.create (h : X.Sound) {timer : Option (Fin n)} (period : Nat)
    (callback : Option TimerCallback) (timer_mode : TimerMode) (now : Option Nat)
    (hnone : ∀ t ∈ timer, X.list_id t = TIMER_LIST_NONE) :
    ∃ code Y, software_timer_create X timer period callback timer_mode now = some (code, Y) ∧
      Y.Sound := by
  unfold software_timer_create
  cases timer with
  | none => exact ⟨_, _, rfl, h⟩
  | some t =>
    dsimp only
    split
    · exact ⟨_, _, rfl, h⟩
    · have ha := h.apart (hnone t rfl)
      cases now with
      | none =>
        refine ⟨_, _, rfl, ?_⟩
        obtain ⟨bs, as, hl, ht⟩ := ha
        obtain ⟨hb, hna⟩ := (ht.none t).mp (update_self ..)
        refine ⟨bs, as, hl.congr rfl rfl (fun u hu => update_of_ne ?_ ..)
          (fun u hu => update_of_ne ?_ ..), ht⟩
        · rintro rfl; exact hu.elim hb hna
        · rintro rfl; exact hb hu
      | some now =>
        dsimp only
        obtain ⟨Z, hZ, hs⟩ := (ha.congr (Y := { X with
          period := update X.period t period
          callback := update X.callback t callback
          timer_mode := update X.timer_mode t timer_mode
          expiry_tick := update (update X.expiry_tick t 0) t (u64 (now + period))
          list_id := update X.list_id t TIMER_LIST_NONE
          next := update X.next t none }) rfl rfl (fun u hu => update_of_ne hu ..)
          (fun u hu => (update_of_ne hu ..).trans (update_of_ne hu ..))
          fun u hu => update_of_ne hu ..).add_to_blocked_list
        rw [hZ]
        exact ⟨_, _, rfl, hs⟩

/-- The tags follow the timers that the tick moves. -/
theorem Ticked.tags {now_tick : Nat} (h : Ticked now_tick X Y bs as) (ht : Tags X.list_id bs as) :
    Tags Y.list_id (X.pending now_tick bs) ((X.due now_tick bs).reverse ++ as) := by
  have hpending : ∀ u, u ∈ X.pending now_tick bs ↔ u ∈ bs ∧ u ∉ X.due now_tick bs := fun u => by
    simp only [pending, mem_due, List.mem_filter, decide_eq_true_eq]
    by_cases hu : u ∈ bs <;> simp [hu]
  have hdue : ∀ u, u ∈ X.due now_tick bs → u ∈ bs := fun u hu => (mem_due.mp hu).1
  refine ⟨fun u => ?_, fun u => ?_, fun u => ?_⟩
  all_goals
    rw [h.list_id u]
    by_cases hu : u ∈ X.due now_tick bs
  · simp [hpending, hu]
  · rw [if_neg hu, ht.blocked u, hpending]; simp [hu]
  · simp [hu]
  · rw [if_neg hu, ht.active u]; simp [hu]
  · simp [hu]
  · rw [if_neg hu, ht.none u, hpending]; simp [hu]

theorem Sound.tick (h : X.Sound) (now_tick : Nat) :
    ∃ Y, software_timer_tick X now_tick = some Y ∧ Y.Sound := by
  obtain ⟨bs, as, hl, ht⟩ := h
  obtain ⟨Y, hY, hticked⟩ := hl.tick now_tick
  exact ⟨Y, hY, _, _, hticked.lists, hticked.tags ht⟩

/-- The section that pulls a timer off the active list. -/
theorem Lists.pull (hl : X.Lists bs (t :: as)) (ht : Tags X.list_id bs (t :: as))
    (service : ServicePc n) : Sound { X with
      active_list_head := X.next t
      next := update X.next t none
      list_id := update X.list_id t TIMER_LIST_NONE
      service := service } := by
  have hb : t ∉ bs := fun hb => hl.disjoint hb (List.mem_cons_self ..)
  obtain ⟨hta, -⟩ := List.nodup_cons.mp hl.active.nodup
  have herase := ht.erase_active hl (List.mem_cons_self ..)
  rw [List.erase_cons_head] at herase
  refine ⟨bs, as, ⟨?_, ?_, ?_, hl.sorted⟩, herase⟩
  · exact hl.blocked.congr fun u hu => update_of_ne (ne_of_mem_of_not_mem hu hb) ..
  · exact hl.active.2.congr fun u hu => update_of_ne (ne_of_mem_of_not_mem hu hta) ..
  · exact hl.nodup.sublist ((List.sublist_cons_self t as).append_left bs)

theorem Sound.service_task (h : X.Sound) (hok : X.rearmsUnlisted .service)
    (hstep : software_timer_service_task X = some Y) : Y.Sound := by
  unfold software_timer_service_task at hstep
  cases hpc : X.service with
  | take =>
    rw [hpc] at hstep
    dsimp only at hstep
    split at hstep <;> cases hstep <;> exact h.congr rfl rfl rfl rfl rfl
  | waiting => rw [hpc] at hstep; cases hstep
  | pull =>
    rw [hpc] at hstep
    dsimp only at hstep
    split at hstep
    · cases hstep; exact h.congr rfl rfl rfl rfl rfl
    · rename_i t hhead
      cases hstep
      obtain ⟨bs, as, hl, ht⟩ := h
      have hactive := hl.active
      rw [hhead] at hactive
      cases as with
      | nil => cases hactive
      | cons u as =>
        cases hactive.1
        exact hl.pull ht _
  | pulled t => rw [hpc] at hstep; cases hstep; exact h.congr rfl rfl rfl rfl rfl
  | callback t => rw [hpc] at hstep; cases hstep; exact h.congr rfl rfl rfl rfl rfl
  | called t => rw [hpc] at hstep; cases hstep; exact h.congr rfl rfl rfl rfl rfl
  | rearm t =>
    rw [hpc] at hstep
    unfold rearmsUnlisted at hok
    rw [hpc] at hok
    obtain ⟨Z, hZ, hs⟩ := ((h.apart hok).congr (Y := { X with
      expiry_tick := update X.expiry_tick t (u64 (X.expiry_tick t + X.period t)) }) rfl rfl
      (fun _ _ => rfl) (fun u hu => update_of_ne hu ..) fun _ _ => rfl).add_to_blocked_list
    dsimp only at hstep
    rw [hpc] at hZ
    rw [hZ] at hstep
    cases hstep
    exact hs.congr rfl rfl rfl rfl rfl

/-- One step of a run keeps the lists sound. -/
theorem Sound.step {a : TimerAction n} (h : X.Sound) (hok : X.rearmsUnlisted a)
    (hstep : X.step a = some Y) : Y.Sound := by
  cases a with
  | create timer period callback timer_mode now =>
    obtain ⟨hnone, hstep⟩ := Option.ite_none_right_eq_some.mp hstep
    obtain ⟨code, Z, hZ, hs⟩ := h.create period callback timer_mode now hnone
    rw [hZ] at hstep
    cases hstep
    exact hs
  | stop timer =>
    obtain ⟨code, Z, hZ, hs⟩ := h.stop timer
    have hstep : (software_timer_stop X timer).map Prod.snd = some Y := hstep
    rw [hZ] at hstep
    cases hstep
    exact hs
  | reset timer now =>
    obtain ⟨code, Z, hZ, hs⟩ := h.reset timer now
    have hstep : (software_timer_reset X timer now).map Prod.snd = some Y := hstep
    rw [hZ] at hstep
    cases hstep
    exact hs
  | tick now_tick =>
    obtain ⟨Z, hZ, hs⟩ := h.tick now_tick
    have hstep : software_timer_tick X now_tick = some Y := hstep
    rw [hZ] at hstep
    cases hstep
    exact hs
  | service => exact h.service_task hok hstep

theorem boot_sound : (boot n).Sound := by
  refine ⟨[], [], ⟨rfl, rfl, List.nodup_nil, List.Pairwise.nil⟩, ⟨fun t => ?_, fun t => ?_,
    fun t => ?_⟩⟩ <;> simp [boot]

end Timers

/-- In every run whose re-arm steps find the timer in no list, the two lists are sound in every
state reached. -/
theorem timer_lists {n : Nat} {X : Timers n}
    (hr : Reach Timers.step Timers.rearmsUnlisted (Timers.boot n) X) : X.Sound :=
  hr.invariant Timers.boot_sound fun _ _ _ h hok hstep => h.step hok hstep

/-- A one-shot and a periodic timer expire together and are serviced. -/
def two_timers : List (TimerAction 2) :=
  [.create (some 0) 5 (some 0) .TIMER_MODE_PERIODIC (some 0),
   .create (some 1) 5 none .TIMER_MODE_ONE_SHOT (some 0), .service, .tick 5, .service, .service,
   .service, .service, .service, .service, .service, .stop (some 0), .service, .service, .service]

theorem two_timers_run : (execute Timers.step Timers.rearmsUnlisted (Timers.boot 2)
    two_timers).isSome = true := by rfl

theorem timer_lists_two_timers : ((execute Timers.step Timers.rearmsUnlisted (Timers.boot 2)
    two_timers).get two_timers_run).Sound :=
  timer_lists (Reach.of_exec two_timers .start (Option.some_get two_timers_run).symm)

/-- A periodic timer that its own callback resets. -/
def reset_in_callback : List (TimerAction 1) :=
  [.create (some 0) 5 (some 0) .TIMER_MODE_PERIODIC (some 0), .tick 5, .service, .service, .service,
   .reset (some 0) 5, .service, .service, .service]

theorem reset_in_callback_run : (execute Timers.step anything (Timers.boot 1)
    reset_in_callback).isSome = true := by rfl

/-- The re-arming links the timer to itself. -/
theorem timer_lists_cycle :
    ¬ ∀ (n : Nat) (X : Timers n), Reach Timers.step anything (Timers.boot n) X → X.Sound := by
  intro h
  obtain ⟨bs, as, hl, -⟩ := h 1 _
    (Reach.of_exec reset_in_callback .start (Option.some_get reset_in_callback_run).symm)
  have hhead : ((execute Timers.step anything (Timers.boot 1) reset_in_callback).get
      reset_in_callback_run).blocked_list_head = some 0 := by rfl
  have hloop : ((execute Timers.step anything (Timers.boot 1) reset_in_callback).get
      reset_in_callback_run).next 0 = some 0 := by rfl
  have hb := hl.blocked
  rw [hhead] at hb
  exact Chain.not_loop hloop hb

end Rpitos
