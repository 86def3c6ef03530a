import Rpitos.Kernel.SchedulerSim

/-!
# Kernel.SyncSim

The functions of `Kernel.Mutex` and `Kernel.Semaphore` keep `Sim`. Both block the caller in the same
way (`enter_wait`), and both make the task they woke ready in the same way (`rejoin`); in between
the woken task is in flight.
-/

namespace Rpitos

open Function ListOps StatusCode

section Phases

variable {L : Type} [ListOps L ItemRef ListRef]

/-- The caller enters the wait list `l`, and the blocked list when its wait is timed. -/
def enter_wait (K : Kernel L) (l : ListRef) (t : Tcb) (timeout_ms : Int) (wakeup_time : Nat) :
    Kernel L :=
  let K : Kernel L := { K with lists := pushBack K.lists l (.event_list_item t) }
  let K := (scheduler_remove_from_ready_list K t).2
  let K := if 0 < timeout_ms then (scheduler_add_to_blocked_list K t wakeup_time).2 else K
  { K with current_state := update K.current_state t .BLOCKED }

/-- A woken task leaves the blocked list and is ready. -/
def rejoin (K : Kernel L) (t : Tcb) : Kernel L :=
  (scheduler_add_to_ready_list (scheduler_remove_from_blocked_list K t).2 t).2

/-- `semaphore_wake` before the task is added to its ready list. -/
def take_unit (K : Kernel L) (t : Tcb) : Kernel L :=
  let K := (scheduler_remove_from_blocked_list K t).2
  { K with lists := clearNode K.lists (.event_list_item t)
           wakeup_reason := update K.wakeup_reason t .RESOURCE_ACQUIRED }

theorem enter_wait_eq {K : Kernel L} {l : ListRef} {t : Tcb} {timeout_ms : Int} {w : Nat}
    (hc : container (pushBack K.lists l (.event_list_item t)) (ItemRef.state_list_item t) =
      some (.ready_list (K.core_id t) (K.priority t))) :
    enter_wait K l t timeout_ms w =
      let lists := unlinkIndexed (pushBack K.lists l (.event_list_item t))
        (.ready_list (K.core_id t) (K.priority t)) (.state_list_item t)
      if 0 < timeout_ms then
        { K with
          lists := insertSorted lists (.blocked_task_list (K.core_id t))
            (fun x => update K.wakeup_time t w x.owner) w MAX_TCBS (.state_list_item t)
          wakeup_time := update K.wakeup_time t w
          current_state := update K.current_state t .BLOCKED }
      else { K with lists := lists
                    current_state := update K.current_state t .BLOCKED } := by
  unfold enter_wait
  dsimp only
  rw [scheduler_remove_from_ready_list_eq hc]
  split <;> rfl

/-- What leaving the ready list does not touch. -/
theorem remove_from_ready_fields (K : Kernel L) (t : Tcb) :
    (scheduler_remove_from_ready_list K t).2 =
      { K with lists := (scheduler_remove_from_ready_list K t).2.lists } := by
  unfold scheduler_remove_from_ready_list
  dsimp only
  split <;> rfl

theorem enter_wait_effect (K : Kernel L) (l : ListRef) (t : Tcb) (timeout_ms : Int) (w : Nat) :
    ∃ lists wake, enter_wait K l t timeout_ms w = { K with
      lists := lists, wakeup_time := wake, current_state := update K.current_state t .BLOCKED } := by
  unfold enter_wait
  dsimp only
  rw [remove_from_ready_fields]
  split
  · exact ⟨_, _, rfl⟩
  · exact ⟨_, K.wakeup_time, rfl⟩

theorem mutex_lock_blocks_eq {K : Kernel L} {mtx : MutexId} {t : Tcb} {timeout_ms : Int}
    (hs : K.mutex_state mtx ≠ .UNLOCKED) (ht : timeout_ms ≠ 0) :
    mutex_lock K mtx t timeout_ms = (none, mutex_inherit
      (enter_wait K (.mutex_blocked_list mtx) t timeout_ms
        (u64 (K.tick_count t.home + timeout_ms.toNat))) mtx t) := by
  unfold mutex_lock enter_wait mutex_add_to_blocked_list
  rw [if_neg hs, if_neg ht]
  dsimp only
  rw [remove_from_ready_fields]

theorem semaphore_take_blocks_eq {K : Kernel L} {smph : SemaphoreId} {t : Tcb} {timeout_ms : Int}
    {deadline : Nat} (hc : ¬ 0 < K.count smph) (ht : timeout_ms ≠ 0)
    (hd : ¬ (0 < timeout_ms ∧ deadline ≤ K.tick_count t.home)) :
    semaphore_take K smph t timeout_ms deadline =
      (none, enter_wait K (.semaphore_blocked_list smph) t timeout_ms deadline) := by
  unfold semaphore_take enter_wait semaphore_add_to_blocked_list
  rw [if_neg hc, if_neg ht, if_neg hd]

theorem remove_from_blocked_timed_eq {K : Kernel L} {t : Tcb}
    (hc : container K.lists (ItemRef.state_list_item t) =
      some (.blocked_task_list (K.core_id t))) :
    (scheduler_remove_from_blocked_list K t).2 =
      { K with lists := unlink K.lists (.blocked_task_list (K.core_id t)) (.state_list_item t) } := by
  unfold scheduler_remove_from_blocked_list
  rw [if_pos hc]

theorem remove_from_blocked_untimed_eq {K : Kernel L} {t : Tcb}
    (hc : container K.lists (ItemRef.state_list_item t) = none) :
    (scheduler_remove_from_blocked_list K t).2 = K := by
  unfold scheduler_remove_from_blocked_list
  rw [if_neg (by simp [hc])]

/-- What leaving the blocked list does not touch. -/
theorem remove_from_blocked_fields (K : Kernel L) (t : Tcb) :
    (scheduler_remove_from_blocked_list K t).2 =
      { K with lists := (scheduler_remove_from_blocked_list K t).2.lists } := by
  unfold scheduler_remove_from_blocked_list
  dsimp only
  split <;> rfl

/-- What the pop does not touch. -/
theorem mutex_pop_best_fields (K : Kernel L) (mtx : MutexId) :
    (mutex_pop_best K mtx).2 = { K with
      lists := (mutex_pop_best K mtx).2.lists
      inherited_priority := (mutex_pop_best K mtx).2.inherited_priority } := by
  unfold mutex_pop_best
  split <;> rfl

/-- Whether `mutex_inherit` for the waiter `t` boosts `o`. -/
def Kernel.boosts {L : Type} (K : Kernel L) (mtx : MutexId) (t o : Tcb) : Prop :=
  K.inheritance_enabled mtx = true ∧ K.mutex_owner mtx = some o ∧
    (K.priority o < K.inherited_priority mtx ∨ K.priority o < K.priority t)

/-- Whether `mutex_lock` by `t` boosts `o`. -/
def Kernel.lock_boosts {L : Type} (K : Kernel L) (mtx : MutexId) (t : Tcb) (timeout_ms : Int)
    (o : Tcb) : Prop :=
  K.mutex_state mtx ≠ .UNLOCKED ∧ timeout_ms ≠ 0 ∧ K.boosts mtx t o

instance {L : Type} (K : Kernel L) (mtx : MutexId) (t : Tcb) (timeout_ms : Int) (o : Tcb) :
    Decidable (K.lock_boosts mtx t timeout_ms o) :=
  inferInstanceAs (Decidable (_ ∧ _ ∧ _ ∧ _ ∧ _))

end Phases

namespace Sim

variable {K : Kernel Links} {S : Kernel Sequences} {call : Tcb → Call} {fl : Tcb → Flight}
  {t : Tcb} {c : CoreId}

/-- Only a blocked task's call says where the task is. -/
theorem set_call {k : Call} (h : Sim K S call fl) (hc : K.created t = true)
    (hs : K.current_state t ≠ .BLOCKED) (ht : t.is_task = true) (hl : (fl t).left = none) :
    Sim K S (update call t k) fl := by
  have htab := h.tasks.set_task (k := k) hc (h.tasks.state t hc) (fun e => absurd e hs) (.inl ht)
    (fun e => (h.tasks.flight t e).2)
  rw [update_eq_self] at htab
  refine relink h.linked h.same rfl (fun u => ?_) (fun u => ?_) (fun u => Iff.rfl) htab h.counter
    h.owners
  · by_cases hut : u = t
    · subst hut
      rw [h.ready_home hc hs hl]
      rcases h.ready_or_running hc hs with e | e
      · simp [stateHome, hc, hl, e]
      · simp [stateHome, hc, hl, e]
    · simp [stateHome, hut]
  · by_cases hut : u = t
    · subst hut; simp [eventHome, eventList_of_ne hs]
    · simp [eventHome, hut]

/-! ## Blocking -/

theorem enter_wait {l : ListRef} {timeout_ms : Int} {w : Nat} {k : Call} (h : Sim K S call fl)
    (hc : K.created t = true) (hs : K.current_state t ≠ .BLOCKED) (ht : t.is_task = true)
    (he : (fl t).entered = none) (hl : k.waits_on = some l) (hk : k.spins = true)
    (hti : k.timed = decide (0 < timeout_ms)) :
    Sim (enter_wait K l t timeout_ms w) (enter_wait S l t timeout_ms w) (update call t k) fl := by
  have hf := h.no_flight hs he
  have hp : fl t ≠ .popped := by simp [hf]
  have hh := h.ready_home hc hs (by simp [hf])
  have hev : eventHome K call fl t = none := by simp [eventHome, eventList_of_ne hs, hf]
  have h1 := h.linked.wait_push (waits_on_isWait hl) hp hev
  have h2 := h1.ready_unlink hh
  have hleft := (congrFun h1.refines.container (.state_list_item t)).trans ((h1.state t).trans hh)
  have hright := (h1.state t).trans hh
  have heh : ∀ u, eventList (K.created u) (update K.current_state t .BLOCKED u) (update call t k u)
      (fl u) = update (eventHome K call fl) t (some l) u := by
    intro u
    by_cases hut : u = t
    · subst hut; simp [hc, hf, hl]
    · simp [eventHome, hut]
  have htab := h.tasks.set_task (t := t) (k := k) hc (.inr (.inr rfl)) (fun _ => hk) (.inl ht)
    (fun e => absurd hf e)
  rw [enter_wait_eq hleft]
  obtain ⟨s, rfl⟩ := h.exists_over
  rw [enter_wait_eq (K := K.over s) hright]
  by_cases hto : 0 < timeout_ms
  · simp only [hto, if_true]
    refine relink (h2.blocked_insert (by simp)) rfl rfl (fun u => ?_) heh (fun u => Iff.rfl) htab
      h.counter h.owners
    by_cases hut : u = t
    · subst hut; simp [stateHome, hc, hf, hti, hto]
    · simp [stateHome, hut]
  · simp only [hto, if_false]
    refine relink h2 rfl rfl (fun u => ?_) heh (fun u => Iff.rfl) htab h.counter h.owners
    by_cases hut : u = t
    · subst hut; simp [stateHome, hc, hf, hti, hto]
    · simp [stateHome, hut]

/-! ## Waking -/

/-- A blocked task is not about to block. -/
theorem not_left (h : Sim K S call fl) (hs : K.current_state t = .BLOCKED) :
    (fl t).left = none := by
  by_cases hf : fl t = .no
  · rw [hf]; rfl
  · exact Flight.left_of_entered ((h.tasks.flight t hf).2.mpr hs)

/-- A blocked task leaves the blocked list, if it is in it. -/
theorem leave_blocked (h : Sim K S call fl) (hc : K.created t = true)
    (hs : K.current_state t = .BLOCKED) :
    Linked (scheduler_remove_from_blocked_list K t).2.lists
      (scheduler_remove_from_blocked_list S t).2.lists K.wakeup_time
      (update (stateHome K call fl) t none) (eventHome K call fl) (fun t => fl t = .popped) := by
  have hl := h.not_left hs
  by_cases ht : (call t).timed = true
  · have hh : stateHome K call fl t = some (.blocked_task_list (K.core_id t)) := by
      simp [stateHome, hc, hs, ht, hl]
    rw [remove_from_blocked_timed_eq ((h.state_left t).trans hh)]
    obtain ⟨s, rfl⟩ := h.exists_over
    rw [remove_from_blocked_timed_eq (K := K.over s) ((h.state_right t).trans hh)]
    exact h.linked.blocked_unlink hh
  · have hh : stateHome K call fl t = none := by simp [stateHome, hc, hs, ht, hl]
    rw [remove_from_blocked_untimed_eq ((h.state_left t).trans hh),
      remove_from_blocked_untimed_eq ((h.state_right t).trans hh), ← hh, update_eq_self]
    exact h.linked

/-- A woken task is ready; it is in no wait list any more. -/
theorem land {eh : Tcb → Option ListRef} {p : Tcb → Prop} (h : Sim K S call fl)
    (K' : Kernel Links) (S' : Kernel Sequences) (hc : K.created t = true)
    (hl : Linked K'.lists S'.lists K.wakeup_time (update (stateHome K call fl) t none) eh p)
    (ho : S' = K'.over S'.lists)
    (hK : K' = { K with lists := K'.lists, wakeup_reason := K'.wakeup_reason })
    (heh : ∀ u, u ≠ t → eh u = eventHome K call fl u) (ht : eh t = none)
    (hp : ∀ u, p u ↔ fl u = .popped ∧ u ≠ t) :
    Sim (scheduler_add_to_ready_list K' t).2 (scheduler_add_to_ready_list S' t).2 call
      (update fl t .no) := by
  obtain ⟨lists', reason', rfl⟩ : ∃ l w, K' = { K with lists := l, wakeup_reason := w } :=
    ⟨_, _, hK⟩
  rw [ho]
  refine relink (hl.ready_push (c := K.core_id t) (p := K.priority t) (by simp)) rfl rfl
    (fun u => ?_) (fun u => ?_) (fun u => ?_) ?_ h.counter h.owners
  · by_cases hut : u = t
    · subst hut; simp [stateHome, scheduler_add_to_ready_list, hc]
    · simp [stateHome, scheduler_add_to_ready_list, hut]
  · by_cases hut : u = t
    · subst hut; simp [eventHome, scheduler_add_to_ready_list, eventList_of_ne, ht]
    · simp [eventHome, scheduler_add_to_ready_list, hut, heh u hut]
  · rw [hp]
    by_cases hut : u = t
    · subst hut; simp
    · simp [hut]
  · have h1 := h.tasks.set_flight (t := t) (f := .no) (fun e => absurd rfl e)
    exact h1.set_state hc (.inl rfl) (fun e => by cases e) (fun e => by simp at e)

/-- The end of a hand-off by `mutex_unlock`. -/
theorem rejoin (h : Sim K S call fl) (hf : fl t = .unlinked) :
    Sim (rejoin K t) (rejoin S t) call (update fl t .no) := by
  obtain ⟨hc, hs⟩ := h.in_flight (t := t) (by simp [hf]) (by simp [hf])
  refine h.land _ _ hc (h.leave_blocked hc hs) ?_ ?_ (fun u _ => rfl) ?_ (fun u => ?_)
  · rw [remove_from_blocked_fields S t, remove_from_blocked_fields K t, h.same]; rfl
  · rw [remove_from_blocked_fields K t]
  · simp [eventHome, eventList_flight, hf]
  · constructor
    · intro hu; exact ⟨hu, by rintro rfl; rw [hf] at hu; cases hu⟩
    · exact fun hu => hu.1

/-- The end of a wake-up by `semaphore_give`. -/
theorem semaphore_wake (h : Sim K S call fl) (hf : fl t = .popped) :
    Sim (semaphore_wake K t) (semaphore_wake S t) call (update fl t .no) := by
  obtain ⟨hc, hs⟩ := h.in_flight (t := t) (by simp [hf]) (by simp [hf])
  have hl := (h.leave_blocked hc hs).wait_clear (t := t) (fun u => fl u = .popped ∧ u ≠ t)
    (fun u => by by_cases hut : u = t <;> simp [hut, hf]) (by simp)
  refine h.land (take_unit K t) (take_unit S t) hc hl ?_ ?_ (fun u hu => ?_) ?_
    (fun u => Iff.rfl)
  · unfold take_unit
    rw [remove_from_blocked_fields S t, remove_from_blocked_fields K t, h.same]; rfl
  · unfold take_unit
    rw [remove_from_blocked_fields K t]
  · simp [hu]
  · simp

/-! ## The wait lists -/

/-- The item in a wait list that no task is entering is that of a blocked task whose call waits
there. -/
theorem wait_mem {l : ListRef} (hk : l.isWait = true) (h : Sim K S call fl)
    (hn : ∀ u, (fl u).entered ≠ some l) {x : ItemRef} (hx : x ∈ S.lists.list l) :
    x = .event_list_item x.owner ∧ K.created x.owner = true ∧
      K.current_state x.owner = .BLOCKED ∧ fl x.owner = .no ∧
      (call x.owner).waits_on = some l := by
  have hx' : x = .event_list_item x.owner := by
    have := h.linked.mem_kind hx
    rwa [if_pos hk] at this
  rw [hx', h.linked.mem_event] at hx
  obtain ⟨-, he⟩ := hx
  unfold eventHome eventList at he
  split at he
  · rename_i hf; exact absurd ((congrArg Flight.entered hf).trans he) (hn _)
  · rename_i hf; exact absurd ((congrArg Flight.entered hf).trans he) (hn _)
  · rename_i hc hs hf; exact ⟨hx', hc, hs, hf, he⟩
  · cases he

theorem walk_left (h : Sim K S call fl) (l : ListRef) :
    walk K.lists l MAX_TCBS = S.lists.list l := by
  have : walk K.lists l MAX_TCBS = (S.lists.list l).take MAX_TCBS :=
    h.linked.refines.walk (h.linked.length_le l)
  rw [this, List.take_of_length_le (h.linked.length_le l)]

theorem walk_right (h : Sim K S call fl) (l : ListRef) :
    walk S.lists l MAX_TCBS = S.lists.list l := List.take_of_length_le (h.linked.length_le l)

theorem scan_mem (priority : Tcb → TaskPriorityLevel) (rest : List ItemRef) :
    ∀ r : Tcb × TaskPriorityLevel,
      (rest.foldl (scan_step priority) r).1 ∈ r.1 :: rest.map ItemRef.owner := by
  induction rest with
  | nil => intro r; simp
  | cons x rest ih =>
    intro r
    have hx := ih (scan_step priority r x)
    have hr : (scan_step priority r x).1 = r.1 ∨ (scan_step priority r x).1 = x.owner := by
      unfold scan_step; split <;> simp
    simp only [List.foldl_cons, List.map_cons, List.mem_cons] at hx ⊢
    rcases hx with hx | hx
    · rcases hr with hr | hr <;> rw [hx, hr] <;> simp
    · exact .inr (.inr hx)

/-- The waiter `mutex_unlock` picks is in flight after the pop. -/
theorem pop_best {mtx : MutexId} (h : Sim K S call fl)
    (hne : S.lists.list (.mutex_blocked_list mtx) ≠ []) :
    ∃ t, (mutex_pop_best K mtx).1 = some t ∧ (mutex_pop_best S mtx).1 = some t ∧
      .event_list_item t ∈ S.lists.list (.mutex_blocked_list mtx) ∧
      Sim (mutex_pop_best K mtx).2 (mutex_pop_best S mtx).2 call (update fl t .unlinked) := by
  obtain ⟨first, rest, hlist⟩ := List.exists_cons_of_ne_nil hne
  have hleft := (h.walk_left _).trans hlist
  have hright := (h.walk_right _).trans hlist
  have hprio : S.priority = K.priority := by rw [h.same]; rfl
  unfold mutex_pop_best
  rw [hleft, hright, hprio]
  dsimp only
  generalize hr : rest.foldl (scan_step K.priority) (first.owner, TASK_PRIORITY_IDLE) = r
  have hmem : r.1 ∈ (S.lists.list (.mutex_blocked_list mtx)).map ItemRef.owner := by
    rw [hlist, ← hr]; exact scan_mem K.priority rest _
  obtain ⟨x, hx, hxr⟩ := List.mem_map.mp hmem
  obtain ⟨hxe, hc, hs, hf, hw⟩ := h.wait_mem rfl (fun u => (fl u).entered_ne_mutex mtx) hx
  rw [hxr] at hxe hc hs hf hw
  rw [hxe] at hx
  have he : eventHome K call fl r.1 = some (.mutex_blocked_list mtx) := by
    simp [eventHome, hc, hs, hf, hw]
  have hp : fl r.1 ≠ .popped := by simp [hf]
  refine ⟨r.1, rfl, rfl, hx, ?_⟩
  obtain ⟨s, rfl⟩ := h.exists_over
  refine relink (h.linked.wait_unlink hp he) rfl rfl (fun u => ?_) (fun u => ?_) (fun u => ?_)
    (h.tasks.set_flight fun _ => ⟨hc, by simp [hs]⟩) h.counter h.owners
  · by_cases hut : u = r.1
    · subst hut; simp [stateHome, hf]
    · simp [stateHome, hut]
  · by_cases hut : u = r.1
    · subst hut; simp [eventHome, eventList_flight]
    · simp [eventHome, hut]
  · by_cases hut : u = r.1
    · subst hut; simp [hf]
    · simp [hut]

/-- The pop takes the first waiter. -/
theorem pop_waiter_first {smph : SemaphoreId} (h : Sim K S call fl)
    (hne : S.lists.list (.semaphore_blocked_list smph) ≠ []) :
    ∃ t xs, S.lists.list (.semaphore_blocked_list smph) = .event_list_item t :: xs ∧
      head K.lists (ListRef.semaphore_blocked_list smph) = some (.event_list_item t) ∧
      head S.lists (ListRef.semaphore_blocked_list smph) = some (.event_list_item t) := by
  obtain ⟨x, xs, hlist⟩ := List.exists_cons_of_ne_nil hne
  have hx : x = .event_list_item x.owner := h.linked.mem_kind (x := x)
    (l := .semaphore_blocked_list smph) (by simp [hlist])
  have hright : head S.lists (ListRef.semaphore_blocked_list smph) = some x := by
    show (S.lists.list _).head? = _
    rw [hlist]; rfl
  rw [hx] at hlist hright
  exact ⟨x.owner, xs, hlist, (h.head_eq _).trans hright, hright⟩

/-- The first waiter of a semaphore is in flight after the pop. -/
theorem pop_waiter {smph : SemaphoreId} (h : Sim K S call fl)
    (hn : ∀ u, (fl u).entered ≠ some (.semaphore_blocked_list smph))
    (hne : S.lists.list (.semaphore_blocked_list smph) ≠ []) :
    ∃ t xs, (semaphore_pop_waiter K smph).1 = some t ∧ (semaphore_pop_waiter S smph).1 = some t ∧
      S.lists.list (.semaphore_blocked_list smph) = .event_list_item t :: xs ∧
      Sim (semaphore_pop_waiter K smph).2 (semaphore_pop_waiter S smph).2 call
        (update fl t .popped) := by
  obtain ⟨t, xs, hlist, hleft, hright⟩ := h.pop_waiter_first hne
  obtain ⟨-, hc, hs, hf, -⟩ := h.wait_mem rfl hn (x := .event_list_item t) (by rw [hlist]; simp)
  have hs : K.current_state t = .BLOCKED := hs
  have hf : fl t = .no := hf
  unfold semaphore_pop_waiter
  rw [hleft, hright]
  refine ⟨t, xs, rfl, rfl, hlist, ?_⟩
  obtain ⟨s, rfl⟩ := h.exists_over
  refine relink (h.linked.wait_pop rfl hlist) rfl rfl (fun u => ?_) (fun u => ?_) (fun u => ?_)
    (h.tasks.set_flight fun _ => ⟨hc, by simp [hs]⟩) h.counter h.owners
  · by_cases hut : u = t
    · subst hut; simp [stateHome, hf]
    · simp [stateHome, hut]
  · by_cases hut : u = t
    · subst hut; simp [eventHome, eventList_flight]
    · simp [eventHome, hut]
  · by_cases hut : u = t
    · subst hut; simp
    · simp [hut]

/-! ## `mutex_lock` and `mutex_unlock` -/

theorem boost_holder {mtx : MutexId} (h : Sim K S call fl)
    (hl : ∀ o, K.mutex_owner mtx = some o → K.priority o < K.inherited_priority mtx →
      (fl o).left = none) :
    Sim (mutex_boost_holder K mtx) (mutex_boost_holder S mtx) call fl := by
  obtain ⟨s, rfl⟩ := h.exists_over
  unfold mutex_boost_holder
  rw [show (K.over s).mutex_owner mtx = K.mutex_owner mtx from rfl]
  cases ho : K.mutex_owner mtx with
  | none => exact h
  | some o =>
    dsimp only
    by_cases hb : K.priority o < K.inherited_priority mtx
    · have hb' : (K.over s).priority o < (K.over s).inherited_priority mtx := hb
      rw [if_pos hb, if_pos hb']
      exact h.change_task_priority (h.owners mtx o ho) (hl o ho hb)
    · have hb' : ¬ (K.over s).priority o < (K.over s).inherited_priority mtx := hb
      rw [if_neg hb, if_neg hb']; exact h

theorem mutex_inherit {mtx : MutexId} (h : Sim K S call fl)
    (hl : ∀ o, K.boosts mtx t o → (fl o).left = none) :
    Sim (mutex_inherit K mtx t) (mutex_inherit S mtx t) call fl := by
  obtain ⟨s, rfl⟩ := h.exists_over
  unfold Rpitos.mutex_inherit
  by_cases hi : K.inheritance_enabled mtx = true
  · rw [if_pos hi, if_pos (show (K.over s).inheritance_enabled mtx = true from hi)]
    refine Sim.boost_holder ⟨rfl, h.linked, h.tasks, h.counter, h.owners⟩ fun o ho hb => ?_
    refine hl o ⟨hi, ho, ?_⟩
    dsimp only at hb
    split at hb
    · exact .inr (by simpa using hb)
    · exact .inl hb
  · rw [if_neg hi, if_neg (show ¬ (K.over s).inheritance_enabled mtx = true from hi)]
    exact h

theorem restore_holder (h : Sim K S call fl) (mtx : MutexId) (holder : Option Tcb)
    (hc : ∀ t, holder = some t → K.created t = true) (hl : ∀ t, holder = some t → (fl t).left = none) :
    Sim (mutex_restore_holder K mtx holder) (mutex_restore_holder S mtx holder) call fl := by
  obtain ⟨s, rfl⟩ := h.exists_over
  unfold mutex_restore_holder
  cases holder with
  | none => exact h
  | some o =>
    dsimp only
    by_cases hi : K.inheritance_enabled mtx = true
    · rw [if_pos hi, if_pos (show (K.over s).inheritance_enabled mtx = true from hi)]
      by_cases hb : update K.mutexes_held o (u32 (K.mutexes_held o + (2 ^ 32 - 1))) o = 0 ∧
          K.priority o ≠ K.base_priority o
      · rw [if_pos hb, if_pos (show update (K.over s).mutexes_held o
          (u32 ((K.over s).mutexes_held o + (2 ^ 32 - 1))) o = 0 ∧
          (K.over s).priority o ≠ (K.over s).base_priority o from hb)]
        exact change_task_priority ⟨rfl, h.linked, h.tasks, h.counter, h.owners⟩ (hc o rfl)
          (hl o rfl)
      · rw [if_neg hb, if_neg (show ¬ (update (K.over s).mutexes_held o
          (u32 ((K.over s).mutexes_held o + (2 ^ 32 - 1))) o = 0 ∧
          (K.over s).priority o ≠ (K.over s).base_priority o) from hb)]
        exact ⟨rfl, h.linked, h.tasks, h.counter, h.owners⟩
    · rw [if_neg hi, if_neg (show ¬ (K.over s).inheritance_enabled mtx = true from hi)]
      exact h

theorem boost_owner {mtx : MutexId} (h : Sim K S call fl) (hc : K.created t = true)
    (hl : (fl t).left = none) :
    Sim (mutex_boost_owner K mtx t) (mutex_boost_owner S mtx t) call fl := by
  obtain ⟨s, rfl⟩ := h.exists_over
  unfold mutex_boost_owner
  by_cases hi : K.inheritance_enabled mtx = true
  · rw [if_pos hi, if_pos (show (K.over s).inheritance_enabled mtx = true from hi)]
    by_cases hb : K.priority t < K.inherited_priority mtx
    · rw [if_pos hb,
        if_pos (show (K.over s).priority t < (K.over s).inherited_priority mtx from hb)]
      exact change_task_priority ⟨rfl, h.linked, h.tasks, h.counter, h.owners⟩ hc hl
    · rw [if_neg hb,
        if_neg (show ¬ (K.over s).priority t < (K.over s).inherited_priority mtx from hb)]
      exact ⟨rfl, h.linked, h.tasks, h.counter, h.owners⟩
  · rw [if_neg hi, if_neg (show ¬ (K.over s).inheritance_enabled mtx = true from hi)]
    exact h

/-- The owner of one mutex changes. -/
theorem set_owner {st : MutexId → MutexState} {prio : MutexId → TaskPriorityLevel}
    {held : Tcb → Nat} (h : Sim K S call fl) (mtx : MutexId) (o : Option Tcb)
    (hc : ∀ t, o = some t → K.created t = true) :
    Sim { K with mutex_owner := update K.mutex_owner mtx o, mutex_state := st,
                 inherited_priority := prio, mutexes_held := held }
      { S with mutex_owner := update S.mutex_owner mtx o, mutex_state := st,
               inherited_priority := prio, mutexes_held := held } call fl := by
  obtain ⟨s, rfl⟩ := h.exists_over
  refine ⟨rfl, h.linked, h.tasks, h.counter, fun m t hm => ?_⟩
  by_cases hmm : m = mtx
  · subst hmm; exact hc t (by simpa using hm)
  · exact h.owners m t (by simpa [hmm] using hm)

theorem transfer (h : Sim K S call fl) (mtx : MutexId) (hf : fl t = .unlinked) :
    Sim (mutex_transfer K mtx t) (mutex_transfer S mtx t) call (update fl t .no) := by
  obtain ⟨hc, -⟩ := h.tasks.flight t (by simp [hf])
  obtain ⟨s, rfl⟩ := h.exists_over
  exact ((h.set_owner mtx (some t) (by rintro u ⟨⟩; exact hc)).boost_owner hc
    (by rw [hf]; rfl)).rejoin hf

theorem release {mtx : MutexId} (h : Sim K S call fl)
    (hl : ∀ o, K.mutex_owner mtx = some o → (fl o).left = none) :
    Sim (mutex_release K mtx) (mutex_release S mtx) call fl := by
  obtain ⟨s, rfl⟩ := h.exists_over
  exact (h.set_owner mtx none (by simp)).restore_holder
    mtx (K.mutex_owner mtx) (fun t ht => h.owners mtx t ht) hl

theorem update_update_self {α β : Type} [DecidableEq α] (f : α → β) (a : α) (x y : β)
    (h : f a = y) : update (update f a x) a y = f := by
  rw [update_idem, ← h, update_eq_self]

theorem num_items_zero (h : Sim K S call fl) (l : ListRef) :
    num_items S.lists l = 0 ↔ S.lists.list l = [] := by
  rw [← h.num_items_eq, h.linked.num_items_eq, List.length_eq_zero_iff]

theorem mutex_unlock (h : Sim K S call fl) (mtx : MutexId)
    (ho : ∀ o, K.mutex_owner mtx = some o → (fl o).left = none) :
    (mutex_unlock K mtx).1 = (mutex_unlock S mtx).1 ∧
      Sim (mutex_unlock K mtx).2 (mutex_unlock S mtx).2 call fl := by
  have hst : S.mutex_state = K.mutex_state := by rw [h.same]; rfl
  have hown : S.mutex_owner = K.mutex_owner := by rw [h.same]; rfl
  unfold Rpitos.mutex_unlock
  rw [hst, hown, h.num_items_eq]
  by_cases hl : K.mutex_state mtx = .LOCKED
  · simp only [hl, if_true]
    by_cases hn : num_items S.lists (ListRef.mutex_blocked_list mtx) = 0
    · simp only [hn, if_true]; exact ⟨trivial, h.release ho⟩
    · simp only [hn, if_false]
      obtain ⟨t, h1, h2, hm, hsim⟩ := h.pop_best (mt (h.num_items_zero _).mpr hn)
      obtain ⟨-, -, -, hf, -⟩ := h.wait_mem rfl (fun u => (fl u).entered_ne_mutex mtx) hm
      rw [show mutex_pop_best K mtx = (some t, (mutex_pop_best K mtx).2) from Prod.ext h1 rfl,
        show mutex_pop_best S mtx = (some t, (mutex_pop_best S mtx).2) from Prod.ext h2 rfl]
      refine ⟨rfl, ?_⟩
      have hr := hsim.restore_holder mtx (K.mutex_owner mtx) (fun u hu => ?_) (fun u hu => ?_)
      · have := hr.transfer (t := t) mtx (by simp)
        rwa [update_update_self fl t _ _ hf] at this
      · rw [mutex_pop_best_fields K mtx]; exact h.owners mtx u hu
      · by_cases hut : u = t
        · subst hut; simp
        · rw [update_of_ne hut]; exact ho u hu
  · simp only [hl, if_false]; exact ⟨trivial, h⟩

theorem mutex_lock (h : Sim K S call fl) (mtx : MutexId) (timeout_ms : Int)
    (hc : K.created t = true) (hs : K.current_state t ≠ .BLOCKED) (ht : t.is_task = true)
    (he : (fl t).entered = none) (hl : ∀ o, K.lock_boosts mtx t timeout_ms o → (fl o).left = none) :
    (mutex_lock K mtx t timeout_ms).1 = (mutex_lock S mtx t timeout_ms).1 ∧
      Sim (mutex_lock K mtx t timeout_ms).2 (mutex_lock S mtx t timeout_ms).2
        (if (mutex_lock K mtx t timeout_ms).1 = none then
          update call t (.mutex_lock mtx timeout_ms) else call) fl := by
  obtain ⟨s, rfl⟩ := h.exists_over
  by_cases hu : K.mutex_state mtx = .UNLOCKED
  · unfold Rpitos.mutex_lock
    rw [if_pos hu, if_pos (show (K.over s).mutex_state mtx = .UNLOCKED from hu)]
    exact ⟨rfl, h.set_owner mtx (some t) (by rintro u ⟨⟩; exact hc)⟩
  · by_cases hto : timeout_ms = 0
    · unfold Rpitos.mutex_lock
      rw [if_neg hu, if_pos hto,
        if_neg (show ¬ (K.over s).mutex_state mtx = .UNLOCKED from hu), if_pos hto]
      exact ⟨rfl, h⟩
    · rw [mutex_lock_blocks_eq hu hto, mutex_lock_blocks_eq (K := K.over s) hu hto]
      refine ⟨rfl, ?_⟩
      simp only [if_true]
      refine (h.enter_wait hc hs ht he rfl rfl rfl).mutex_inherit fun o hb => hl o ⟨hu, hto, ?_⟩
      obtain ⟨lists, wake, hw⟩ := enter_wait_effect K (.mutex_blocked_list mtx) t timeout_ms
        (u64 (K.tick_count t.home + timeout_ms.toNat))
      rwa [hw] at hb

/-! ## `semaphore_take` and `semaphore_give` -/

theorem semaphore_take (h : Sim K S call fl) (smph : SemaphoreId) (timeout_ms : Int)
    (deadline : Nat) (hc : K.created t = true) (hs : K.current_state t ≠ .BLOCKED)
    (ht : t.is_task = true) (he : (fl t).entered = none) :
    (semaphore_take K smph t timeout_ms deadline).1 =
        (semaphore_take S smph t timeout_ms deadline).1 ∧
      Sim (semaphore_take K smph t timeout_ms deadline).2
        (semaphore_take S smph t timeout_ms deadline).2
        (if (semaphore_take K smph t timeout_ms deadline).1 = none then
          update call t (.semaphore_wait smph timeout_ms deadline) else update call t .own) fl := by
  obtain ⟨s, rfl⟩ := h.exists_over
  have hown : Sim K (K.over s) (update call t .own) fl :=
    h.set_call hc hs ht (Flight.left_of_entered he)
  by_cases hcount : 0 < K.count smph
  · unfold Rpitos.semaphore_take
    rw [if_pos hcount, if_pos (show 0 < (K.over s).count smph from hcount)]
    exact ⟨rfl, ⟨rfl, hown.linked, hown.tasks, h.counter, h.owners⟩⟩
  · by_cases hto : timeout_ms = 0
    · unfold Rpitos.semaphore_take
      rw [if_neg hcount, if_neg (show ¬ 0 < (K.over s).count smph from hcount), if_pos hto,
        if_pos hto]
      exact ⟨rfl, hown⟩
    · by_cases hd : 0 < timeout_ms ∧ deadline ≤ K.tick_count t.home
      · unfold Rpitos.semaphore_take
        rw [if_neg hcount, if_neg (show ¬ 0 < (K.over s).count smph from hcount), if_neg hto,
          if_neg hto, if_pos hd,
          if_pos (show 0 < timeout_ms ∧ deadline ≤ (K.over s).tick_count t.home from hd)]
        exact ⟨rfl, hown⟩
      · rw [semaphore_take_blocks_eq hcount hto hd,
          semaphore_take_blocks_eq (K := K.over s) hcount hto hd]
        exact ⟨rfl, by simpa using h.enter_wait hc hs ht he rfl rfl rfl⟩

theorem semaphore_give (h : Sim K S call fl) (smph : SemaphoreId)
    (hno : ∀ u, (fl u).entered ≠ some (.semaphore_blocked_list smph)) :
    (semaphore_give K smph).1 = (semaphore_give S smph).1 ∧
      (semaphore_give K smph).2.1 = (semaphore_give S smph).2.1 ∧
      Sim (semaphore_give K smph).2.2 (semaphore_give S smph).2.2 call fl := by
  unfold Rpitos.semaphore_give
  rw [h.num_items_eq]
  by_cases hn : 0 < num_items S.lists (ListRef.semaphore_blocked_list smph)
  · obtain ⟨t, xs, h1, h2, hlist, hsim⟩ := h.pop_waiter hno ((h.num_items_pos _).mp hn)
    obtain ⟨-, -, -, hf, -⟩ := h.wait_mem rfl hno (x := .event_list_item t) (by rw [hlist]; simp)
    simp only [hn, if_true]
    rw [show semaphore_pop_waiter K smph = (some t, (semaphore_pop_waiter K smph).2) from
        Prod.ext h1 rfl,
      show semaphore_pop_waiter S smph = (some t, (semaphore_pop_waiter S smph).2) from
        Prod.ext h2 rfl]
    refine ⟨rfl, rfl, ?_⟩
    have := hsim.semaphore_wake (t := t) (by simp)
    rwa [update_update_self fl t _ _ hf] at this
  · obtain ⟨s, rfl⟩ := h.exists_over
    simp only [hn, if_false, semaphore_count_up]
    by_cases hc : K.count smph < K.max_count smph
    · rw [if_pos hc, if_pos (show (K.over s).count smph < (K.over s).max_count smph from hc)]
      exact ⟨rfl, trivial, ⟨rfl, h.linked, h.tasks, h.counter, h.owners⟩⟩
    · rw [if_neg hc, if_neg (show ¬ (K.over s).count smph < (K.over s).max_count smph from hc)]
      exact ⟨rfl, trivial, h⟩

end Sim
end Rpitos
