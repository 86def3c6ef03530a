import Rpitos.Kernel.Invariant

/-!
# Kernel.SchedulerSim

The functions of `Kernel.Scheduler` keep `Sim`. For each function there is an equation that says
which list operations it makes when the task is where `Sim` says; the operations are those of
`Kernel.Linked`.
-/

namespace Rpitos

open Function ListOps StatusCode

/-! ## The task table -/

namespace TaskTable

variable {core_id : Tcb → CoreId} {created : Tcb → Bool} {st : Tcb → TaskState}
  {cur : CoreId → Option Tcb} {call : Tcb → Call} {fl : Tcb → Flight} {t : Tcb}

/-- One task changes its state and its call. -/
theorem set_task {x : TaskState} {k : Call} (h : TaskTable core_id created st cur call fl)
    (hc : created t = true) (hx : x = .READY ∨ x = .RUNNING ∨ x = .BLOCKED)
    (hb : x = .BLOCKED → k.spins = true) (hi : t.is_task = true ∨ k = call t)
    (hf : fl t ≠ .no → ((fl t).entered = none ↔ x = .BLOCKED)) :
    TaskTable core_id created (update st t x) cur (update call t k) fl where
  home := h.home
  state u hu := by
    by_cases hut : u = t
    · subst hut; simpa using hx
    · simpa [hut] using h.state u hu
  blocked u hu hb' := by
    by_cases hut : u = t
    · subst hut; simp only [update_self] at hb' ⊢; exact hb hb'
    · simp only [update_of_ne hut] at hb' ⊢; exact h.blocked u hu hb'
  fresh u hu := by
    have hut : u ≠ t := by rintro rfl; rw [hc] at hu; cases hu
    simpa [hut] using h.fresh u hu
  idle c := by
    by_cases hut : .idle c = t
    · subst hut
      rcases hi with hi | rfl
      · cases hi
      · simpa using h.idle c
    · simpa [hut] using h.idle c
  flight u hu := by
    refine ⟨(h.flight u hu).1, ?_⟩
    by_cases hut : u = t
    · subst hut; simp only [update_self]; exact hf hu
    · simpa [hut] using (h.flight u hu).2
  current := h.current

theorem set_state {x : TaskState} (h : TaskTable core_id created st cur call fl)
    (hc : created t = true) (hx : x = .READY ∨ x = .RUNNING ∨ x = .BLOCKED)
    (hb : x = .BLOCKED → (call t).spins = true)
    (hf : fl t ≠ .no → ((fl t).entered = none ↔ x = .BLOCKED)) :
    TaskTable core_id created (update st t x) cur call fl := by
  have := h.set_task hc hx hb (.inr rfl) hf
  rwa [update_eq_self] at this

/-- The current task of one core changes. -/
theorem set_current {c : CoreId} {o : Option Tcb} (h : TaskTable core_id created st cur call fl)
    (ho : ∀ t, o = some t → created t = true ∧ t.home = c) :
    TaskTable core_id created st (update cur c o) call fl := by
  refine { h with current := fun c' u hu => ?_ }
  by_cases hc : c' = c
  · subst hc; exact ho u (by simpa using hu)
  · exact h.current c' u (by simpa [hc] using hu)

/-- A task that does not block keeps its flight. -/
theorem still {x : TaskState} (h : TaskTable core_id created st cur call fl)
    (hs : st t ≠ .BLOCKED) (hx : x ≠ .BLOCKED) (hf : fl t ≠ .no) :
    (fl t).entered = none ↔ x = .BLOCKED := by
  rw [(h.flight t hf).2]
  exact iff_of_false hs hx

/-- A task leaves flight, or enters it. -/
theorem set_flight {f : Flight} (h : TaskTable core_id created st cur call fl)
    (hf : f ≠ .no → created t = true ∧ (f.entered = none ↔ st t = .BLOCKED)) :
    TaskTable core_id created st cur call (update fl t f) := by
  refine { h with flight := fun u hu => ?_ }
  by_cases hut : u = t
  · subst hut; rw [update_self] at hu ⊢; exact hf hu
  · rw [update_of_ne hut] at hu ⊢; exact h.flight u hu

/-- A new task enters the table. -/
theorem add {created' : Tcb → Bool} (h : TaskTable core_id created st cur call fl)
    (hc : created t = false) (hf : fl t = .no) (hcall : call t = .own)
    (hc' : ∀ u, created' u = if u = t then true else created u) :
    TaskTable (update core_id t t.home) created' (update st t .READY) cur call fl where
  home u hu := by
    by_cases hut : u = t
    · subst hut; simp
    · simpa [hut] using h.home u (by simpa [hc', hut] using hu)
  state u hu := by
    by_cases hut : u = t
    · subst hut; simp
    · simpa [hut] using h.state u (by simpa [hc', hut] using hu)
  blocked u hu hb := by
    by_cases hut : u = t
    · subst hut; simp at hb
    · exact h.blocked u (by simpa [hc', hut] using hu) (by simpa [hut] using hb)
  fresh u hu := by
    by_cases hut : u = t
    · subst hut; exact hcall
    · exact h.fresh u (by simpa [hc', hut] using hu)
  idle := h.idle
  flight u hu := by
    have hut : u ≠ t := by rintro rfl; exact hu hf
    simpa [hc', hut] using h.flight u hu
  current c u hu := by
    obtain ⟨h1, h2⟩ := h.current c u hu
    refine ⟨?_, h2⟩
    rw [hc']; split
    · rfl
    · exact h1

end TaskTable

section Equations

variable {L : Type} [ListOps L ItemRef ListRef] {K : Kernel L} {t : Tcb}

theorem scheduler_remove_from_ready_list_eq
    (hc : container K.lists (ItemRef.state_list_item t) =
      some (.ready_list (K.core_id t) (K.priority t))) :
    scheduler_remove_from_ready_list K t = (E_OK, { K with
      lists := unlinkIndexed K.lists (.ready_list (K.core_id t) (K.priority t))
        (.state_list_item t) }) := by
  unfold scheduler_remove_from_ready_list
  exact if_pos hc

theorem block_until_eq {w : Nat}
    (hc : container K.lists (ItemRef.state_list_item t) =
      some (.ready_list (K.core_id t) (K.priority t))) :
    block_until K t w = { K with
      lists := insertSorted
        (unlinkIndexed K.lists (.ready_list (K.core_id t) (K.priority t)) (.state_list_item t))
        (.blocked_task_list (K.core_id t)) (fun x => update K.wakeup_time t w x.owner) w MAX_TCBS
        (.state_list_item t)
      wakeup_time := update K.wakeup_time t w
      current_state := update K.current_state t .BLOCKED } := by
  unfold block_until
  rw [scheduler_remove_from_ready_list_eq hc]
  rfl

theorem change_priority_ready_eq {p : TaskPriorityLevel}
    (hs : K.current_state t = .READY ∨ K.current_state t = .RUNNING)
    (hc : container K.lists (ItemRef.state_list_item t) =
      some (.ready_list (K.core_id t) (K.priority t))) :
    scheduler_change_task_priority K t p = { K with
      lists := pushBackIndexed
        (unlinkIndexed K.lists (.ready_list (K.core_id t) (K.priority t)) (.state_list_item t))
        (.ready_list (K.core_id t) p) (.state_list_item t)
      priority := update K.priority t p } := by
  unfold scheduler_change_task_priority
  simp only [hs, if_true, hc, scheduler_add_to_ready_list, update_self, update_idem, update_eq_self]

theorem change_priority_blocked_eq {p : TaskPriorityLevel} (hs : K.current_state t = .BLOCKED) :
    scheduler_change_task_priority K t p = { K with priority := update K.priority t p } := by
  unfold scheduler_change_task_priority
  simp [hs]

/-- A timed wait of no list but the blocked list. -/
theorem expire_task_delayed_eq
    (hc : container K.lists (ItemRef.state_list_item t) = some (.blocked_task_list (K.core_id t)))
    (he : container (unlink K.lists (.blocked_task_list (K.core_id t)) (.state_list_item t))
      (ItemRef.event_list_item t) = none) :
    expire_task K t = { K with
      lists := pushBackIndexed
        (unlink K.lists (.blocked_task_list (K.core_id t)) (.state_list_item t))
        (.ready_list (K.core_id t) (K.priority t)) (.state_list_item t)
      current_state := update K.current_state t .READY } := by
  unfold expire_task scheduler_remove_from_blocked_list
  simp only [hc, if_true, he]
  rfl

/-- A timed wait on the list `l` too. -/
theorem expire_task_waiting_eq {l : ListRef}
    (hc : container K.lists (ItemRef.state_list_item t) = some (.blocked_task_list (K.core_id t)))
    (he : container (unlink K.lists (.blocked_task_list (K.core_id t)) (.state_list_item t))
      (ItemRef.event_list_item t) = some l) :
    expire_task K t = { K with
      lists := pushBackIndexed
        (unlink (unlink K.lists (.blocked_task_list (K.core_id t)) (.state_list_item t)) l
          (.event_list_item t))
        (.ready_list (K.core_id t) (K.priority t)) (.state_list_item t)
      current_state := update K.current_state t .READY } := by
  unfold expire_task scheduler_remove_from_blocked_list
  simp only [hc, if_true, he]
  rfl

theorem task_create_full {c : CoreId} {d p : Nat} (hn : ¬ K.task_counter c < MAX_NUM_TASKS) :
    task_create K c d p = (E_RESOURCE_EXHAUSTED, none, K) := by
  unfold task_create
  rw [dif_neg hn]

end Equations

namespace Sim

variable {K : Kernel Links} {S : Kernel Sequences} {call : Tcb → Call} {fl : Tcb → Flight}
  {t : Tcb} {c : CoreId}

theorem block_until {w : Nat} (h : Sim K S call fl) (hc : K.created t = true)
    (hs : K.current_state t ≠ .BLOCKED) (ht : t.is_task = true) (he : (fl t).entered = none) :
    Sim (block_until K t w) (block_until S t w) (update call t .delayed) fl := by
  have hf := h.no_flight hs he
  have hh := h.ready_home hc hs (by simp [hf])
  rw [block_until_eq ((h.state_left t).trans hh)]
  obtain ⟨s, rfl⟩ := h.exists_over
  rw [block_until_eq ((h.state_right t).trans hh)]
  refine relink ((h.linked.ready_unlink hh).blocked_insert (by simp)) rfl rfl (fun u => ?_)
    (fun u => ?_) (fun u => Iff.rfl) ?_ h.counter h.owners
  · by_cases hut : u = t
    · subst hut; simp [stateHome, hc, hf, Call.timed]
    · simp [stateHome, hut]
  · by_cases hut : u = t
    · subst hut
      simp [eventHome, hc, hf, Call.waits_on, eventList_of_ne hs]
    · simp [eventHome, hut]
  · exact h.tasks.set_task hc (.inr (.inr rfl)) (fun _ => rfl) (.inl ht) (fun e => absurd hf e)

theorem change_task_priority {p : TaskPriorityLevel} (h : Sim K S call fl)
    (hc : K.created t = true) (hl : (fl t).left = none) :
    Sim (scheduler_change_task_priority K t p) (scheduler_change_task_priority S t p) call fl := by
  by_cases hs : K.current_state t = .BLOCKED
  · rw [change_priority_blocked_eq hs]
    obtain ⟨s, rfl⟩ := h.exists_over
    rw [change_priority_blocked_eq (K := K.over s) hs]
    refine relink h.linked rfl rfl (fun u => ?_) (fun u => rfl) (fun u => Iff.rfl) h.tasks h.counter h.owners
    by_cases hut : u = t
    · subst hut; simp [stateHome, hc, hs, hl]
    · simp [stateHome, hut]
  · have hh := h.ready_home hc hs hl
    have hs' := h.ready_or_running hc hs
    rw [change_priority_ready_eq hs' ((h.state_left t).trans hh)]
    obtain ⟨s, rfl⟩ := h.exists_over
    rw [change_priority_ready_eq (K := K.over s) hs' ((h.state_right t).trans hh)]
    refine relink ((h.linked.ready_unlink hh).ready_push (by simp)) rfl rfl (fun u => ?_)
      (fun u => rfl) (fun u => Iff.rfl) h.tasks h.counter h.owners
    by_cases hut : u = t
    · subst hut; rcases hs' with e | e <;> simp [stateHome, hc, hl, e]
    · simp [stateHome, hut]

/-! ## The tick -/

/-- The item in a blocked list is that of a task of that core. Unless the task is about to block, it
is blocked and has a wake-up time. -/
theorem blocked_mem (h : Sim K S call fl) {x : ItemRef}
    (hx : x ∈ S.lists.list (.blocked_task_list c)) :
    x = .state_list_item x.owner ∧ K.created x.owner = true ∧ x.owner.home = c ∧
      ((fl x.owner).left = none →
        K.current_state x.owner = .BLOCKED ∧ (call x.owner).timed = true) := by
  have hk : x = .state_list_item x.owner := by simpa using h.linked.mem_kind hx
  rw [hk, h.linked.mem_state] at hx
  unfold stateHome at hx
  cases hl : (fl x.owner).left with
  | some timed =>
    rw [hl] at hx
    have hcore : K.core_id x.owner = c := by cases timed <;> cases hx; rfl
    have hc := (h.tasks.flight x.owner (fun e => by rw [e] at hl; cases hl)).1
    exact ⟨hk, hc, by rw [← h.tasks.home _ hc, hcore], fun e => by cases e⟩
  | none =>
    rw [hl] at hx
    unfold stateList at hx
    dsimp only at hx
    split at hx
    · cases hx
    · cases hx
    · rename_i hc hs
      split at hx
      · rename_i ht
        have hcore : K.core_id x.owner = c := by cases hx; rfl
        exact ⟨hk, hc, by rw [← h.tasks.home _ hc, hcore], fun _ => ⟨hs, ht⟩⟩
      · cases hx
    · cases hx

theorem expire_task (h : Sim K S call fl) (hc : K.created t = true)
    (hs : K.current_state t = .BLOCKED) (ht : (call t).timed = true) (hf : fl t = .no) :
    Sim (expire_task K t) (expire_task S t) call fl := by
  have hh : stateHome K call fl t = some (.blocked_task_list (K.core_id t)) := by
    simp [stateHome, hc, hs, ht, hf]
  have hl := h.linked.blocked_unlink hh
  have hp : fl t ≠ .popped := by simp [hf]
  have he : eventHome K call fl t = (call t).waits_on := by simp [eventHome, hc, hs, hf]
  have hleft := (congrFun hl.refines.container (.event_list_item t)).trans (hl.event t hp)
  have hright := hl.event t hp
  have hstate : ∀ u, stateHome { K with current_state := update K.current_state t .READY } call fl u =
      update (update (stateHome K call fl) t none) t
        (some (.ready_list (K.core_id t) (K.priority t))) u := by
    intro u
    by_cases hut : u = t
    · subst hut
      rw [update_self]
      unfold stateHome
      rw [hf]
      show stateList (K.created u) (update K.current_state u .READY u) _ _ _ = _
      rw [hc, update_self]; rfl
    · simp [stateHome, hut]
  have htab := h.tasks.set_state hc (.inl rfl) (fun e => by cases e) (fun e => absurd hf e)
  cases hw : (call t).waits_on with
  | none =>
    rw [he, hw] at hleft hright
    rw [expire_task_delayed_eq ((h.state_left t).trans hh) hleft]
    obtain ⟨s, rfl⟩ := h.exists_over
    rw [expire_task_delayed_eq ((h.state_right t).trans hh) hright]
    refine relink (hl.ready_push (by simp)) rfl rfl hstate (fun u => ?_) (fun u => Iff.rfl) htab
      h.counter h.owners
    by_cases hut : u = t
    · subst hut; simp [eventHome, eventList_of_ne, hc, hs, hf, hw]
    · simp [eventHome, hut]
  | some l =>
    rw [he, hw] at hleft hright
    rw [expire_task_waiting_eq ((h.state_left t).trans hh) hleft]
    obtain ⟨s, rfl⟩ := h.exists_over
    rw [expire_task_waiting_eq ((h.state_right t).trans hh) hright]
    refine relink ((hl.wait_unlink hp (he.trans hw)).ready_push (by simp)) rfl rfl hstate
      (fun u => ?_) (fun u => Iff.rfl) htab h.counter h.owners
    by_cases hut : u = t
    · subst hut; simp [eventHome, eventList_of_ne, hf]
    · simp [eventHome, hut]

theorem head_eq (h : Sim K S call fl) (l : ListRef) : head K.lists l = head S.lists l :=
  h.linked.refines.head l

theorem num_items_eq (h : Sim K S call fl) (l : ListRef) :
    num_items K.lists l = num_items S.lists l := h.linked.refines.num_items l

theorem index_eq (h : Sim K S call fl) (l : ListRef) : index K.lists l = index S.lists l :=
  congrFun h.linked.refines.index l

theorem num_items_pos (h : Sim K S call fl) (l : ListRef) :
    0 < num_items S.lists l ↔ S.lists.list l ≠ [] := by
  rw [← h.num_items_eq, h.linked.num_items_eq, List.length_pos_iff]

/-- No task in flight is due on core `c`. -/
def NoneDue (K : Kernel Links) (call : Tcb → Call) (fl : Tcb → Flight) (c : CoreId) : Prop :=
  ∀ t, fl t ≠ .no → t.home = c → (fl t).left = none ∧
    ((call t).timed = true → K.tick_count c < K.wakeup_time t)

theorem expire_head (h : Sim K S call fl) (hd : NoneDue K call fl c) {x : ItemRef}
    (hx : head S.lists (.blocked_task_list c) = some x) (hw : K.wakeup_time x.owner ≤ K.tick_count c) :
    Sim (Rpitos.expire_task K x.owner) (Rpitos.expire_task S x.owner) call fl := by
  obtain ⟨-, hc, hhome, hb⟩ := h.blocked_mem (List.mem_of_mem_head? hx)
  have hl : (fl x.owner).left = none := by
    by_cases hf : fl x.owner = .no
    · rw [hf]; rfl
    · exact (hd x.owner hf hhome).1
  obtain ⟨hs, ht⟩ := hb hl
  refine h.expire_task hc hs ht ?_
  by_contra hf
  have := (hd x.owner hf hhome).2 ht
  omega

end Sim

section Loop

variable {L : Type} [ListOps L ItemRef ListRef]

/-- What one pass of the expiry loop does not touch. -/
theorem expire_task_fields (K : Kernel L) (t : Tcb) :
    expire_task K t = { K with
      lists := (expire_task K t).lists
      current_state := update K.current_state t .READY } := by
  unfold expire_task scheduler_remove_from_blocked_list
  dsimp only
  split <;> split <;> rfl

end Loop

namespace Sim

variable {K : Kernel Links} {S : Kernel Sequences} {call : Tcb → Call} {fl : Tcb → Flight}
  {t : Tcb} {c : CoreId} {l : ListRef}

theorem NoneDue.expire_task (hd : NoneDue K call fl c) :
    NoneDue (Rpitos.expire_task K t) call fl c := by
  intro u hf hu
  rw [expire_task_fields]
  exact hd u hf hu

theorem fields (h : Sim K S call fl) :
    S.wakeup_time = K.wakeup_time ∧ S.tick_count = K.tick_count := by
  rw [h.same]; exact ⟨rfl, rfl⟩

/-- The loop runs alike on both kernels, and leaves with the first task not due. -/
theorem expire_loop (c : CoreId) : ∀ (n : Nat) {K : Kernel Links} {S : Kernel Sequences},
    Sim K S call fl → NoneDue K call fl c →
      (expire_loop c n K).1 = (expire_loop c n S).1 ∧
        Sim (expire_loop c n K).2 (expire_loop c n S).2 call fl := by
  intro n
  induction n with
  | zero => intro K S h _; exact ⟨rfl, h⟩
  | succ n ih =>
    intro K S h hd
    obtain ⟨hwake, htick⟩ := h.fields
    unfold Rpitos.expire_loop
    rw [h.head_eq, hwake, htick]
    cases hx : head S.lists (.blocked_task_list c) with
    | none => exact ⟨rfl, h⟩
    | some x =>
      by_cases hw : K.wakeup_time x.owner ≤ K.tick_count c
      · simp only [hw, if_true]
        have := ih (h.expire_head hd hx hw) hd.expire_task
        exact ⟨congrArg _ this.1, this.2⟩
      · simp only [hw, if_false]; exact ⟨trivial, h⟩

/-- No flight is due after the tick count moves. -/
def NoneDueNext (K : Kernel Links) (call : Tcb → Call) (fl : Tcb → Flight) (c : CoreId) : Prop :=
  ∀ t, fl t ≠ .no → t.home = c → (fl t).left = none ∧
    ((call t).timed = true → u64 (K.tick_count c + 1) < K.wakeup_time t)

theorem timer_tick_handler (h : Sim K S call fl) (hd : NoneDueNext K call fl c) :
    (timer_tick_handler K c).1 = (timer_tick_handler S c).1 ∧
      Sim (timer_tick_handler K c).2 (timer_tick_handler S c).2 call fl := by
  obtain ⟨s, rfl⟩ := h.exists_over
  have h' : Sim (next_tick K c) (next_tick (K.over s) c) call fl :=
    ⟨rfl, h.linked, h.tasks, h.counter, h.owners⟩
  refine Sim.expire_loop c MAX_TCBS h' fun t hf hu => ?_
  simpa [next_tick] using hd t hf hu

theorem end_quantum (h : Sim K S call fl) (hl : ∀ t, t.home = c → (fl t).left = none) :
    Sim (end_quantum K c) (end_quantum S c) call fl := by
  obtain ⟨s, rfl⟩ := h.exists_over
  unfold Rpitos.end_quantum
  cases hp : K.p_task_control_block c with
  | none =>
    have hS : (K.over s).p_task_control_block c = none := hp
    simpa only [hp, hS] using h
  | some t =>
    have hS : (K.over s).p_task_control_block c = some t := hp
    simp only [hS]
    show Sim (if K.current_state t = .RUNNING then _ else _)
      (if K.current_state t = .RUNNING then _ else _) call fl
    by_cases hs : K.current_state t = .RUNNING
    · obtain ⟨hc, hhome⟩ := h.tasks.current c t hp
      have hl := hl t hhome
      have hne : K.current_state t ≠ .BLOCKED := by simp [hs]
      simp only [hs, if_true]
      refine relink h.linked.ready_advance rfl rfl (fun u => ?_) (fun u => ?_) (fun u => Iff.rfl)
        (h.tasks.set_state hc (.inl rfl) (fun e => by cases e) (h.tasks.still hne (by simp)))
        h.counter h.owners
      · by_cases hut : u = t
        · subst hut; simp [stateHome, hc, hs, hl]
        · simp [stateHome, hut]
      · by_cases hut : u = t
        · subst hut; simp [eventHome, eventList_of_ne, hs]
        · simp [eventHome, hut]
    · simp only [hs, if_false]; exact h

/-! ## The context switch -/

/-- A task that has left its ready list is in no other. -/
theorem ready_left (h : Sim K S call fl) {x : ItemRef} {p : TaskPriorityLevel}
    (hx : x ∈ S.lists.list (.ready_list c p)) : (fl x.owner).left = none := by
  have hk : x = .state_list_item x.owner := by simpa using h.linked.mem_kind hx
  rw [hk, h.linked.mem_state] at hx
  unfold stateHome at hx
  cases hl : (fl x.owner).left with
  | some timed => rw [hl] at hx; cases timed <;> cases hx
  | none => rfl

/-- The item in a ready list is that of a task of that core and priority. -/
theorem ready_mem (h : Sim K S call fl) {x : ItemRef} {p : TaskPriorityLevel}
    (hx : x ∈ S.lists.list (.ready_list c p)) :
    x = .state_list_item x.owner ∧ K.created x.owner = true ∧
      K.current_state x.owner ≠ .BLOCKED ∧ K.core_id x.owner = c ∧ K.priority x.owner = p ∧
      x.owner.home = c := by
  have hl := h.ready_left hx
  have hk : x = .state_list_item x.owner := by simpa using h.linked.mem_kind hx
  rw [hk, h.linked.mem_state] at hx
  cases hc : K.created x.owner with
  | false => simp [stateHome, hc, hl] at hx
  | true =>
    by_cases hs : K.current_state x.owner = .BLOCKED
    · simp [stateHome, hc, hs, hl] at hx
    · rw [h.ready_home hc hs hl] at hx
      injection hx with hx
      injection hx with h1 h2
      exact ⟨hk, rfl, hs, h1, h2, by rw [← h.tasks.home _ hc, h1]⟩

theorem select_next (h : Sim K S call fl) : Sim (select_next K c) (select_next S c) call fl := by
  unfold Rpitos.select_next
  simp only [h.num_items_eq, h.index_eq]
  cases hp : priorities_down.find?
      (fun p => decide (0 < num_items S.lists (ListRef.ready_list c p))) with
  | none =>
    obtain ⟨s, rfl⟩ := h.exists_over
    exact ⟨rfl, h.linked, h.tasks.set_current (by simp), h.counter, h.owners⟩
  | some p =>
    dsimp only
    cases hi : index S.lists (ListRef.ready_list c p) with
    | none => exact h
    | some x =>
      have hmem := (h.linked.index_ok c p).2 x hi
      have hl := h.ready_left hmem
      obtain ⟨hk, hc, hs, -, -, hhome⟩ := h.ready_mem hmem
      obtain ⟨s, rfl⟩ := h.exists_over
      have htab := (h.tasks.set_state hc (x := .RUNNING) (.inr (.inl rfl)) (fun e => by cases e)
        (h.tasks.still hs (by simp))).set_current (c := c) (o := some x.owner) (by
          rintro u ⟨⟩; exact ⟨hc, hhome⟩)
      refine relink h.linked rfl rfl (fun u => ?_) (fun u => ?_) (fun u => Iff.rfl) htab h.counter h.owners
      · by_cases hut : u = x.owner
        · subst hut
          rw [h.ready_home hc hs hl]; simp [stateHome, hc, hl]
        · simp [stateHome, hut]
      · by_cases hut : u = x.owner
        · subst hut; simp [eventHome, eventList_of_ne, hs]
        · simp [eventHome, hut]

theorem switch_context (h : Sim K S call fl) (hl : ∀ t, t.home = c → (fl t).left = none) :
    Sim (scheduler_switch_context K c) (scheduler_switch_context S c) call fl := by
  have hw : watermark_lost S c = watermark_lost K c := by rw [h.same]; rfl
  unfold scheduler_switch_context
  rw [hw]
  cases watermark_lost K c with
  | true =>
    obtain ⟨s, rfl⟩ := h.exists_over
    exact ⟨rfl, h.linked, h.tasks, h.counter, h.owners⟩
  | false => exact (h.end_quantum hl).select_next

/-! ## Creation -/

theorem core_empty (h : Sim K S call fl) (hc : K.initialised c = false) (hcr : l = .blocked_task_list c ∨
    ∃ p, l = .ready_list c p) : S.lists.list l = [] := by
  rw [List.eq_nil_iff_forall_not_mem]
  intro x hx
  have hx' : K.created x.owner = true ∧ x.owner.home = c := by
    rcases hcr with rfl | ⟨p, rfl⟩
    · obtain ⟨-, h1, h2, -⟩ := h.blocked_mem hx; exact ⟨h1, h2⟩
    · obtain ⟨-, h1, -, -, -, h2⟩ := h.ready_mem hx; exact ⟨h1, h2⟩
  obtain ⟨h1, rfl⟩ := hx'
  cases hx : x.owner with
  | idle c =>
    rw [hx] at h1 hc
    rw [show K.created (.idle c) = K.initialised (Tcb.idle c).home from rfl, hc] at h1; cases h1
  | pool c slot =>
    rw [hx] at h1 hc
    have := h.counter c (Nat.lt_of_le_of_lt (Nat.zero_le _) (of_decide_eq_true h1))
    rw [show (Tcb.pool c slot).home = c from rfl, this] at hc; cases hc

end Sim

namespace Linked

variable {h : Links} {s : Sequences} {wake : Tcb → Nat} {sh eh : Tcb → Option ListRef}
  {fl : Tcb → Prop} {t : Tcb} {c : CoreId}

theorem clear_ready (ps : List TaskPriorityLevel) : ∀ {h : Links} {s : Sequences},
    Linked h s wake sh eh fl → (∀ p, s.list (.ready_list c p) = []) →
      Linked (ps.foldl (fun lists p => clearHeader lists (.ready_list c p)) h)
        (ps.foldl (fun lists p => clearHeader lists (.ready_list c p)) s) wake sh eh fl ∧
      (ps.foldl (fun lists p => clearHeader lists (.ready_list c p)) s).list = s.list := by
  induction ps with
  | nil => intro h s hl _; exact ⟨hl, rfl⟩
  | cons p ps ih =>
    intro h s hl he
    have hlist : (clearHeader s (.ready_list c p)).list = s.list := by
      show update s.list (.ready_list c p) [] = s.list
      rw [← he p, update_eq_self]
    have := ih (hl.clear_header (he p)) (fun q => by rw [hlist]; exact he q)
    exact ⟨this.1, this.2.trans hlist⟩

theorem clear_lists (hl : Linked h s wake sh eh fl) (he : ∀ p, s.list (.ready_list c p) = [])
    (hb : s.list (.blocked_task_list c) = []) :
    Linked (clear_lists h c) (clear_lists s c) wake sh eh fl := by
  obtain ⟨h1, h2⟩ := hl.clear_ready (List.finRange NUM_TASK_PRIORITIES) he
  exact h1.clear_header (by rw [h2]; exact hb)

theorem clear_items (hl : Linked h s wake sh eh fl) (hs : sh t = none) (hf : ¬ fl t)
    (he : eh t = none) : Linked (clear_items h t) (clear_items s t) wake sh eh fl := by
  have h1 := hl.clear_item (hl.state_free hs)
  exact h1.clear_item (h1.event_free hf he)

end Linked

namespace Sim

variable {K : Kernel Links} {S : Kernel Sequences} {call : Tcb → Call} {fl : Tcb → Flight}
  {t : Tcb} {c : CoreId}

theorem not_created (h : Sim K S call fl) (hc : K.created t = false) :
    stateHome K call fl t = none ∧ eventHome K call fl t = none ∧ fl t = .no ∧ call t = .own := by
  have hf : fl t = .no := by
    by_contra hf
    rw [(h.tasks.flight t hf).1] at hc; cases hc
  exact ⟨by simp [stateHome, hc, hf], by simp [eventHome, hc], hf, h.tasks.fresh t hc⟩

/-- A new task is ready, on its home core. -/
theorem add_task {K' : Kernel Links} {S' : Kernel Sequences} {p : TaskPriorityLevel}
    (h : Sim K S call fl) (hc : K.created t = false)
    (hl : Linked K'.lists S'.lists K.wakeup_time
      (update (stateHome K call fl) t (some (.ready_list t.home p))) (eventHome K call fl)
      (fun t => fl t = .popped))
    (ho : S' = K'.over S'.lists) (hcore : K'.core_id = update K.core_id t t.home)
    (hprio : K'.priority = update K.priority t p)
    (hst : K'.current_state = update K.current_state t .READY)
    (hw : K'.wakeup_time = update K.wakeup_time t 0)
    (hcur : K'.p_task_control_block = K.p_task_control_block)
    (hcr : ∀ u, K'.created u = if u = t then true else K.created u)
    (hcount : ∀ c, 0 < K'.task_counter c → K'.initialised c = true)
    (hown : K'.mutex_owner = K.mutex_owner) : Sim K' S' call fl := by
  obtain ⟨-, -, hf, hcall⟩ := h.not_created hc
  have hwake := hl.congr_wake K'.wakeup_time fun u c' hu => by
    have hut : u ≠ t := by rintro rfl; simp at hu
    rw [hw, update_of_ne hut]
  refine relink hwake ho rfl (fun u => ?_) (fun u => ?_) (fun u => Iff.rfl) ?_ hcount
    fun m o ho => by rw [hcr, h.owners m o (hown ▸ ho)]; exact ite_self _
  · by_cases hut : u = t
    · subst hut; simp [stateHome, hcr, hcore, hprio, hst, hf]
    · simp [stateHome, hcr, hcore, hprio, hst, hut]
  · by_cases hut : u = t
    · subst hut; simp [eventHome, hc, hst, eventList_of_ne, hf]
    · simp [eventHome, hcr, hst, hut]
  · rw [hcore, hst, hcur]
    exact h.tasks.add hc hf hcall hcr

theorem scheduler_init (h : Sim K S call fl) (hc : K.initialised c = false) :
    Sim (scheduler_init K c) (scheduler_init S c) call fl := by
  have hcr : K.created (.idle c) = false := hc
  obtain ⟨hs, he, hf, -⟩ := h.not_created hcr
  obtain ⟨s, rfl⟩ := h.exists_over
  have hl := ((h.linked.clear_lists (fun p => h.core_empty hc (.inr ⟨p, rfl⟩))
    (h.core_empty hc (.inl rfl))).clear_items hs (by simp [hf]) he).ready_push
      (c := c) (p := TASK_PRIORITY_IDLE) hs
  refine h.add_task (p := TASK_PRIORITY_IDLE) hcr ?_ rfl rfl rfl ?_ rfl rfl (fun u => ?_) (fun c' => ?_)
    rfl
  · simpa [Rpitos.scheduler_init, scheduler_add_to_ready_list, Tcb.home] using hl
  · simp [Rpitos.scheduler_init, scheduler_add_to_ready_list]
  · cases u with
    | idle c' => simp [Rpitos.scheduler_init, scheduler_add_to_ready_list, is_created, update_apply]
    | pool c' slot => simp [Rpitos.scheduler_init, scheduler_add_to_ready_list, is_created]
  · intro hpos
    by_cases hcc : c' = c
    · subst hcc; simp [Rpitos.scheduler_init, scheduler_add_to_ready_list]
    · simpa [Rpitos.scheduler_init, scheduler_add_to_ready_list, hcc] using h.counter c' hpos

theorem task_create {d p : Nat} (h : Sim K S call fl) (hi : K.initialised c = true) :
    Sim (task_create K c d p).2.2 (task_create S c d p).2.2 call fl := by
  obtain ⟨s, rfl⟩ := h.exists_over
  by_cases hn : K.task_counter c < MAX_NUM_TASKS
  · have hcr : K.created (.pool c ⟨K.task_counter c, hn⟩) = false := by simp [is_created]
    obtain ⟨hs, he, hf, -⟩ := h.not_created hcr
    cases hm : heap_malloc K.heap_offset (4 * d) with
    | mk block off =>
      cases block with
      | none =>
        simp only [Rpitos.task_create, Kernel.over, hn, dite_true, hm]
        exact ⟨rfl, h.linked, h.tasks, h.counter, h.owners⟩
      | some b =>
        have hl (p : TaskPriorityLevel) :=
          (h.linked.clear_items hs (by simp [hf]) he).ready_push (c := c) (p := p) hs
        simp only [Rpitos.task_create, Kernel.over, hn, dite_true, hm, scheduler_add_to_ready_list,
          update_self, update_idem]
        refine h.add_task (t := .pool c ⟨K.task_counter c, hn⟩) hcr (hl _) rfl rfl rfl rfl rfl rfl
          (fun u => ?_) (fun c' => ?_) rfl
        · cases u with
          | idle c' => simp [is_created]
          | pool c' slot =>
            by_cases hcc : c' = c
            · subst hcc
              simp only [is_created, update_self, Tcb.pool.injEq, true_and, Fin.ext_iff]
              by_cases hslot : slot.val = K.task_counter c'
              · simp [hslot]
              · simp only [hslot, if_false, decide_eq_decide]; omega
            · simp [is_created, hcc]
        · intro hpos
          by_cases hcc : c' = c
          · subst hcc; exact hi
          · exact h.counter c' (by simpa [hcc] using hpos)
  · rw [task_create_full hn, task_create_full (K := K.over s) hn]
    exact h

end Sim
end Rpitos
