import Rpitos.Kernel.SystemSim

/-!
# Kernel.Effects

What each function of the kernel can do to the fields other than the lists: one inversion lemma for
each function. The results over whole runs are derived from these.
-/

namespace Rpitos

open Function ListOps StatusCode

variable {L : Type} [ListOps L ItemRef ListRef] {K : Kernel L} {t : Tcb}

/-! ## The scheduler -/

theorem change_task_priority_effect (K : Kernel L) (t : Tcb) (p : TaskPriorityLevel) :
    ∃ lists, scheduler_change_task_priority K t p =
      { K with lists := lists, priority := update K.priority t p } := by
  unfold scheduler_change_task_priority
  by_cases hs : K.current_state t = .READY ∨ K.current_state t = .RUNNING
  · cases hc : container K.lists (ItemRef.state_list_item t) with
    | none =>
      refine ⟨pushBackIndexed K.lists (.ready_list (K.core_id t) p) (.state_list_item t), ?_⟩
      simp [hs, scheduler_add_to_ready_list]
    | some l =>
      refine ⟨pushBackIndexed (unlinkIndexed K.lists l (.state_list_item t))
        (.ready_list (K.core_id t) p) (.state_list_item t), ?_⟩
      simp [hs, scheduler_add_to_ready_list]
  · exact ⟨K.lists, by simp [hs]⟩

theorem block_until_effect (K : Kernel L) (t : Tcb) (w : Nat) :
    ∃ lists, block_until K t w = { K with
      lists := lists
      wakeup_time := update K.wakeup_time t w
      current_state := update K.current_state t .BLOCKED } := by
  unfold block_until
  rw [remove_from_ready_fields]
  exact ⟨_, rfl⟩

/-- The tasks the expiry loop takes off the blocked list are ready, the others unchanged. -/
theorem expire_loop_effect (c : CoreId) : ∀ (n : Nat) (K : Kernel L),
    ∃ lists, (expire_loop c n K).2 = { K with
      lists := lists
      current_state := fun u =>
        if u ∈ (expire_loop c n K).1 then .READY else K.current_state u } := by
  intro n
  induction n with
  | zero => intro K; exact ⟨K.lists, by simp [expire_loop]⟩
  | succ n ih =>
    intro K
    unfold expire_loop
    cases hx : head K.lists (.blocked_task_list c) with
    | none => exact ⟨K.lists, by simp⟩
    | some x =>
      by_cases hw : K.wakeup_time x.owner ≤ K.tick_count c
      · obtain ⟨lists, hl⟩ := ih (expire_task K x.owner)
        refine ⟨lists, ?_⟩
        simp only [hw, if_true]
        rw [hl, expire_task_fields K x.owner]
        congr 1
        funext u
        by_cases hu : u ∈ (expire_loop c n (expire_task K x.owner)).1
        · simp [← expire_task_fields, hu]
        · by_cases hux : u = x.owner
          · simp [← expire_task_fields, hux]
          · simp [← expire_task_fields, hu, hux]
      · exact ⟨K.lists, by simp [hw]⟩

theorem timer_tick_handler_effect (K : Kernel L) (c : CoreId) :
    ∃ lists, (timer_tick_handler K c).2 = { K with
      lists := lists
      tick_count := update K.tick_count c (u64 (K.tick_count c + 1))
      current_state := fun u =>
        if u ∈ (timer_tick_handler K c).1 then .READY else K.current_state u } :=
  expire_loop_effect c MAX_TCBS (next_tick K c)

theorem end_quantum_effect (K : Kernel L) (c : CoreId) :
    ∃ lists st, end_quantum K c = { K with lists := lists, current_state := st } ∧
      ∀ u, st u = .BLOCKED ↔ K.current_state u = .BLOCKED := by
  unfold end_quantum
  split
  · rename_i t _
    split
    · rename_i hs
      refine ⟨_, update K.current_state t .READY, rfl, fun u => ?_⟩
      by_cases hut : u = t
      · subst hut; simp [hs]
      · simp [hut]
    · exact ⟨K.lists, K.current_state, rfl, fun _ => Iff.rfl⟩
  · exact ⟨K.lists, K.current_state, rfl, fun _ => Iff.rfl⟩

/-- A context switch neither blocks nor wakes a task. -/
theorem switch_context_effect {K : Kernel Links} {S : Kernel Sequences} {call : Tcb → Call}
    {fl : Tcb → Flight} (h : Sim K S call fl) {c : CoreId}
    (hl : ∀ t, t.home = c → (fl t).left = none) :
    ∃ lists st cur hung, scheduler_switch_context K c = { K with
      lists := lists, current_state := st, p_task_control_block := cur, hung := hung } ∧
      ∀ u, st u = .BLOCKED ↔ K.current_state u = .BLOCKED := by
  unfold scheduler_switch_context
  split
  · exact ⟨K.lists, K.current_state, K.p_task_control_block, _, rfl, fun _ => Iff.rfl⟩
  · obtain ⟨lists, st, he, hst⟩ := end_quantum_effect K c
    have h' : Sim (end_quantum K c) (end_quantum S c) call fl := h.end_quantum hl
    unfold select_next
    cases hp : priorities_down.find?
        (fun p => decide (0 < num_items (end_quantum K c).lists (ListRef.ready_list c p))) with
    | none =>
      refine ⟨lists, st, update K.p_task_control_block c none, K.hung, ?_, hst⟩
      rw [he]
    | some p =>
      cases hi : index (end_quantum K c).lists (ListRef.ready_list c p) with
      | none =>
        refine ⟨lists, st, K.p_task_control_block, K.hung, ?_, hst⟩
        simp only [hi]; rw [he]
      | some x =>
        rw [h'.index_eq] at hi
        have hne : st x.owner ≠ .BLOCKED := by
          have := (h'.ready_mem ((h'.linked.index_ok c p).2 x hi)).2.2.1
          rwa [he] at this
        refine ⟨lists, update st x.owner .RUNNING, update K.p_task_control_block c (some x.owner),
          K.hung, ?_, fun u => ?_⟩
        · simp only [h'.index_eq, hi]; rw [he]
        · by_cases hux : u = x.owner
          · subst hux; simp [← hst, hne]
          · simp [hux, hst]

/-- A created task is ready; no other task's state changes. -/
theorem task_create_effect (K : Kernel L) (c : CoreId) (d p : Nat) :
    (∃ s, (task_create K c d p).2.2 = { K with stack_base0 := s }) ∨
    ∃ t, K.created t = false ∧ ∃ lists off s sd id core cnt prio base held wake,
      (task_create K c d p).2.2 = { K with
        lists := lists, heap_offset := off, stack_base0 := s, stack_depth := sd, task_id := id
        core_id := core, task_counter := cnt, priority := prio, base_priority := base
        mutexes_held := held, wakeup_time := wake
        wakeup_reason := update K.wakeup_reason t .NONE
        current_state := update K.current_state t .READY } := by
  unfold task_create
  split
  · rename_i hn
    dsimp only
    split
    · exact .inl ⟨_, rfl⟩
    · refine .inr ⟨.pool c ⟨K.task_counter c, hn⟩, by simp [is_created], ?_⟩
      simp only [scheduler_add_to_ready_list, update_idem]
      exact ⟨_, _, _, _, _, _, _, _, _, _, _, rfl⟩
  · exact .inl ⟨K.stack_base0, rfl⟩

/-- `scheduler_init` makes the core's idle task ready. -/
theorem scheduler_init_effect (K : Kernel L) (c : CoreId) :
    ∃ lists s sd id core prio base held wake tick, scheduler_init K c = { K with
      lists := lists, stack_base0 := s, stack_depth := sd, task_id := id, core_id := core
      priority := prio, base_priority := base, mutexes_held := held, wakeup_time := wake
      tick_count := tick
      initialised := update K.initialised c true
      wakeup_reason := update K.wakeup_reason (.idle c) .NONE
      current_state := update K.current_state (.idle c) .READY } := by
  unfold scheduler_init
  simp only [scheduler_add_to_ready_list, update_idem]
  exact ⟨_, _, _, _, _, _, _, _, _, _, rfl⟩

/-! ## Waiting and waking -/

theorem rejoin_effect (K : Kernel L) (t : Tcb) :
    ∃ lists, rejoin K t = { K with
      lists := lists, current_state := update K.current_state t .READY } := by
  unfold rejoin
  rw [remove_from_blocked_fields]
  exact ⟨_, rfl⟩

theorem semaphore_wake_effect (K : Kernel L) (t : Tcb) :
    ∃ lists, semaphore_wake K t = { K with
      lists := lists
      wakeup_reason := update K.wakeup_reason t .RESOURCE_ACQUIRED
      current_state := update K.current_state t .READY } := by
  unfold semaphore_wake
  rw [remove_from_blocked_fields]
  exact ⟨_, rfl⟩

/-! ## The mutex -/

theorem mutex_boost_holder_effect (K : Kernel L) (mtx : MutexId) :
    ∃ lists prio, mutex_boost_holder K mtx = { K with lists := lists, priority := prio } := by
  unfold mutex_boost_holder
  split
  · rename_i o _
    split
    · obtain ⟨lists, h⟩ := change_task_priority_effect K o (K.inherited_priority mtx)
      exact ⟨lists, _, h⟩
    · exact ⟨K.lists, K.priority, rfl⟩
  · exact ⟨K.lists, K.priority, rfl⟩

theorem mutex_inherit_effect (K : Kernel L) (mtx : MutexId) (t : Tcb) :
    ∃ lists prio inh, mutex_inherit K mtx t = { K with
      lists := lists, priority := prio, inherited_priority := inh } := by
  unfold mutex_inherit
  split
  · obtain ⟨lists, prio, h⟩ := mutex_boost_holder_effect { K with
      inherited_priority := if K.inherited_priority mtx < K.priority t then
          update K.inherited_priority mtx (K.priority t) else K.inherited_priority } mtx
    exact ⟨lists, prio, _, h⟩
  · exact ⟨K.lists, K.priority, K.inherited_priority, rfl⟩

theorem mutex_set_inheritance_effect (K : Kernel L) (mtx : MutexId) (enable : Bool) :
    ∃ enabled, (mutex_set_inheritance K mtx enable).2 =
      { K with inheritance_enabled := enabled } := by
  unfold mutex_set_inheritance
  split
  · exact ⟨K.inheritance_enabled, rfl⟩
  · exact ⟨_, rfl⟩

/-- A caller that does not wait is refused a locked mutex. -/
theorem mutex_lock_refused {K : Kernel L} {mtx : MutexId} {t : Tcb}
    (hl : K.mutex_state mtx = .LOCKED) : mutex_lock K mtx t 0 = (some E_TIMED_OUT, K) := by
  unfold mutex_lock
  rw [if_neg (by simp [hl]), if_pos rfl]

/-- `mutex_lock` finds the mutex unlocked, or does not wait, or blocks the caller. -/
theorem mutex_lock_effect (K : Kernel L) (mtx : MutexId) (t : Tcb) (timeout_ms : Int) :
    (K.mutex_state mtx = .UNLOCKED ∧ ∃ held, mutex_lock K mtx t timeout_ms = (some E_OK, { K with
      mutex_state := update K.mutex_state mtx .LOCKED
      mutex_owner := update K.mutex_owner mtx (some t)
      mutexes_held := held })) ∨
    (K.mutex_state mtx ≠ .UNLOCKED ∧ timeout_ms = 0 ∧
      mutex_lock K mtx t timeout_ms = (some E_TIMED_OUT, K)) ∨
    (K.mutex_state mtx ≠ .UNLOCKED ∧ timeout_ms ≠ 0 ∧ ∃ lists wake prio inh,
      mutex_lock K mtx t timeout_ms = (none, { K with
        lists := lists, wakeup_time := wake, priority := prio, inherited_priority := inh
        current_state := update K.current_state t .BLOCKED })) := by
  by_cases hu : K.mutex_state mtx = .UNLOCKED
  · left
    unfold mutex_lock
    rw [if_pos hu]
    exact ⟨hu, _, rfl⟩
  · by_cases ht : timeout_ms = 0
    · right; left
      unfold mutex_lock
      rw [if_neg hu, if_pos ht]
      exact ⟨hu, ht, rfl⟩
    · right; right
      rw [mutex_lock_blocks_eq hu ht]
      obtain ⟨lists, wake, h1⟩ := enter_wait_effect K (.mutex_blocked_list mtx) t timeout_ms
        (u64 (K.tick_count t.home + timeout_ms.toNat))
      obtain ⟨lists', prio, inh, h2⟩ := mutex_inherit_effect
        (enter_wait K (.mutex_blocked_list mtx) t timeout_ms
          (u64 (K.tick_count t.home + timeout_ms.toNat))) mtx t
      refine ⟨hu, ht, lists', wake, prio, inh, ?_⟩
      rw [h2, h1]

theorem mutex_restore_holder_effect (K : Kernel L) (mtx : MutexId) (holder : Option Tcb) :
    ∃ lists prio held, mutex_restore_holder K mtx holder = { K with
      lists := lists, priority := prio, mutexes_held := held } := by
  unfold mutex_restore_holder
  split
  · rename_i o
    split
    · dsimp only
      split
      · obtain ⟨lists, h⟩ := change_task_priority_effect { K with
          mutexes_held := update K.mutexes_held o (u32 (K.mutexes_held o + (2 ^ 32 - 1))) } o
          (K.base_priority o)
        exact ⟨lists, _, _, h⟩
      · exact ⟨K.lists, K.priority, _, rfl⟩
    · exact ⟨K.lists, K.priority, K.mutexes_held, rfl⟩
  · exact ⟨K.lists, K.priority, K.mutexes_held, rfl⟩

theorem mutex_boost_owner_effect (K : Kernel L) (mtx : MutexId) (t : Tcb) :
    ∃ lists prio held, mutex_boost_owner K mtx t = { K with
      lists := lists, priority := prio, mutexes_held := held } := by
  unfold mutex_boost_owner
  split
  · dsimp only
    split
    · obtain ⟨lists, h⟩ := change_task_priority_effect { K with
        mutexes_held := update K.mutexes_held t (u32 (K.mutexes_held t + 1)) } t
        (K.inherited_priority mtx)
      exact ⟨lists, _, _, h⟩
    · exact ⟨K.lists, K.priority, _, rfl⟩
  · exact ⟨K.lists, K.priority, K.mutexes_held, rfl⟩

theorem mutex_transfer_effect (K : Kernel L) (mtx : MutexId) (t : Tcb) :
    ∃ lists prio held, mutex_transfer K mtx t = { K with
      lists := lists, priority := prio, mutexes_held := held
      mutex_owner := update K.mutex_owner mtx (some t)
      current_state := update K.current_state t .READY } := by
  obtain ⟨lists, prio, held, h⟩ := mutex_boost_owner_effect
    { K with mutex_owner := update K.mutex_owner mtx (some t) } mtx t
  obtain ⟨lists', h'⟩ := rejoin_effect (mutex_boost_owner
    { K with mutex_owner := update K.mutex_owner mtx (some t) } mtx t) t
  refine ⟨lists', prio, held, ?_⟩
  show rejoin _ t = _
  rw [h', h]

/-- `mutex_unlock` of a locked mutex releases it when nobody waits, and otherwise hands it to one
of the waiters. -/
theorem mutex_unlock_effect {K : Kernel Links} {S : Kernel Sequences} {call : Tcb → Call}
    {fl : Tcb → Flight} {mtx : MutexId} (h : Sim K S call fl) (hl : K.mutex_state mtx = .LOCKED) :
    (S.lists.list (.mutex_blocked_list mtx) = [] ∧ ∃ lists prio held inh,
      mutex_unlock K mtx = (none, { K with
        lists := lists, priority := prio, mutexes_held := held, inherited_priority := inh
        mutex_owner := update K.mutex_owner mtx none
        mutex_state := update K.mutex_state mtx .UNLOCKED })) ∨
    ∃ w lists prio held inh, .event_list_item w ∈ S.lists.list (.mutex_blocked_list mtx) ∧
      mutex_unlock K mtx = (some w, { K with
        lists := lists, priority := prio, mutexes_held := held, inherited_priority := inh
        mutex_owner := update K.mutex_owner mtx (some w)
        current_state := update K.current_state w .READY }) := by
  by_cases he : S.lists.list (.mutex_blocked_list mtx) = []
  · left
    refine ⟨he, ?_⟩
    obtain ⟨lists, prio, held, hr⟩ := mutex_restore_holder_effect { K with
      mutex_owner := update K.mutex_owner mtx none
      mutex_state := update K.mutex_state mtx .UNLOCKED
      inherited_priority := update K.inherited_priority mtx TASK_PRIORITY_IDLE } mtx
      (K.mutex_owner mtx)
    refine ⟨lists, prio, held, update K.inherited_priority mtx TASK_PRIORITY_IDLE, ?_⟩
    unfold mutex_unlock mutex_release
    rw [if_pos hl, h.num_items_eq, if_pos ((h.num_items_zero _).mpr he), hr]
  · right
    obtain ⟨w, h1, -, hm, -⟩ := h.pop_best he
    obtain ⟨lists, prio, held, hr⟩ := mutex_restore_holder_effect (mutex_pop_best K mtx).2 mtx
      (K.mutex_owner mtx)
    obtain ⟨lists', prio', held', ht⟩ := mutex_transfer_effect
      (mutex_restore_holder (mutex_pop_best K mtx).2 mtx (K.mutex_owner mtx)) mtx w
    refine ⟨w, lists', prio', held', (mutex_pop_best K mtx).2.inherited_priority, hm, ?_⟩
    unfold mutex_unlock
    rw [if_pos hl, h.num_items_eq, if_neg (mt (h.num_items_zero _).mp he),
      show mutex_pop_best K mtx = (some w, (mutex_pop_best K mtx).2) from Prod.ext h1 rfl]
    dsimp only
    rw [ht, hr, mutex_pop_best_fields K mtx]

/-! ## The semaphore -/

/-- A round of `semaphore_take` takes a unit, or gives up, or blocks the caller. -/
theorem semaphore_take_effect (K : Kernel L) (smph : SemaphoreId) (t : Tcb) (timeout_ms : Int)
    (deadline : Nat) :
    (0 < K.count smph ∧ semaphore_take K smph t timeout_ms deadline = (some E_OK,
      { K with count := update K.count smph (K.count smph - 1) })) ∨
    (K.count smph = 0 ∧ (timeout_ms = 0 ∨ 0 < timeout_ms ∧ deadline ≤ K.tick_count t.home) ∧
      semaphore_take K smph t timeout_ms deadline = (some E_TIMED_OUT, K)) ∨
    (K.count smph = 0 ∧ timeout_ms ≠ 0 ∧
      ¬ (0 < timeout_ms ∧ deadline ≤ K.tick_count t.home) ∧ ∃ lists wake,
        semaphore_take K smph t timeout_ms deadline = (none, { K with
          lists := lists, wakeup_time := wake
          current_state := update K.current_state t .BLOCKED })) := by
  by_cases hc : 0 < K.count smph
  · left
    unfold semaphore_take
    rw [if_pos hc]
    exact ⟨hc, rfl⟩
  · have hz : K.count smph = 0 := by omega
    by_cases ht : timeout_ms = 0
    · right; left
      unfold semaphore_take
      rw [if_neg hc, if_pos ht]
      exact ⟨hz, .inl ht, rfl⟩
    · by_cases hd : 0 < timeout_ms ∧ deadline ≤ K.tick_count t.home
      · right; left
        unfold semaphore_take
        rw [if_neg hc, if_neg ht, if_pos hd]
        exact ⟨hz, .inr hd, rfl⟩
      · right; right
        obtain ⟨lists, wake, h⟩ := enter_wait_effect K (.semaphore_blocked_list smph) t timeout_ms
          deadline
        rw [semaphore_take_blocks_eq hc ht hd]
        exact ⟨hz, ht, hd, lists, wake, by rw [h]⟩

/-- `semaphore_give` wakes the first waiter, or counts the unit, or is refused. -/
theorem semaphore_give_effect {K : Kernel Links} {S : Kernel Sequences} {call : Tcb → Call}
    {fl : Tcb → Flight} (h : Sim K S call fl) (smph : SemaphoreId) :
    (∃ w xs lists, S.lists.list (.semaphore_blocked_list smph) = .event_list_item w :: xs ∧
      semaphore_give K smph = (E_OK, some w, { K with
        lists := lists
        wakeup_reason := update K.wakeup_reason w .RESOURCE_ACQUIRED
        current_state := update K.current_state w .READY })) ∨
    (S.lists.list (.semaphore_blocked_list smph) = [] ∧ K.count smph < K.max_count smph ∧
      semaphore_give K smph = (E_OK, none,
        { K with count := update K.count smph (K.count smph + 1) })) ∨
    (S.lists.list (.semaphore_blocked_list smph) = [] ∧ ¬ K.count smph < K.max_count smph ∧
      semaphore_give K smph = (E_RESOURCE_EXHAUSTED, none, K)) := by
  by_cases he : S.lists.list (.semaphore_blocked_list smph) = []
  · have hn : ¬ 0 < num_items S.lists (ListRef.semaphore_blocked_list smph) := by
      rw [h.num_items_pos]; exact not_not.mpr he
    unfold semaphore_give semaphore_count_up
    rw [h.num_items_eq, if_neg hn]
    by_cases hc : K.count smph < K.max_count smph
    · right; left; rw [if_pos hc]; exact ⟨he, hc, rfl⟩
    · right; right; rw [if_neg hc]; exact ⟨he, hc, rfl⟩
  · left
    obtain ⟨w, xs, hlist, hhead, -⟩ := h.pop_waiter_first he
    have h1 : (semaphore_pop_waiter K smph).1 = some w := by
      unfold semaphore_pop_waiter; rw [hhead]; rfl
    obtain ⟨lists, hw⟩ := semaphore_wake_effect (semaphore_pop_waiter K smph).2 w
    refine ⟨w, xs, lists, hlist, ?_⟩
    have hpop : ∃ l, (semaphore_pop_waiter K smph).2 = { K with lists := l } := by
      unfold semaphore_pop_waiter; split
      · exact ⟨_, rfl⟩
      · exact ⟨K.lists, rfl⟩
    obtain ⟨l, hl⟩ := hpop
    unfold semaphore_give
    rw [h.num_items_eq, if_pos ((h.num_items_pos _).mpr he),
      show semaphore_pop_waiter K smph = (some w, (semaphore_pop_waiter K smph).2) from
        Prod.ext h1 rfl]
    dsimp only
    rw [hw, hl]

end Rpitos
