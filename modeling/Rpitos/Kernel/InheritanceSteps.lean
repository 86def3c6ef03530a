import Rpitos.Kernel.Inheritance

/-!
# Kernel.InheritanceSteps

Every step of the kernel is one operation of `Inheritance` on the view of its state. Most steps are
`Quiet`: they leave the mutexes and the priorities alone, and at most take tasks off the wait lists.
-/

namespace Rpitos

open Function ListOps StatusCode

/-! ## Quiet steps -/

/-- Nothing of the mutexes changes, and the tasks `ts` stop waiting. -/
structure Quiet (S S' : System Links) (ts : List Tcb) : Prop where
  state : S'.kernel.mutex_state = S.kernel.mutex_state
  owner : S'.kernel.mutex_owner = S.kernel.mutex_owner
  enabled : S'.kernel.inheritance_enabled = S.kernel.inheritance_enabled
  inherited : S'.kernel.inherited_priority = S.kernel.inherited_priority
  held : S'.kernel.mutexes_held = S.kernel.mutexes_held
  base : S'.kernel.base_priority = S.kernel.base_priority
  priority : S'.kernel.priority = S.kernel.priority
  spins : ∀ t mtx, S'.spins t mtx ↔ t ∉ ts ∧ S.spins t mtx

/-- Events of which `History` takes no note. -/
def Event.silent : Event → Bool
  | .lock_waits _ _ => false
  | .lock_handed _ _ => false
  | .unlocks _ _ => false
  | .expires _ => false
  | _ => true

/-- Two maps that agree at one point and at every other one. -/
theorem funext_at {α β : Type} {f g : α → β} (a : α) (ha : f a = g a) (h : ∀ b, b ≠ a → f b = g b) :
    f = g := by
  funext b
  by_cases hb : b = a
  · rw [hb, ha]
  · exact h b hb

theorem History.note_silent {K K' : Kernel Links} {H : History} {e : Event}
    (he : e.silent = true) : H.note K K' e = H := by
  cases e <;> first | rfl | cases he

theorem History.note_unlocks {K K' : Kernel Links} {H : History} {t : Tcb} {mtx : MutexId}
    (he : K.inheritance_enabled mtx = true) : H.note K K' (.unlocks t mtx) =
      { H with
        kept := update H.kept t (if K'.mutexes_held t = 0 then TASK_PRIORITY_IDLE
          else max (H.kept t) (K.inherited_priority mtx))
        stale := update H.stale mtx false } := if_pos he

theorem History.note_handed {K K' : Kernel Links} {H : History} {w : Tcb} {mtx : MutexId}
    (he : K.inheritance_enabled mtx = true) : H.note K K' (.lock_handed w mtx) =
      { H with seen := fun t => if t ∈ waiters K mtx ∧ t ≠ w then K.priority t else H.seen t } :=
  if_pos he

theorem History.fold_silent {K K' : Kernel Links} {es : List Event} :
    ∀ {H : History}, (∀ e ∈ es, e.silent = true) → es.foldl (History.note K K') H = H := by
  induction es with
  | nil => intro H _; rfl
  | cons e es ih =>
    intro H he
    rw [List.foldl_cons, History.note_silent (he e (by simp))]
    exact ih fun e' h' => he e' (by simp [h'])

namespace Quiet

variable {S S' S'' : System Links} {ts : List Tcb} {t : Tcb}

theorem refl (S : System Links) : Quiet S S [] :=
  ⟨rfl, rfl, rfl, rfl, rfl, rfl, rfl, fun _ _ => by simp⟩

theorem trans (h : Quiet S S' ts) (h' : Quiet S' S'' []) : Quiet S S'' ts := by
  refine ⟨h'.state.trans h.state, h'.owner.trans h.owner, h'.enabled.trans h.enabled,
    h'.inherited.trans h.inherited, h'.held.trans h.held, h'.base.trans h.base,
    h'.priority.trans h.priority, fun t mtx => ?_⟩
  rw [h'.spins, h.spins]
  simp

/-- A running task changes nothing but its own state and call, and waits for no mutex then. -/
theorem spins_own (hr : S.kernel.current_state t ≠ .BLOCKED)
    (hn : S'.kernel.current_state t = .BLOCKED → (S'.call t).locks = none)
    (hs : ∀ u, u ≠ t → S'.kernel.current_state u = S.kernel.current_state u ∧
      S'.call u = S.call u) (u : Tcb) (mtx : MutexId) :
    S'.spins u mtx ↔ u ∉ ([] : List Tcb) ∧ S.spins u mtx := by
  unfold System.spins
  by_cases hut : u = t
  · subst hut
    refine ⟨fun h => ?_, fun h => absurd h.2.1 hr⟩
    rw [hn h.1] at h
    cases h.2
  · rw [(hs u hut).1, (hs u hut).2]
    simp

theorem set_call {k : Call} (hr : S.kernel.current_state t ≠ .BLOCKED) :
    Quiet S (S.setCall t k) [] :=
  ⟨rfl, rfl, rfl, rfl, rfl, rfl, rfl,
    spins_own hr (fun h => absurd h hr) fun u hu => ⟨rfl, by simp [hu]⟩⟩

/-- A task that waits for no mutex, before and after, blocks or wakes. -/
theorem set_state {K : Kernel Links} {st : TaskState} (hn : (S.call t).locks = none)
    (hc : K.current_state = update S.kernel.current_state t st)
    (hst : K.mutex_state = S.kernel.mutex_state) (ho : K.mutex_owner = S.kernel.mutex_owner)
    (he : K.inheritance_enabled = S.kernel.inheritance_enabled)
    (hi : K.inherited_priority = S.kernel.inherited_priority)
    (hh : K.mutexes_held = S.kernel.mutexes_held) (hb : K.base_priority = S.kernel.base_priority)
    (hp : K.priority = S.kernel.priority) : Quiet S (S.withKernel K) [] := by
  refine ⟨hst, ho, he, hi, hh, hb, hp, fun u mtx => ?_⟩
  unfold System.spins
  by_cases hut : u = t
  · subst hut; simp [hn]
  · simp [hc, hut]

theorem give {A : System Sequences} (hs : SSim S A grounded) (smph : SemaphoreId) :
    Quiet S (S.give smph).2 [] ∧ ∀ e ∈ (S.give smph).1, e.silent = true := by
  unfold System.give
  dsimp only
  obtain ⟨w, xs, lists, hl, he⟩ | ⟨-, -, he⟩ | ⟨-, -, he⟩ := semaphore_give_effect hs.kernel smph
  · have hw : (S.call w).waits_on = some (.semaphore_blocked_list smph) :=
      (hs.kernel.wait_mem rfl (grounded_entered _) (x := .event_list_item w)
        (by rw [hl]; simp)).2.2.2.2
    have hn : (S.call w).locks = none := by
      cases hc : S.call w <;> rw [hc] at hw <;> first | rfl | cases hw
    rw [he]
    exact ⟨set_state hn rfl rfl rfl rfl rfl rfl rfl rfl, by simp [Event.silent]⟩
  · rw [he]
    exact ⟨⟨rfl, rfl, rfl, rfl, rfl, rfl, rfl, fun _ _ => by simp [System.spins]⟩,
      by simp [Event.silent]⟩
  · rw [he]
    exact ⟨⟨rfl, rfl, rfl, rfl, rfl, rfl, rfl, fun _ _ => by simp [System.spins]⟩,
      by simp [Event.silent]⟩

theorem gives : ∀ (smphs : List SemaphoreId) {S : System Links} {A : System Sequences},
    SSim S A grounded →
      Quiet S (S.gives smphs).2 [] ∧ ∀ e ∈ (S.gives smphs).1, e.silent = true := by
  intro smphs
  induction smphs with
  | nil => intro S A _; exact ⟨refl S, by simp [System.gives]⟩
  | cons smph rest ih =>
    intro S A hs
    obtain ⟨h1, h2⟩ := give hs smph
    obtain ⟨h3, h4⟩ := ih (hs.give smph (grounded_entered _)).2
    refine ⟨h1.trans h3, fun e he => ?_⟩
    rcases List.mem_append.mp he with he | he
    · exact h2 e he
    · exact h4 e he

theorem switch {A : System Sequences} (hs : SSim S A grounded) (c : CoreId) :
    Quiet S (S.withKernel (scheduler_switch_context S.kernel c)) [] := by
  obtain ⟨lists, st, cur, hung, he, hb⟩ := switch_context_effect hs.kernel (c := c) fun _ _ => rfl
  rw [he]
  exact ⟨rfl, rfl, rfl, rfl, rfl, rfl, rfl, fun u mtx => by simp [System.spins, hb]⟩

/-- A tick takes the expired tasks off the wait lists. -/
theorem tick {A : System Sequences} (hs : SSim S A grounded) (c : CoreId)
    (smphs : List SemaphoreId) :
    ∃ ts es, (S.tick c smphs).1 = ts.map .expires ++ es ∧ (∀ e ∈ es, e.silent = true) ∧
      Quiet S (S.tick c smphs).2 ts := by
  have hs1 : SSim (S.withKernel (timer_tick_handler S.kernel c).2)
      (A.withKernel (timer_tick_handler A.kernel c).2) grounded :=
    ⟨hs.call, (hs.kernel.timer_tick_handler (fun u hu => absurd rfl hu)).2⟩
  have h1 : Quiet S (S.withKernel (timer_tick_handler S.kernel c).2)
      (timer_tick_handler S.kernel c).1 := by
    obtain ⟨lists, he⟩ := timer_tick_handler_effect S.kernel c
    generalize hts : (timer_tick_handler S.kernel c).1 = ts at he
    rw [he]
    refine ⟨rfl, rfl, rfl, rfl, rfl, rfl, rfl, fun u mtx => ?_⟩
    unfold System.spins
    by_cases hu : u ∈ ts <;> simp [hu]
  obtain ⟨h2, hes⟩ := gives smphs hs1
  have h3 := switch (hs1.gives smphs fun _ _ => grounded_entered _).2 c
  exact ⟨_, _, rfl, hes, (h1.trans h2).trans h3⟩

theorem block_until {w : Nat} (hr : S.kernel.current_state t ≠ .BLOCKED) :
    Quiet S ((S.withKernel (block_until S.kernel t w)).setCall t .delayed) [] := by
  obtain ⟨lists, he⟩ := block_until_effect S.kernel t w
  rw [he]
  exact ⟨rfl, rfl, rfl, rfl, rfl, rfl, rfl,
    spins_own hr (fun _ => by simp [Call.locks]) fun u hu => by simp [hu]⟩

theorem take {smph : SemaphoreId} {timeout_ms : Int} {deadline : Nat}
    (hr : S.kernel.current_state t ≠ .BLOCKED) :
    Quiet S (S.take t smph timeout_ms deadline).2 [] ∧
      ∀ e ∈ (S.take t smph timeout_ms deadline).1, e.silent = true := by
  unfold System.take
  obtain ⟨-, he⟩ | ⟨-, -, he⟩ | ⟨-, -, -, lists, wake, he⟩ :=
    semaphore_take_effect S.kernel smph t timeout_ms deadline <;>
  · rw [he]
    exact ⟨⟨rfl, rfl, rfl, rfl, rfl, rfl, rfl,
      spins_own hr (fun _ => by simp [Call.locks]) fun u hu => by simp [hu]⟩, by simp [Event.silent]⟩

theorem takeWake {smph : SemaphoreId} {timeout_ms : Int} {deadline : Nat}
    (hr : S.kernel.current_state t ≠ .BLOCKED) :
    Quiet S (S.takeWake t smph timeout_ms deadline).2 [] ∧
      ∀ e ∈ (S.takeWake t smph timeout_ms deadline).1, e.silent = true := by
  unfold System.takeWake semaphore_take_wake
  by_cases hw : S.kernel.wakeup_reason t = .RESOURCE_ACQUIRED
  · simp only [hw, if_true]
    have h1 : Quiet S (S.withKernel { S.kernel with
        wakeup_reason := update S.kernel.wakeup_reason t .NONE }) [] :=
      ⟨rfl, rfl, rfl, rfl, rfl, rfl, rfl, fun _ _ => by simp [System.spins]⟩
    exact ⟨h1.trans (set_call (by exact hr)), by simp [Event.silent]⟩
  · simp only [hw, if_false]
    exact ⟨set_call hr, by simp⟩

theorem proceed {es : List Event} (hr : S.kernel.current_state t ≠ .BLOCKED)
    (hp : S.proceed t = some (es, S')) :
    Quiet S S' [] ∧ ∀ e ∈ es, e.silent = true := by
  cases System.proceeds hp with
  | block_until _ => exact ⟨block_until hr, by simp⟩
  | delayed _ => exact ⟨set_call hr, by simp⟩
  | mutex_lock _ => exact ⟨set_call hr, by simp [Event.silent]⟩
  | semaphore_take _ => exact take hr
  | semaphore_wait _ => exact takeWake hr

/-! ## What a quiet step does to the view -/

theorem table (h : Quiet S S' ts) (ht : MutexTable S) : MutexTable S' := by
  refine ⟨fun mtx => ?_, fun u mtx hu => ?_, fun mtx hm => ?_, fun u => ?_, fun mtx hm => ?_⟩
  · rw [h.state, h.owner]; exact ht.locked mtx
  · rw [h.state]; exact ht.waiting u mtx ((h.spins u mtx).mp hu).2
  · rw [h.inherited]; exact ht.idle mtx (h.state ▸ hm)
  · rw [h.owner, h.enabled, h.held]; exact ht.held u
  · exact ht.address mtx (h.owner ▸ hm)

end Quiet

/-- What the expiries of a tick add to the record. -/
theorem History.fold_expires (K K' : Kernel Links) (ts : List Tcb) : ∀ H : History,
    ((ts.map Event.expires).foldl (History.note K K') H).seen = H.seen ∧
    ((ts.map Event.expires).foldl (History.note K K') H).kept = H.kept ∧
    ∀ mtx, ((ts.map Event.expires).foldl (History.note K K') H).stale mtx = true ↔
      H.stale mtx = true ∨ ∃ t ∈ ts, K.inheritance_enabled mtx = true ∧ t ∈ waiters K mtx ∧
        K.priority t = K.inherited_priority mtx ∧
        ∀ u ∈ waiters K' mtx, K.priority u ≠ K.inherited_priority mtx := by
  induction ts with
  | nil => intro H; exact ⟨rfl, rfl, fun mtx => by simp⟩
  | cons t ts ih =>
    intro H
    obtain ⟨h1, h2, h3⟩ := ih (H.note K K' (.expires t))
    refine ⟨h1, h2, fun mtx => ?_⟩
    rw [List.map_cons, List.foldl_cons, h3]
    simp only [History.note, Bool.or_eq_true, Bool.and_eq_true, decide_eq_true_eq, List.mem_cons,
      exists_eq_or_imp, or_assoc]

/-- The view of a state whose mutexes wait as `waits` says. -/
theorem System.waits_for_eq {S : System Links} {t : Tcb} {x : Option MutexId}
    (h : ∀ mtx, S.waits_for t = some mtx ↔ x = some mtx) : S.waits_for t = x := by
  cases x with
  | none =>
    cases hw : S.waits_for t with
    | none => rfl
    | some m => exact absurd ((h m).mp hw) nofun
  | some m => exact (h m).mpr rfl

theorem Quiet.view {X : Watched} {A A' : System Sequences} {S' : System Links} {ts : List Tcb}
    {es : List Event} (hs : SSim X.system A grounded) (hs' : SSim S' A' grounded)
    (h : Quiet X.system S' ts) (hes : ∀ e ∈ es, e.silent = true) :
    (Watched.mk S' ((ts.map Event.expires ++ es).foldl (History.note X.system.kernel S'.kernel)
      X.history)).view = X.view.leave ts := by
  rw [List.foldl_append, History.fold_silent hes]
  obtain ⟨h1, h2, h3⟩ := History.fold_expires X.system.kernel S'.kernel ts X.history
  unfold Watched.view Inheritance.leave
  dsimp only
  rw [h1, h2, h.base, h.priority, h.owner, h.enabled, h.inherited]
  congr 1
  · funext u
    refine System.waits_for_eq fun mtx => ?_
    rw [waits_for_iff, h.spins, h.enabled]
    by_cases hu : u ∈ ts
    · simp [hu]
    · simp [hu, waits_for_iff]
  · funext mtx
    apply propext
    rw [h3]
    by_cases he : X.system.kernel.inheritance_enabled mtx = true
    · simp only [he, if_true, true_and, waits_for_iff, and_true, mem_waiters hs, mem_waiters hs',
        h.spins]
      apply or_congr Iff.rfl
      constructor
      · rintro ⟨t, ht, hw, hp, hall⟩
        exact ⟨⟨t, ht, hw, hp⟩, fun u hu hw => hall u ⟨hu, hw⟩⟩
      · rintro ⟨⟨t, ht, hw, hp⟩, hall⟩
        exact ⟨t, ht, hw, hp, fun u hu => hall u hu.1 hu.2⟩
    · simp [he, waits_for_iff]

/-! ## What the other steps do -/

/-- A step is one operation on the view, and only `mutex_lock` makes a task wait. -/
structure Follows (X X' : Watched) (a : Action) : Prop where
  step : X.view.Step X'.view
  table : MutexTable X'.system
  spins : ∀ t mtx, X'.system.spins t mtx → X.system.spins t mtx ∨
    ∃ timeout_ms, a = .mutex_lock t mtx timeout_ms

theorem Quiet.follows {X : Watched} {A A' : System Sequences} {S' : System Links} {ts : List Tcb}
    {es : List Event} {a : Action} (hs : SSim X.system A grounded) (hs' : SSim S' A' grounded)
    (ht : MutexTable X.system) (h : Quiet X.system S' ts) (hes : ∀ e ∈ es, e.silent = true) :
    Follows X ⟨S', (ts.map Event.expires ++ es).foldl (History.note X.system.kernel S'.kernel)
      X.history⟩ a where
  step := by rw [h.view hs hs' hes]; exact .leave ts
  table := h.table ht
  spins t mtx hw := .inl ((h.spins t mtx).mp hw).2

/-- The same for a step that no task leaves a wait list in. -/
theorem Quiet.follows_nil {X : Watched} {A A' : System Sequences} {S' : System Links}
    {es : List Event} {a : Action} (hs : SSim X.system A grounded) (hs' : SSim S' A' grounded)
    (ht : MutexTable X.system) (h : Quiet X.system S' []) (hes : ∀ e ∈ es, e.silent = true) :
    Follows X ⟨S', es.foldl (History.note X.system.kernel S'.kernel) X.history⟩ a := by
  simpa using h.follows (a := a) hs hs' ht hes

theorem idle_eq_bot : TASK_PRIORITY_IDLE = (⊥ : TaskPriorityLevel) := rfl

/-! ## A new task, and `mutex_set_inheritance` -/

/-- A task that did not exist is made with the priority `p`. -/
theorem Follows.new_task {X : Watched} {A : System Sequences} {K : Kernel Links} {t : Tcb}
    {p : TaskPriorityLevel} {a : Action} (hs : SSim X.system A grounded)
    (ht : MutexTable X.system) (hc : X.system.kernel.created t = false)
    (hst : K.mutex_state = X.system.kernel.mutex_state)
    (ho : K.mutex_owner = X.system.kernel.mutex_owner)
    (he : K.inheritance_enabled = X.system.kernel.inheritance_enabled)
    (hi : K.inherited_priority = X.system.kernel.inherited_priority)
    (hh : K.mutexes_held = update X.system.kernel.mutexes_held t 0)
    (hb : K.base_priority = update X.system.kernel.base_priority t p)
    (hp : K.priority = update X.system.kernel.priority t p)
    (hcs : K.current_state = update X.system.kernel.current_state t .READY) :
    Follows X ⟨X.system.withKernel K, X.history⟩ a := by
  have hown : ∀ mtx, X.system.kernel.mutex_owner mtx ≠ some t := by
    intro mtx hm
    rw [hs.kernel.owners mtx t hm] at hc; cases hc
  have hcall : X.system.call t = .own := hs.kernel.tasks.fresh t hc
  have hno : ∀ mtx, ¬ X.system.spins t mtx := by
    rintro mtx ⟨-, hl⟩
    rw [hcall] at hl; cases hl
  have hspins : ∀ u mtx, (X.system.withKernel K).spins u mtx ↔ X.system.spins u mtx := by
    intro u mtx
    by_cases hut : u = t
    · subst hut
      refine iff_of_false ?_ (hno mtx)
      rintro ⟨-, hl⟩
      rw [System.withKernel_call, hcall] at hl; cases hl
    · simp [System.spins, hcs, hut]
  refine ⟨?_, ?_, fun u mtx hw => .inl ((hspins u mtx).mp hw)⟩
  · have hview : (Watched.mk (X.system.withKernel K) X.history).view = X.view.create t p := by
      unfold Watched.view Inheritance.create
      simp only [System.withKernel_kernel, ho, he, hi, hb, hp]
      congr 1
      funext u
      refine System.waits_for_eq fun mtx => ?_
      rw [waits_for_iff, waits_for_iff, hspins]
      simp [he]
    rw [hview]
    refine .create (fun mtx hm => ?_) ?_
    · unfold Watched.view at hm
      dsimp only at hm
      split at hm
      · exact hown mtx hm
      · cases hm
    · exact System.waits_for_eq fun mtx => by simp [waits_for_iff, hno]
  · refine ⟨fun mtx => ?_, fun u mtx hw => ?_, fun mtx hm => ?_, fun u => ?_, fun mtx hm => ?_⟩
    · simp only [System.withKernel_kernel, hst, ho]; exact ht.locked mtx
    · simp only [System.withKernel_kernel, hst]; exact ht.waiting u mtx ((hspins u mtx).mp hw)
    · simp only [System.withKernel_kernel, hst, hi] at hm ⊢; exact ht.idle mtx hm
    · simp only [System.withKernel_kernel, he, ho, hh]
      by_cases hut : u = t
      · subst hut
        exact ⟨∅, by simp [hown], by simp⟩
      · rw [update_of_ne hut]; exact ht.held u
    · simp only [System.withKernel_kernel, ho] at hm; exact ht.address mtx hm

theorem scheduler_init_stores (K : Kernel Links) (c : CoreId) :
    ∃ lists s sd id core wake reason tick init, scheduler_init K c = { K with
      lists := lists, stack_base0 := s, stack_depth := sd, task_id := id, core_id := core
      wakeup_time := wake, wakeup_reason := reason, tick_count := tick, initialised := init
      priority := update K.priority (.idle c) TASK_PRIORITY_IDLE
      base_priority := update K.base_priority (.idle c) TASK_PRIORITY_IDLE
      mutexes_held := update K.mutexes_held (.idle c) 0
      current_state := update K.current_state (.idle c) .READY } := by
  unfold scheduler_init
  simp only [scheduler_add_to_ready_list, update_idem]
  exact ⟨_, _, _, _, _, _, _, _, _, rfl⟩

theorem task_create_stores (K : Kernel Links) (c : CoreId) (d prio : Nat) :
    (∃ s, (task_create K c d prio).2.2 = { K with stack_base0 := s }) ∨
    ∃ t p, K.created t = false ∧ ∃ lists off s sd id core cnt wake reason,
      (task_create K c d prio).2.2 = { K with
        lists := lists, heap_offset := off, stack_base0 := s, stack_depth := sd, task_id := id
        core_id := core, task_counter := cnt, wakeup_time := wake, wakeup_reason := reason
        priority := update K.priority t p
        base_priority := update K.base_priority t p
        mutexes_held := update K.mutexes_held t 0
        current_state := update K.current_state t .READY } := by
  unfold task_create
  split
  · rename_i hn
    dsimp only
    split
    · exact .inl ⟨_, rfl⟩
    · refine .inr ⟨.pool c ⟨K.task_counter c, hn⟩,
        if hp : prio < NUM_TASK_PRIORITIES then ⟨prio, hp⟩ else ⟨NUM_TASK_PRIORITIES - 1, by decide⟩,
        by simp [is_created], ?_⟩
      simp only [scheduler_add_to_ready_list, update_idem]
      exact ⟨_, _, _, _, _, _, _, _, _, rfl⟩
  · exact .inl ⟨K.stack_base0, rfl⟩

/-- `mutex_set_inheritance` finds the mutex free, or does nothing. -/
theorem Follows.set_inheritance {X : Watched} {mtx : MutexId} {enable : Bool} {a : Action}
    (ht : MutexTable X.system) :
    Follows X ⟨X.system.withKernel (mutex_set_inheritance X.system.kernel mtx enable).2,
      X.history⟩ a := by
  unfold mutex_set_inheritance
  split
  · exact ⟨.refl, ht, fun _ _ hw => .inl hw⟩
  · rename_i hg
    have hfree : X.system.kernel.mutex_state mtx ≠ .LOCKED := fun hl => hg (.inl hl)
    have ho := ht.unlocked hfree
    have hi := ht.idle mtx hfree
    have hview : (Watched.mk (X.system.withKernel { X.system.kernel with
        inheritance_enabled := update X.system.kernel.inheritance_enabled mtx enable })
        X.history).view = X.view := by
      unfold Watched.view
      simp only [System.withKernel_kernel]
      congr 1
      · refine funext_at mtx ?_ fun m hm => ?_
        · simp [ho]
        · simp [hm]
      · refine funext_at mtx ?_ fun m hm => ?_
        · rw [hi]
          simp [idle_eq_bot]
        · simp [hm]
      · funext u
        refine System.waits_for_eq fun m => ?_
        rw [waits_for_iff, waits_for_iff]
        refine and_congr_right fun hw => ?_
        have hm : m ≠ mtx := by rintro rfl; exact hfree (ht.waiting u m hw)
        simp [hm]
    refine ⟨by rw [hview]; exact .refl, ⟨ht.locked, ht.waiting, ht.idle, fun u => ?_, ht.address⟩,
      fun _ _ hw => .inl hw⟩
    obtain ⟨ms, hms, hcard⟩ := ht.held u
    refine ⟨ms, fun m => ?_, hcard⟩
    rw [hms m]
    refine and_congr_left fun hm => ?_
    have hne : m ≠ mtx := by
      rintro rfl
      have hm : X.system.kernel.mutex_owner m = some u := hm
      rw [ho] at hm; cases hm
    simp [hne]

/-! ## `mutex_lock` -/

/-- What `mutex_lock` stores when it waits for a mutex with inheritance. -/
theorem mutex_lock_waits {K : Kernel Links} {mtx : MutexId} {t o : Tcb} {timeout_ms : Int}
    (hu : K.mutex_state mtx ≠ .UNLOCKED) (hto : timeout_ms ≠ 0)
    (he : K.inheritance_enabled mtx = true) (ho : K.mutex_owner mtx = some o) :
    ∃ lists wake, mutex_lock K mtx t timeout_ms = (none, { K with
      lists := lists, wakeup_time := wake
      inherited_priority := update K.inherited_priority mtx
        (max (K.inherited_priority mtx) (K.priority t))
      priority := update K.priority o
        (max (K.priority o) (max (K.inherited_priority mtx) (K.priority t)))
      current_state := update K.current_state t .BLOCKED }) := by
  rw [mutex_lock_blocks_eq hu hto]
  obtain ⟨lists, wake, h1⟩ := enter_wait_effect K (.mutex_blocked_list mtx) t timeout_ms
    (u64 (K.tick_count t.home + timeout_ms.toNat))
  rw [h1]
  obtain ⟨lists', h2⟩ := mutex_inherit_stores (K := { K with
    lists := lists, wakeup_time := wake, current_state := update K.current_state t .BLOCKED })
    (t := t) (o := o) he ho
  exact ⟨lists', wake, by rw [h2]⟩

theorem mutex_lock_waits_disabled {K : Kernel Links} {mtx : MutexId} {t : Tcb} {timeout_ms : Int}
    (hu : K.mutex_state mtx ≠ .UNLOCKED) (hto : timeout_ms ≠ 0)
    (he : K.inheritance_enabled mtx = false) :
    ∃ lists wake, mutex_lock K mtx t timeout_ms = (none, { K with
      lists := lists, wakeup_time := wake
      current_state := update K.current_state t .BLOCKED }) := by
  rw [mutex_lock_blocks_eq hu hto]
  obtain ⟨lists, wake, h1⟩ := enter_wait_effect K (.mutex_blocked_list mtx) t timeout_ms
    (u64 (K.tick_count t.home + timeout_ms.toNat))
  rw [h1, mutex_inherit_disabled (by exact he)]
  exact ⟨lists, wake, rfl⟩

namespace Follows

variable {X : Watched} {t o w : Tcb} {mtx : MutexId} {timeout_ms : Int} {a : Action}

/-- `mutex_lock` finds the mutex unlocked. -/
theorem lock_free {held : Tcb → Nat} (ht : MutexTable X.system) (hm : mtx < MAX_MUTEXES)
    (hr : X.system.kernel.current_state t ≠ .BLOCKED)
    (hu : X.system.kernel.mutex_state mtx = .UNLOCKED)
    (hh : held = if X.system.kernel.inheritance_enabled mtx then
      update X.system.kernel.mutexes_held t (u32 (X.system.kernel.mutexes_held t + 1))
      else X.system.kernel.mutexes_held) :
    Follows X ⟨X.system.withKernel { X.system.kernel with
      mutex_state := update X.system.kernel.mutex_state mtx .LOCKED
      mutex_owner := update X.system.kernel.mutex_owner mtx (some t)
      mutexes_held := held }, X.history⟩ a := by
  have hfree : X.system.kernel.mutex_state mtx ≠ .LOCKED := by rw [hu]; decide
  have ho := ht.unlocked hfree
  refine ⟨?_, ⟨fun m => ?_, fun u m hw => ?_, fun m hl => ?_, fun u => ?_, fun m hl => ?_⟩,
    fun _ _ hw => .inl hw⟩
  · by_cases he : X.system.kernel.inheritance_enabled mtx = true
    · have hview : (Watched.mk (X.system.withKernel { X.system.kernel with
          mutex_state := update X.system.kernel.mutex_state mtx .LOCKED
          mutex_owner := update X.system.kernel.mutex_owner mtx (some t)
          mutexes_held := held }) X.history).view = X.view.grant t mtx := by
        unfold Watched.view Inheritance.grant
        simp only [System.withKernel_kernel]
        congr 1
        refine funext_at mtx ?_ fun m hmm => ?_
        · simp [he]
        · simp [hmm]
      rw [hview]
      refine .grant ?_ ?_
      · show (if _ then X.system.kernel.mutex_owner mtx else none) = none
        rw [ho, ite_self]
      · exact System.waits_for_eq fun m => by simp [waits_for_iff, System.spins, hr]
    · have hview : (Watched.mk (X.system.withKernel { X.system.kernel with
          mutex_state := update X.system.kernel.mutex_state mtx .LOCKED
          mutex_owner := update X.system.kernel.mutex_owner mtx (some t)
          mutexes_held := held }) X.history).view = X.view := by
        unfold Watched.view
        simp only [System.withKernel_kernel]
        congr 1
        refine funext_at mtx ?_ fun m hmm => ?_
        · simp [he]
        · simp [hmm]
      rw [hview]; exact .refl
  · by_cases hmm : m = mtx
    · subst hmm; simp
    · simpa [hmm] using ht.locked m
  · by_cases hmm : m = mtx
    · subst hmm; simp
    · simpa [hmm] using ht.waiting u m hw
  · have hmm : m ≠ mtx := by rintro rfl; simp at hl
    exact ht.idle m (by simpa [hmm] using hl)
  · simp only [System.withKernel_kernel, hh]
    by_cases he : X.system.kernel.inheritance_enabled mtx = true
    · rw [if_pos he]
      by_cases hut : u = t
      · subst hut
        rw [update_self]
        exact ht.held_up hm he (by rw [ho]; exact (Option.some_ne_none u).symm)
      · rw [update_of_ne hut]
        obtain ⟨ms, hms, hcard⟩ := ht.held u
        refine ⟨ms, fun m => ?_, hcard⟩
        rw [hms m]
        by_cases hmm : m = mtx
        · subst hmm; simp [ho, Ne.symm hut]
        · simp [hmm]
    · rw [if_neg he]
      obtain ⟨ms, hms, hcard⟩ := ht.held u
      refine ⟨ms, fun m => ?_, hcard⟩
      rw [hms m]
      by_cases hmm : m = mtx
      · subst hmm; simp [he]
      · simp [hmm]
  · by_cases hmm : m = mtx
    · subst hmm; exact hm
    · exact ht.address m (by simpa [hmm] using hl)

/-- `mutex_lock` waits: what it does to the wait lists. -/
theorem spins_lock {S' : System Links} (hcs : S'.kernel.current_state =
      update X.system.kernel.current_state t .BLOCKED)
    (hcall : S'.call = update X.system.call t (.mutex_lock mtx timeout_ms)) (u : Tcb)
    (m : MutexId) : S'.spins u m ↔ (u = t ∧ m = mtx) ∨ (u ≠ t ∧ X.system.spins u m) := by
  unfold System.spins
  rw [hcs, hcall]
  by_cases hut : u = t
  · subst hut; simp [Call.locks, eq_comm]
  · simp [hut]

/-- `mutex_lock` waits, for a mutex with inheritance. -/
theorem lock_waits {lists : Links} {wake : Tcb → Nat} (ht : MutexTable X.system)
    (hr : X.system.kernel.current_state t ≠ .BLOCKED)
    (hl : X.system.kernel.mutex_state mtx = .LOCKED)
    (he : X.system.kernel.inheritance_enabled mtx = true)
    (ho : X.system.kernel.mutex_owner mtx = some o) {S' : System Links}
    (hS : S' = (X.system.withKernel { X.system.kernel with
      lists := lists, wakeup_time := wake
      inherited_priority := update X.system.kernel.inherited_priority mtx
        (max (X.system.kernel.inherited_priority mtx) (X.system.kernel.priority t))
      priority := update X.system.kernel.priority o (max (X.system.kernel.priority o)
        (max (X.system.kernel.inherited_priority mtx) (X.system.kernel.priority t)))
      current_state := update X.system.kernel.current_state t .BLOCKED }).setCall t
        (.mutex_lock mtx timeout_ms)) :
    Follows X ⟨S', X.history.note X.system.kernel S'.kernel (.lock_waits t mtx)⟩
      (.mutex_lock t mtx timeout_ms) := by
  have hspins : ∀ u m, S'.spins u m ↔ (u = t ∧ m = mtx) ∨ (u ≠ t ∧ X.system.spins u m) :=
    spins_lock (by rw [hS]; rfl) (by rw [hS]; rfl)
  have hno : ∀ m, ¬ X.system.spins t m := fun m hw => hr hw.1
  refine ⟨?_, ?_, fun u m hw => ?_⟩
  · have hview : (Watched.mk S' (X.history.note X.system.kernel S'.kernel
        (.lock_waits t mtx))).view = X.view.wait t mtx o := by
      have hwaits : S'.waits_for = update X.system.waits_for t (some mtx) := by
        funext u
        refine System.waits_for_eq fun m => ?_
        rw [waits_for_iff, hspins, hS]
        by_cases hut : u = t
        · subst hut
          simp only [true_and, ne_eq, not_true, false_and, or_false, update_self, Option.some.injEq]
          constructor
          · rintro ⟨rfl, -⟩; rfl
          · rintro rfl; exact ⟨rfl, he⟩
        · simp [hut, waits_for_iff]
      unfold Watched.view Inheritance.wait
      rw [hwaits, hS]
      simp only [System.setCall_kernel, System.withKernel_kernel, History.note, he, if_true]
      congr 1
      · refine funext_at mtx ?_ fun m hmm => ?_
        · simp [he]
        · simp [hmm]
      · refine funext_at mtx ?_ fun m hmm => ?_
        · simp
        · simp [hmm]
    rw [hview]
    refine .wait ?_ ?_
    · show (if _ then X.system.kernel.mutex_owner mtx else none) = some o
      rw [if_pos he, ho]
    · exact System.waits_for_eq fun m => by simp [waits_for_iff, hno]
  · subst hS
    refine ⟨ht.locked, fun u m hw => ?_, fun m hl' => ?_, ht.held, ht.address⟩
    · rcases (hspins u m).mp hw with ⟨-, rfl⟩ | ⟨-, hw⟩
      · exact hl
      · exact ht.waiting u m hw
    · have hmm : m ≠ mtx := by rintro rfl; exact hl' hl
      simpa [hmm] using ht.idle m hl'
  · rcases (hspins u m).mp hw with ⟨rfl, rfl⟩ | ⟨-, hw⟩
    · exact .inr ⟨timeout_ms, rfl⟩
    · exact .inl hw

/-- `mutex_lock` waits, for a mutex without inheritance. -/
theorem lock_waits_disabled {lists : Links} {wake : Tcb → Nat} (ht : MutexTable X.system)
    (hr : X.system.kernel.current_state t ≠ .BLOCKED)
    (hl : X.system.kernel.mutex_state mtx = .LOCKED)
    (he : X.system.kernel.inheritance_enabled mtx = false) {S' : System Links}
    (hS : S' = (X.system.withKernel { X.system.kernel with
      lists := lists, wakeup_time := wake
      current_state := update X.system.kernel.current_state t .BLOCKED }).setCall t
        (.mutex_lock mtx timeout_ms)) :
    Follows X ⟨S', X.history⟩ (.mutex_lock t mtx timeout_ms) := by
  have hspins : ∀ u m, S'.spins u m ↔ (u = t ∧ m = mtx) ∨ (u ≠ t ∧ X.system.spins u m) :=
    spins_lock (by rw [hS]; rfl) (by rw [hS]; rfl)
  have hno : ∀ m, ¬ X.system.spins t m := fun m hw => hr hw.1
  refine ⟨?_, ?_, fun u m hw => ?_⟩
  · have hview : (Watched.mk S' X.history).view = X.view := by
      have hwaits : S'.waits_for = X.system.waits_for := by
        funext u
        refine System.waits_for_eq fun m => ?_
        rw [waits_for_iff, waits_for_iff, hspins, hS]
        by_cases hut : u = t
        · subst hut
          refine iff_of_false ?_ fun h => hno m h.1
          rintro ⟨⟨-, rfl⟩ | ⟨h, -⟩, h'⟩
          · exact absurd h' (by simp [he])
          · exact h rfl
        · simp [hut]
      unfold Watched.view
      rw [hwaits, hS]
      rfl
    rw [hview]; exact .refl
  · subst hS
    refine ⟨ht.locked, fun u m hw => ?_, ht.idle, ht.held, ht.address⟩
    rcases (hspins u m).mp hw with ⟨-, rfl⟩ | ⟨-, hw⟩
    · exact hl
    · exact ht.waiting u m hw
  · rcases (hspins u m).mp hw with ⟨rfl, rfl⟩ | ⟨-, hw⟩
    · exact .inr ⟨timeout_ms, rfl⟩
    · exact .inl hw

/-- `mutex_lock`, up to its spin. -/
theorem lock {es : List Event} {S' : System Links} (ht : MutexTable X.system)
    (hm : mtx < MAX_MUTEXES) (hr : X.system.kernel.current_state t ≠ .BLOCKED)
    (hS : X.system.lock t mtx timeout_ms = (es, S')) :
    Follows X ⟨S', es.foldl (History.note X.system.kernel S'.kernel) X.history⟩
      (.mutex_lock t mtx timeout_ms) := by
  unfold System.lock at hS
  by_cases hu : X.system.kernel.mutex_state mtx = .UNLOCKED
  · unfold mutex_lock at hS
    rw [if_pos hu] at hS
    obtain ⟨rfl, rfl⟩ := Prod.mk.inj hS
    exact lock_free ht hm hr hu rfl
  · by_cases hto : timeout_ms = 0
    · unfold mutex_lock at hS
      rw [if_neg hu, if_pos hto] at hS
      obtain ⟨rfl, rfl⟩ := Prod.mk.inj hS
      exact ⟨.refl, ht, fun _ _ hw => .inl hw⟩
    · have hl : X.system.kernel.mutex_state mtx = .LOCKED := by
        cases h : X.system.kernel.mutex_state mtx with
        | LOCKED => rfl
        | UNLOCKED => exact absurd h hu
      obtain ⟨o, ho⟩ := Option.ne_none_iff_exists'.mp ((ht.locked mtx).mp hl)
      by_cases he : X.system.kernel.inheritance_enabled mtx = true
      · obtain ⟨lists, wake, hk⟩ := mutex_lock_waits (t := t) hu hto he ho
        rw [hk] at hS
        obtain ⟨rfl, hS'⟩ := Prod.mk.inj hS
        exact lock_waits ht hr hl he ho hS'.symm
      · obtain ⟨lists, wake, hk⟩ := mutex_lock_waits_disabled (t := t) hu hto (by simpa using he)
        rw [hk] at hS
        obtain ⟨rfl, hS'⟩ := Prod.mk.inj hS
        have hn : X.history.note X.system.kernel S'.kernel (.lock_waits t mtx) = X.history :=
          if_neg he
        rw [List.foldl_cons, List.foldl_nil, hn]
        exact lock_waits_disabled ht hr hl (by simpa using he) hS'.symm

/-! ## `mutex_unlock` -/

theorem view_inherited (he : X.system.kernel.inheritance_enabled mtx = true) :
    X.view.inherited mtx = X.system.kernel.inherited_priority mtx := if_pos he

/-- `mutexes_held` and the library agree on whether the holder keeps a mutex. -/
theorem ownsOther_iff (ht : MutexTable X.system)
    (he : X.system.kernel.inheritance_enabled mtx = true)
    (ho : X.system.kernel.mutex_owner mtx = some o) :
    X.view.OwnsOther o mtx ↔ X.system.kernel.held_down o o ≠ 0 := by
  rw [ne_eq, ht.held_zero he ho, not_not]
  unfold Inheritance.OwnsOther
  refine exists_congr fun m => and_congr_right fun _ => ?_
  show (if _ then X.system.kernel.mutex_owner m else none) = some o ↔ _
  by_cases hm : X.system.kernel.inheritance_enabled m = true <;> simp [hm]

theorem restored_eq (ht : MutexTable X.system)
    (he : X.system.kernel.inheritance_enabled mtx = true)
    (ho : X.system.kernel.mutex_owner mtx = some o) :
    X.view.restored mtx o = X.system.kernel.priority_down o := by
  unfold Inheritance.restored Kernel.priority_down
  by_cases hz : X.system.kernel.held_down o o = 0
  · rw [if_neg fun h => (ownsOther_iff ht he ho).mp h hz, if_pos hz]; rfl
  · rw [if_pos ((ownsOther_iff ht he ho).mpr hz), if_neg hz]; rfl

theorem retained_eq (K' : Kernel Links) (ht : MutexTable X.system)
    (he : X.system.kernel.inheritance_enabled mtx = true)
    (ho : X.system.kernel.mutex_owner mtx = some o)
    (hh : K'.mutexes_held o = X.system.kernel.held_down o o) :
    (X.history.note X.system.kernel K' (.unlocks o mtx)).kept = X.view.retained mtx o := by
  unfold Inheritance.retained
  rw [History.note_unlocks he]
  dsimp only
  rw [hh]
  by_cases hz : X.system.kernel.held_down o o = 0
  · rw [if_neg fun h => (ownsOther_iff ht he ho).mp h hz, if_pos hz]; rfl
  · rw [if_pos ((ownsOther_iff ht he ho).mpr hz), if_neg hz]
    rw [view_inherited he]; rfl

/-- The holder gives the mutex up: `mutexes_held` still counts, for a task that does not get it. -/
theorem held_given_up {x : Option Tcb} (ht : MutexTable X.system)
    (he : X.system.kernel.inheritance_enabled mtx = true)
    (ho : X.system.kernel.mutex_owner mtx = some o) (hx : x ≠ some o) (u : Tcb)
    (hu : x ≠ some u) :
    ∃ ms : Finset MutexId, (∀ m, m ∈ ms ↔ X.system.kernel.inheritance_enabled m = true ∧
      update X.system.kernel.mutex_owner mtx x m = some u) ∧
      X.system.kernel.held_down o u = ms.card := by
  by_cases huo : u = o
  · subst huo; exact ht.held_down he ho hx
  · obtain ⟨ms, hms, hcard⟩ := ht.held u
    refine ⟨ms, fun m => ?_, by rw [Kernel.held_down, update_of_ne huo]; exact hcard⟩
    rw [hms m]
    by_cases hmm : m = mtx
    · subst hmm; simp [ho, hu, Ne.symm huo]
    · simp [hmm]

/-- `mutex_unlock` with nobody waiting. -/
theorem unlock_release {A : System Sequences} {lists : Links} (hs : SSim X.system A grounded)
    (ht : MutexTable X.system) (hr : X.system.kernel.current_state o ≠ .BLOCKED)
    (he : X.system.kernel.inheritance_enabled mtx = true)
    (ho : X.system.kernel.mutex_owner mtx = some o) (hw : waiters X.system.kernel mtx = [])
    {S' : System Links}
    (hS : S' = X.system.withKernel { X.system.kernel with
      lists := lists
      mutex_owner := update X.system.kernel.mutex_owner mtx none
      mutex_state := update X.system.kernel.mutex_state mtx .UNLOCKED
      inherited_priority := update X.system.kernel.inherited_priority mtx TASK_PRIORITY_IDLE
      mutexes_held := X.system.kernel.held_down o
      priority := X.system.kernel.priority_down o }) :
    Follows X ⟨S', X.history.note X.system.kernel S'.kernel (.unlocks o mtx)⟩ a := by
  have hno : ∀ u, ¬ X.system.spins u mtx := by
    intro u hu
    have := (mem_waiters hs).mpr hu
    rw [hw] at this; cases this
  refine ⟨?_, ?_, fun u m h => .inl ?_⟩
  · have hview : (Watched.mk S' (X.history.note X.system.kernel S'.kernel
        (.unlocks o mtx))).view = X.view.release mtx o := by
      have hk := retained_eq S'.kernel ht he ho (by rw [hS]; rfl)
      unfold Watched.view Inheritance.release
      dsimp only
      rw [hk, History.note_unlocks he, hS]
      dsimp only [System.withKernel_kernel]
      congr 1
      · exact (restored_eq ht he ho).symm
      · refine funext_at mtx ?_ fun m hmm => ?_
        · simp
        · simp [hmm]
      · refine funext_at mtx ?_ fun m hmm => ?_
        · simp [idle_eq_bot]
        · simp [hmm]
      · refine funext_at mtx ?_ fun m hmm => ?_
        · simp
        · simp [hmm]
    rw [hview]
    refine .release ?_ ?_ fun u hu => hno u ?_
    · show (if _ then X.system.kernel.mutex_owner mtx else none) = some o
      rw [if_pos he, ho]
    · exact System.waits_for_eq fun m => by simp [waits_for_iff, System.spins, hr]
    · exact (waits_for_iff.mp hu).1
  · subst hS
    refine ⟨fun m => ?_, fun u m h => ?_, fun m hm => ?_, fun u => ?_, fun m hm => ?_⟩
    · by_cases hmm : m = mtx
      · subst hmm; simp
      · simpa [hmm] using ht.locked m
    · have hmm : m ≠ mtx := by rintro rfl; exact hno u h
      simpa [hmm] using ht.waiting u m h
    · by_cases hmm : m = mtx
      · subst hmm; simp
      · simpa [hmm] using ht.idle m (by simpa [hmm] using hm)
    · exact held_given_up (x := none) ht he ho (Option.some_ne_none o).symm u (Option.some_ne_none u).symm
    · have hmm : m ≠ mtx := by rintro rfl; simp at hm
      exact ht.address m (by simpa [hmm] using hm)
  · subst hS; exact h

/-- `mutex_unlock` wakes the task it hands the mutex to. -/
theorem spins_handed {S' : System Links} (hcs : S'.kernel.current_state =
      update X.system.kernel.current_state w .READY) (hcall : S'.call = X.system.call) (u : Tcb)
    (m : MutexId) : S'.spins u m ↔ u ≠ w ∧ X.system.spins u m := by
  unfold System.spins
  rw [hcs, hcall]
  by_cases huw : u = w
  · subst huw; simp
  · simp [huw]

/-- `mutex_unlock` with tasks waiting. -/
theorem unlock_handOver {A : System Sequences} {lists : Links} {top : TaskPriorityLevel}
    (hs : SSim X.system A grounded) (ht : MutexTable X.system)
    (hr : X.system.kernel.current_state o ≠ .BLOCKED)
    (he : X.system.kernel.inheritance_enabled mtx = true)
    (ho : X.system.kernel.mutex_owner mtx = some o)
    (hscan : Scanned X.system.kernel.priority (waiters X.system.kernel mtx) (w, top))
    {S' : System Links}
    (hS : S' = X.system.withKernel { X.system.kernel with
      lists := lists
      mutex_owner := update X.system.kernel.mutex_owner mtx (some w)
      inherited_priority := update X.system.kernel.inherited_priority mtx top
      mutexes_held := update (X.system.kernel.held_down o) w
        (u32 (X.system.kernel.held_down o w + 1))
      priority := update (X.system.kernel.priority_down o) w
        (max (X.system.kernel.priority_down o w) top)
      current_state := update X.system.kernel.current_state w .READY }) :
    Follows X ⟨S', (X.history.note X.system.kernel S'.kernel (.unlocks o mtx)).note
      X.system.kernel S'.kernel (.lock_handed w mtx)⟩ a := by
  have hww : X.system.spins w mtx := (mem_waiters hs).mp hscan.mem
  have hwo : w ≠ o := by rintro rfl; exact hr hww.1
  have hspins : ∀ u m, S'.spins u m ↔ u ≠ w ∧ X.system.spins u m :=
    spins_handed (by rw [hS]; rfl) (by rw [hS]; rfl)
  have hmem : ∀ u, u ∈ waiters X.system.kernel mtx ↔ X.system.waits_for u = some mtx :=
    fun u => by rw [mem_waiters hs, waits_for_iff, and_iff_left he]
  refine ⟨?_, ?_, fun u m h => .inl ((hspins u m).mp h).2⟩
  · have hview : (Watched.mk S' ((X.history.note X.system.kernel S'.kernel
        (.unlocks o mtx)).note X.system.kernel S'.kernel (.lock_handed w mtx))).view =
          X.view.handOver mtx o w top := by
      have hk := retained_eq S'.kernel ht he ho (by
        rw [hS]; exact update_of_ne hwo.symm ..)
      have hwaits : S'.waits_for = update X.system.waits_for w none := by
        funext u
        refine System.waits_for_eq fun m => ?_
        rw [waits_for_iff, hspins, hS]
        by_cases huw : u = w
        · subst huw; simp
        · simp [huw, waits_for_iff]
      unfold Watched.view Inheritance.handOver
      dsimp only
      rw [History.note_handed he, hwaits]
      dsimp only
      rw [hk, History.note_unlocks he, hS]
      dsimp only [System.withKernel_kernel]
      congr 1
      · have hrest := restored_eq ht he ho
        unfold Watched.view at hrest
        rw [hrest]
      · refine funext_at mtx ?_ fun m hmm => ?_
        · simp [he]
        · simp [hmm]
      · refine funext_at mtx ?_ fun m hmm => ?_
        · simp [he]
        · simp [hmm]
      · funext u
        exact if_congr (and_congr_left fun _ => hmem u) rfl rfl
      · refine funext_at mtx ?_ fun m hmm => ?_
        · simp
        · simp [hmm]
    rw [hview]
    refine .handOver ?_ ?_ ((hmem w).mp hscan.mem) ⟨fun u hu hn => ?_, ?_⟩
    · show (if _ then X.system.kernel.mutex_owner mtx else none) = some o
      rw [if_pos he, ho]
    · exact System.waits_for_eq fun m => by simp [waits_for_iff, System.spins, hr]
    · exact hscan.le u ((hmem u).mpr hu) fun e => hn (by rw [e])
    · rcases hscan.source with hb | ⟨u, hu, hn, hp⟩
      · exact .inl hb
      · exact .inr ⟨u, (hmem u).mp hu, fun e => hn (Option.some.inj e).symm, hp⟩
  · have hl : X.system.kernel.mutex_state mtx = .LOCKED := ht.waiting w mtx hww
    subst hS
    refine ⟨fun m => ?_, fun u m h => ht.waiting u m ((hspins u m).mp h).2, fun m hm => ?_,
      fun u => ?_, fun m hm => ?_⟩
    · by_cases hmm : m = mtx
      · subst hmm; simp [hl]
      · simpa [hmm] using ht.locked m
    · have hmm : m ≠ mtx := by rintro rfl; exact hm hl
      simpa [hmm] using ht.idle m hm
    · by_cases huw : u = w
      · subst huw
        have hup := ht.held_up (t := u)
          (ht.address mtx (by rw [ho]; exact Option.some_ne_none o)) he
          (by rw [ho]; exact fun e => hwo (Option.some.inj e).symm)
        simpa [Kernel.held_down, update_of_ne hwo] using hup
      · simp only [System.withKernel_kernel, update_of_ne huw]
        exact held_given_up ht he ho (fun e => hwo (Option.some.inj e)) u
          fun e => huw (Option.some.inj e).symm
    · by_cases hmm : m = mtx
      · subst hmm; exact ht.address m (by rw [ho]; exact Option.some_ne_none o)
      · exact ht.address m (by simpa [hmm] using hm)

/-- `mutex_unlock` of a mutex without inheritance: it passes to `x`, and wakes it. -/
theorem unlock_disabled {K : Kernel Links} {x : Option Tcb} (ht : MutexTable X.system)
    (he : X.system.kernel.inheritance_enabled mtx = false)
    (hen : K.inheritance_enabled = X.system.kernel.inheritance_enabled)
    (hst : K.mutex_state = if x = none then update X.system.kernel.mutex_state mtx .UNLOCKED
      else X.system.kernel.mutex_state)
    (ho : K.mutex_owner = update X.system.kernel.mutex_owner mtx x)
    (hi : ∀ m, m ≠ mtx → K.inherited_priority m = X.system.kernel.inherited_priority m)
    (hidle : x = none → K.inherited_priority mtx = TASK_PRIORITY_IDLE)
    (hl : X.system.kernel.mutex_state mtx = .LOCKED)
    (hown : X.system.kernel.mutex_owner mtx ≠ none)
    (hh : K.mutexes_held = X.system.kernel.mutexes_held)
    (hb : K.base_priority = X.system.kernel.base_priority)
    (hp : K.priority = X.system.kernel.priority)
    (hspins : ∀ u m, (X.system.withKernel K).spins u m ↔ x ≠ some u ∧ X.system.spins u m)
    (hnone : x = none → ∀ u, ¬ X.system.spins u mtx)
    (hwait : ∀ w, x = some w → X.system.spins w mtx) :
    Follows X ⟨X.system.withKernel K, X.history⟩ a := by
  refine ⟨?_, ⟨fun m => ?_, fun u m hw => ?_, fun m hm => ?_, fun u => ?_, fun m hm => ?_⟩,
    fun u m hw => .inl ((hspins u m).mp hw).2⟩
  · have hview : (Watched.mk (X.system.withKernel K) X.history).view = X.view := by
      unfold Watched.view
      simp only [System.withKernel_kernel, hen, ho, hb, hp]
      congr 1
      · refine funext_at mtx ?_ fun m hmm => ?_
        · simp [he]
        · simp [hmm]
      · refine funext_at mtx ?_ fun m hmm => ?_
        · simp [he]
        · rw [hi m hmm]
      · funext u
        refine System.waits_for_eq fun m => ?_
        rw [waits_for_iff, waits_for_iff, hspins]
        simp only [System.withKernel_kernel, hen, and_assoc]
        refine and_iff_right_of_imp fun hw hx => ?_
        -- the task that gets the mutex waited for this one, which has no inheritance
        have hmm : mtx = m := Option.some.inj ((hwait u hx).2.symm.trans hw.1.2)
        rw [← hmm, he] at hw
        cases hw.2
    rw [hview]; exact .refl
  · simp only [System.withKernel_kernel, hst, ho]
    by_cases hmm : m = mtx
    · subst hmm
      cases x with
      | none => simp
      | some w => simp [hl]
    · cases x with
      | none => simpa [hmm] using ht.locked m
      | some w => simpa [hmm] using ht.locked m
  · obtain ⟨-, hw⟩ := (hspins u m).mp hw
    simp only [System.withKernel_kernel, hst]
    cases x with
    | none =>
      have hmm : m ≠ mtx := by rintro rfl; exact hnone rfl u hw
      simpa [hmm] using ht.waiting u m hw
    | some w => simpa using ht.waiting u m hw
  · simp only [System.withKernel_kernel, hst] at hm ⊢
    by_cases hmm : m = mtx
    · subst hmm
      cases x with
      | none => exact hidle rfl
      | some w => exact absurd hl (by simpa using hm)
    · rw [hi m hmm]
      refine ht.idle m ?_
      cases x with
      | none => simpa [hmm] using hm
      | some w => simpa using hm
  · simp only [System.withKernel_kernel, hen, ho, hh]
    obtain ⟨ms, hms, hcard⟩ := ht.held u
    refine ⟨ms, fun m => ?_, hcard⟩
    rw [hms m]
    by_cases hmm : m = mtx
    · subst hmm; simp [he]
    · simp [hmm]
  · simp only [System.withKernel_kernel, ho] at hm
    by_cases hmm : m = mtx
    · subst hmm; exact ht.address m hown
    · exact ht.address m (by simpa [hmm] using hm)

/-- `mutex_unlock` by the owner. -/
theorem unlock {A : System Sequences} {es : List Event} {S' : System Links}
    (hs : SSim X.system A grounded) (ht : MutexTable X.system)
    (hr : X.system.kernel.current_state o ≠ .BLOCKED)
    (ho : X.system.kernel.mutex_owner mtx = some o) (hS : X.system.unlock o mtx = (es, S')) :
    Follows X ⟨S', es.foldl (History.note X.system.kernel S'.kernel) X.history⟩ a := by
  have hown : X.system.kernel.mutex_owner mtx ≠ none := by rw [ho]; exact Option.some_ne_none o
  have hl : X.system.kernel.mutex_state mtx = .LOCKED := (ht.locked mtx).mpr hown
  unfold System.unlock at hS
  by_cases he : X.system.kernel.inheritance_enabled mtx = true
  · obtain ⟨hw, lists, hk⟩ | ⟨w, top, lists, hscan, hk⟩ := mutex_unlock_stores hs.kernel hl ho he
    · rw [hk] at hS
      obtain ⟨rfl, hS'⟩ := Prod.mk.inj hS
      exact unlock_release hs ht hr he ho hw hS'.symm
    · rw [hk] at hS
      obtain ⟨rfl, hS'⟩ := Prod.mk.inj hS
      exact unlock_handOver hs ht hr he ho hscan hS'.symm
  · have hd : X.system.kernel.inheritance_enabled mtx = false := by simpa using he
    have hu : ∀ K', X.history.note X.system.kernel K' (.unlocks o mtx) = X.history :=
      fun K' => if_neg he
    have hh : ∀ K' w, X.history.note X.system.kernel K' (.lock_handed w mtx) = X.history :=
      fun K' w => if_neg he
    obtain ⟨hnil, lists, hk⟩ | ⟨w, top, lists, hmem, hk⟩ := mutex_unlock_disabled hs.kernel hl hd
    · rw [hk] at hS
      obtain ⟨rfl, rfl⟩ := Prod.mk.inj hS
      rw [List.foldl_cons, List.foldl_nil, hu]
      refine unlock_disabled (x := none) ht hd rfl rfl rfl (fun m hm => by simp [hm])
        (fun _ => by simp) hl hown rfl rfl rfl
        (fun u m => by simp [System.spins]) (fun _ u hw => ?_) fun w hw => by cases hw
      have hmem := (mem_waiters hs).mpr hw
      unfold waiters at hmem
      rw [hs.kernel.walk_left, hnil] at hmem
      cases hmem
    · rw [hk] at hS
      obtain ⟨rfl, rfl⟩ := Prod.mk.inj hS
      rw [List.foldl_cons, List.foldl_cons, List.foldl_nil, hu, hh]
      refine unlock_disabled (x := some w) ht hd rfl rfl rfl (fun m hm => by simp [hm]) (fun e => by cases e) hl
        hown rfl rfl rfl (fun u m => ?_) (fun e => by cases e) fun u hu => ?_
      · refine (spins_handed (X := X) (w := w) (by rfl) (by rfl) u m).trans (and_congr_left fun _ => ?_)
        exact ⟨fun h e => h (Option.some.inj e).symm, fun h e => h (by rw [e])⟩
      · obtain rfl := Option.some.inj hu
        refine (mem_waiters hs).mp ?_
        unfold waiters
        rw [hs.kernel.walk_left]
        exact List.mem_map.mpr ⟨_, hmem, rfl⟩

end Follows

/-! ## Every step -/

/-- Every step of the kernel is one operation of the inheritance. -/
theorem Watched.follows {X X' : Watched} {A : System Sequences} {a : Action}
    (hs : SSim X.system A grounded) (ht : MutexTable X.system) (ha : addressed X a)
    (hstep : X.step a = some X') : Follows X X' a := by
  unfold Watched.step at hstep
  cases hk : X.system.step a with
  | none => rw [hk] at hstep; cases hstep
  | some r =>
    obtain ⟨es, S'⟩ := r
    obtain ⟨A', -, hs'⟩ := hs.step_some hk
    rw [hk] at hstep
    cases hstep
    cases System.step_move hk with
    | @scheduler_init c hc =>
      obtain ⟨_, _, _, _, _, _, _, _, _, he⟩ := scheduler_init_stores X.system.kernel c
      rw [he]
      exact .new_task (t := .idle c) hs ht hc rfl rfl rfl rfl rfl rfl rfl rfl
    | @scheduler_start c _ _ => exact (Quiet.switch hs c).follows_nil hs hs' ht (by simp)
    | @tick c timer_gives _ =>
      obtain ⟨ts, es', h1, h2, h3⟩ := Quiet.tick hs c timer_gives
      rw [h1]
      exact h3.follows hs hs' ht h2
    | @task_create c d p _ =>
      obtain ⟨_, he⟩ | ⟨t, p', hc, _, _, _, _, _, _, _, _, _, he⟩ :=
        task_create_stores X.system.kernel c d p
      · refine Quiet.follows_nil hs hs' ht ?_ (by simp)
        rw [he]
        exact ⟨rfl, rfl, rfl, rfl, rfl, rfl, rfl, fun _ _ => by simp [System.spins]⟩
      · rw [he]
        exact .new_task hs ht hc rfl rfl rfl rfl rfl rfl rfl rfl
    | stack_write _ =>
      exact Quiet.follows_nil hs hs' ht
        ⟨rfl, rfl, rfl, rfl, rfl, rfl, rfl, fun _ _ => by simp [System.spins]⟩ (by simp)
    | task_delay_ms hf =>
      exact (Quiet.set_call (hs.running hf.1).2.1).follows_nil hs hs' ht (by simp)
    | task_delay_until_ms hf =>
      exact (Quiet.set_call (hs.running hf.1).2.1).follows_nil hs hs' ht (by simp)
    | mutex_set_inheritance => exact .set_inheritance ht
    | mutex_lock hf => exact .lock ht ha (hs.running hf.1).2.1 rfl
    | mutex_unlock hf ho => exact .unlock hs ht (hs.running hf.1).2.1 ho rfl
    | semaphore_take hf =>
      exact (Quiet.set_call (hs.running hf.1).2.1).follows_nil hs hs' ht (by simp [Event.silent])
    | @semaphore_give smph =>
      exact (Quiet.give hs smph).1.follows_nil hs hs' ht (Quiet.give hs smph).2
    | proceed hr hk =>
      obtain ⟨h1, h2⟩ := Quiet.proceed (hs.running hr).2.1 hk
      exact h1.follows_nil hs hs' ht h2

end Rpitos
