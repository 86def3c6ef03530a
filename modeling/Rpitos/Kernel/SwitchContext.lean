import Rpitos.Kernel.Effects

/-!
# Kernel.SwitchContext

What `scheduler_switch_context` selects. `NoneStarts`: outside of it no task becomes RUNNING, so in
every run only the current task of a core is (`Run.running_current`). `switch_context_selects`: a
switch selects the index task of the highest ready list that is not empty, and moves no index but that
of the task whose quantum has ended.
-/

namespace Rpitos

open Function ListOps StatusCode

/-! ## Which tasks run -/

/-- Only the current task of a core is RUNNING. -/
def Kernel.RunningCurrent {L : Type} (K : Kernel L) : Prop :=
  ∀ t, K.current_state t = .RUNNING → K.p_task_control_block t.home = some t

/-- No task starts to run, and no core changes its task. -/
structure NoneStarts {L : Type} (K K' : Kernel L) : Prop where
  current : K'.p_task_control_block = K.p_task_control_block
  running : ∀ t, K'.current_state t = .RUNNING → K.current_state t = .RUNNING
  initialised : ∀ c, K.initialised c = true → K'.initialised c = true

section NoneStarts

variable {L : Type} {K K' K'' : Kernel L}

theorem NoneStarts.refl (K : Kernel L) : NoneStarts K K := ⟨rfl, fun _ => id, fun _ => id⟩

theorem NoneStarts.trans (h : NoneStarts K K') (h' : NoneStarts K' K'') : NoneStarts K K'' :=
  ⟨h'.current.trans h.current, fun t ht => h.running t (h'.running t ht),
    fun c hc => h'.initialised c (h.initialised c hc)⟩

theorem Kernel.RunningCurrent.none_starts (h : K.RunningCurrent) (hn : NoneStarts K K') :
    K'.RunningCurrent := fun t ht => by rw [hn.current]; exact h t (hn.running t ht)

/-- One task goes to another state than RUNNING. -/
theorem NoneStarts.set_state {t : Tcb} {x : TaskState}
    (hcur : K'.p_task_control_block = K.p_task_control_block) (hinit : K'.initialised = K.initialised)
    (hst : K'.current_state = update K.current_state t x) (hx : x ≠ .RUNNING) : NoneStarts K K' := by
  refine ⟨hcur, fun u hu => ?_, fun c hc => hinit ▸ hc⟩
  rw [hst] at hu
  by_cases hut : u = t
  · subst hut
    rw [update_self] at hu
    exact (hx hu).elim
  · rwa [update_of_ne hut] at hu

/-- The states stay as they are. -/
theorem NoneStarts.same_states (hcur : K'.p_task_control_block = K.p_task_control_block)
    (hinit : K'.initialised = K.initialised) (hst : K'.current_state = K.current_state) :
    NoneStarts K K' := ⟨hcur, fun _ hu => hst ▸ hu, fun _ hc => hinit ▸ hc⟩

end NoneStarts

section Functions

variable {L : Type} [ListOps L ItemRef ListRef]

theorem timer_tick_none_starts (K : Kernel L) (c : CoreId) :
    NoneStarts K (timer_tick_handler K c).2 := by
  obtain ⟨lists, he⟩ := timer_tick_handler_effect K c
  rw [he]
  refine ⟨rfl, fun u hu => ?_, fun _ => id⟩
  dsimp only at hu
  split at hu
  · cases hu
  · exact hu

theorem block_until_none_starts (K : Kernel L) (t : Tcb) (w : Nat) :
    NoneStarts K (block_until K t w) := by
  obtain ⟨lists, he⟩ := block_until_effect K t w
  rw [he]
  exact .set_state rfl rfl rfl TaskState.noConfusion

theorem mutex_lock_none_starts (K : Kernel L) (mtx : MutexId) (t : Tcb) (timeout_ms : Int) :
    NoneStarts K (mutex_lock K mtx t timeout_ms).2 := by
  obtain ⟨-, _, he⟩ | ⟨-, -, he⟩ | ⟨-, -, _, _, _, _, he⟩ := mutex_lock_effect K mtx t timeout_ms
  · rw [he]
    exact .same_states rfl rfl rfl
  · rw [he]
    exact .refl K
  · rw [he]
    exact .set_state rfl rfl rfl TaskState.noConfusion

theorem semaphore_take_none_starts (K : Kernel L) (smph : SemaphoreId) (t : Tcb) (timeout_ms : Int)
    (deadline : Nat) : NoneStarts K (semaphore_take K smph t timeout_ms deadline).2 := by
  obtain ⟨-, he⟩ | ⟨-, -, he⟩ | ⟨-, -, -, _, _, he⟩ :=
    semaphore_take_effect K smph t timeout_ms deadline
  · rw [he]
    exact .same_states rfl rfl rfl
  · rw [he]
    exact .refl K
  · rw [he]
    exact .set_state rfl rfl rfl TaskState.noConfusion

theorem task_create_none_starts (K : Kernel L) (c : CoreId) (d p : Nat) :
    NoneStarts K (task_create K c d p).2.2 := by
  obtain ⟨_, he⟩ | ⟨_, -, _, _, _, _, _, _, _, _, _, _, _, he⟩ := task_create_effect K c d p
  · rw [he]
    exact .same_states rfl rfl rfl
  · rw [he]
    exact .set_state rfl rfl rfl TaskState.noConfusion

theorem scheduler_init_none_starts (K : Kernel L) (c : CoreId) :
    NoneStarts K (scheduler_init K c) := by
  obtain ⟨_, _, _, _, _, _, _, _, _, _, he⟩ := scheduler_init_effect K c
  rw [he]
  refine ⟨rfl, fun u hu => ?_, fun c' hc' => ?_⟩
  · by_cases hut : u = .idle c
    · subst hut
      simp at hu
    · simpa [hut] using hu
  · by_cases hcc : c' = c
    · subst hcc
      exact update_self ..
    · exact (update_of_ne hcc ..).trans hc'

end Functions

section Simulated

variable {K : Kernel Links} {S : Kernel Sequences} {call : Tcb → Call} {fl : Tcb → Flight}

theorem semaphore_give_none_starts (h : Sim K S call fl) (smph : SemaphoreId) :
    NoneStarts K (semaphore_give K smph).2.2 := by
  obtain ⟨_, _, _, -, he⟩ | ⟨-, -, he⟩ | ⟨-, -, he⟩ := semaphore_give_effect h smph
  · rw [he]
    exact .set_state rfl rfl rfl TaskState.noConfusion
  · rw [he]
    exact .same_states rfl rfl rfl
  · rw [he]
    exact .refl K

theorem mutex_unlock_none_starts (h : Sim K S call fl) (mtx : MutexId) :
    NoneStarts K (mutex_unlock K mtx).2 := by
  by_cases hl : K.mutex_state mtx = .LOCKED
  · obtain ⟨-, _, _, _, _, he⟩ | ⟨_, _, _, _, _, -, he⟩ := mutex_unlock_effect h hl
    · rw [he]
      exact .same_states rfl rfl rfl
    · rw [he]
      exact .set_state rfl rfl rfl TaskState.noConfusion
  · unfold mutex_unlock
    rw [if_neg hl]
    exact .refl K

end Simulated

/-! ## The two halves of a switch -/

theorem end_quantum_cases {L : Type} [ListOps L ItemRef ListRef] (K : Kernel L) (c : CoreId) :
    (∃ t, K.p_task_control_block c = some t ∧ K.current_state t = .RUNNING ∧
      end_quantum K c = { K with
        current_state := update K.current_state t .READY
        lists := advanceIndex K.lists (.ready_list c (K.priority t)) }) ∨
    (∀ t, K.p_task_control_block c = some t → K.current_state t ≠ .RUNNING) ∧
      end_quantum K c = K := by
  unfold end_quantum
  cases hcur : K.p_task_control_block c with
  | none =>
    refine .inr ⟨fun t h => ?_, rfl⟩
    cases h
  | some t =>
    dsimp only
    by_cases hrun : K.current_state t = .RUNNING
    · rw [if_pos hrun]
      exact .inl ⟨t, rfl, hrun, rfl⟩
    · rw [if_neg hrun]
      exact .inr ⟨fun u h => Option.some.inj h ▸ hrun, rfl⟩

/-- Behind the end of the quantum no task of the core is RUNNING. -/
theorem end_quantum_none_runs {L : Type} [ListOps L ItemRef ListRef] {K : Kernel L}
    (hr : K.RunningCurrent) {c : CoreId} {u : Tcb} (hu : u.home = c) :
    (end_quantum K c).current_state u ≠ .RUNNING := by
  intro hrun
  obtain ⟨t, hcur, -, he⟩ | ⟨hnot, he⟩ := end_quantum_cases K c
  · rw [he] at hrun
    by_cases hut : u = t
    · subst hut
      simp at hrun
    · simp only [update_of_ne hut] at hrun
      have hcur' := hr u hrun
      rw [hu, hcur] at hcur'
      exact hut (Option.some.inj hcur').symm
  · rw [he] at hrun
    have hcur := hr u hrun
    rw [hu] at hcur
    exact hnot u hcur hrun

theorem end_quantum_none_starts {L : Type} [ListOps L ItemRef ListRef] (K : Kernel L) (c : CoreId) :
    NoneStarts K (end_quantum K c) := by
  obtain ⟨t, -, -, he⟩ | ⟨-, he⟩ := end_quantum_cases K c
  · rw [he]
    exact .set_state rfl rfl rfl TaskState.noConfusion
  · rw [he]
    exact .refl K

/-- The priorities are looked at from the highest down. -/
theorem priorities_down_find {f : TaskPriorityLevel → Bool} {p : TaskPriorityLevel}
    (h : priorities_down.find? f = some p) : f p = true ∧ ∀ q, p < q → f q = false := by
  obtain ⟨hp, before, behind, hsplit, hnone⟩ := List.find?_eq_some_iff_append.mp h
  refine ⟨hp, fun q hq => ?_⟩
  have hdown : priorities_down.Pairwise (· > ·) := by decide
  have hall : q ∈ priorities_down := List.mem_reverse.mpr (List.mem_finRange q)
  rw [hsplit] at hall hdown
  rcases List.mem_append.mp hall with hmem | hmem
  · simpa using hnone q hmem
  · rcases List.mem_cons.mp hmem with rfl | hmem
    · exact absurd hq (lt_irrefl q)
    · have hbelow := (List.pairwise_cons.mp (List.pairwise_append.mp hdown).2.1).1 q hmem
      exact absurd hq (not_lt_of_gt hbelow)

section Select

variable {K : Kernel Links} {S : Kernel Sequences} {call : Tcb → Call} {fl : Tcb → Flight}
  {c : CoreId}

/-- The idle task never blocks, so it is in its ready list. -/
theorem idle_ready (h : Sim K S call fl) (hi : K.initialised c = true)
    (hl : (fl (.idle c)).left = none) :
    .state_list_item (.idle c) ∈ S.lists.list (.ready_list c (K.priority (.idle c))) := by
  have hcreated : K.created (.idle c) = true := hi
  have hne : K.current_state (.idle c) ≠ .BLOCKED := by
    intro hb
    have hspins := h.tasks.blocked _ hcreated hb
    rw [h.tasks.idle c] at hspins
    cases hspins
  have hcore : K.core_id (.idle c) = c := h.tasks.home _ hcreated
  have hhome := h.ready_home hcreated hne hl
  rw [hcore] at hhome
  exact h.linked.mem_state.mpr hhome

/-- The task that `select_next` selects. -/
theorem select_next_spec (h : Sim K S call fl) (hi : K.initialised c = true)
    (hl : (fl (.idle c)).left = none) : ∃ p t,
      S.lists.list (.ready_list c p) ≠ [] ∧ (∀ q, p < q → S.lists.list (.ready_list c q) = []) ∧
      S.lists.index (.ready_list c p) = some (.state_list_item t) ∧ t.home = c ∧
      select_next K c = { K with
        current_state := update K.current_state t .RUNNING
        p_task_control_block := update K.p_task_control_block c (some t) } := by
  have hnum : ∀ p, decide (0 < num_items K.lists (ListRef.ready_list c p)) = true ↔
      S.lists.list (.ready_list c p) ≠ [] := by
    intro p
    rw [decide_eq_true_eq, h.num_items_eq, h.num_items_pos]
  cases hp : priorities_down.find?
      (fun p => decide (0 < num_items K.lists (ListRef.ready_list c p))) with
  | none =>
    have hnone := List.find?_eq_none.mp hp (K.priority (.idle c))
      (List.mem_reverse.mpr (List.mem_finRange _))
    exact absurd ((hnum _).mpr (List.ne_nil_of_mem (idle_ready h hi hl))) hnone
  | some p =>
    obtain ⟨hne, hhigher⟩ := priorities_down_find hp
    rw [hnum] at hne
    obtain ⟨x, hx⟩ := Option.ne_none_iff_exists'.mp fun hnone =>
      hne ((h.linked.index_ok c p).1.mp hnone)
    obtain ⟨hk, -, -, -, -, hhome⟩ := h.ready_mem ((h.linked.index_ok c p).2 x hx)
    refine ⟨p, x.owner, hne, fun q hq => ?_, hk ▸ hx, hhome, ?_⟩
    · by_contra hq'
      have hfalse := hhigher q hq
      rw [(hnum q).mpr hq'] at hfalse
      cases hfalse
    · have hidx : index K.lists (ListRef.ready_list c p) = some x := (h.index_eq _).trans hx
      unfold select_next
      rw [hp]
      dsimp only
      rw [hidx]

end Select

/-! ## A switch -/

section Switch

variable {K : Kernel Links} {S : Kernel Sequences} {call : Tcb → Call} {fl : Tcb → Flight}
  {c : CoreId}

/-- With an intact watermark the switch ends the quantum and selects a task of the core. -/
theorem switch_context_spec (h : Sim K S call fl) (hi : K.initialised c = true)
    (hl : ∀ t, t.home = c → (fl t).left = none) (hw : watermark_lost K c = false) : ∃ p t,
      S.lists.list (.ready_list c p) ≠ [] ∧ (∀ q, p < q → S.lists.list (.ready_list c q) = []) ∧
      (end_quantum K c).lists.index (.ready_list c p) = some (.state_list_item t) ∧ t.home = c ∧
      scheduler_switch_context K c = { end_quantum K c with
        current_state := update (end_quantum K c).current_state t .RUNNING
        p_task_control_block := update (end_quantum K c).p_task_control_block c (some t) } := by
  have hend := h.end_quantum hl
  have hlist : (end_quantum S c).lists.list = S.lists.list := by
    obtain ⟨t, -, -, he⟩ | ⟨-, he⟩ := end_quantum_cases S c
    · rw [he]
      show (Seqs.advanceIndex S.lists _).list = _
      unfold Seqs.advanceIndex
      split <;> rfl
    · rw [he]
  obtain ⟨p, t, hne, hhigher, hindex, hhome, hselect⟩ := select_next_spec hend
    ((end_quantum_none_starts K c).initialised c hi) (hl _ rfl)
  rw [hlist] at hne
  simp only [hlist] at hhigher
  rw [← hend.linked.refines.index] at hindex
  refine ⟨p, t, hne, hhigher, hindex, hhome, ?_⟩
  unfold scheduler_switch_context
  rw [hw, if_neg Bool.false_ne_true, hselect]

/-- A switch of a core keeps that only current tasks are RUNNING. -/
theorem Kernel.RunningCurrent.switch_context (h : Sim K S call fl) (hr : K.RunningCurrent)
    (hi : K.initialised c = true) (hl : ∀ t, t.home = c → (fl t).left = none) :
    (scheduler_switch_context K c).RunningCurrent := by
  by_cases hw : watermark_lost K c = false
  · obtain ⟨p, t, -, -, -, hhome, hswitch⟩ := switch_context_spec h hi hl hw
    rw [hswitch]
    intro u hu
    by_cases hut : u = t
    · subst hut
      rw [hhome]
      exact update_self ..
    · have hrun : (end_quantum K c).current_state u = .RUNNING := (update_of_ne hut ..).symm.trans hu
      have hother : u.home ≠ c := fun hc => end_quantum_none_runs hr hc hrun
      exact (update_of_ne hother ..).trans (hr.none_starts (end_quantum_none_starts K c) u hrun)
  · unfold scheduler_switch_context
    rw [if_pos (eq_true_of_ne_false hw)]
    exact hr

end Switch

/-! ## Runs -/

section Steps

variable {S S' : System Links} {A : System Sequences} {t : Tcb}

theorem gives_none_starts : ∀ (smphs : List SemaphoreId) {S : System Links} {A : System Sequences},
    SSim S A grounded → NoneStarts S.kernel (S.gives smphs).2.kernel := by
  intro smphs
  induction smphs with
  | nil =>
    intro S A _
    exact .refl S.kernel
  | cons smph rest ih =>
    intro S A hs
    have hgive := (hs.give smph fun u => grounded_entered _ u).2
    exact (semaphore_give_none_starts hs.kernel smph).trans (ih hgive)

/-- Between the start of a tick and its switch no task starts to run. -/
theorem tick_before_switch (hs : SSim S A grounded) (c : CoreId) (timer_gives : List SemaphoreId) :
    NoneStarts S.kernel
        ((S.withKernel (timer_tick_handler S.kernel c).2).gives timer_gives).2.kernel ∧
      SSim ((S.withKernel (timer_tick_handler S.kernel c).2).gives timer_gives).2
        ((A.withKernel (timer_tick_handler A.kernel c).2).gives timer_gives).2 grounded := by
  have hdue : Sim.NoneDueNext S.kernel S.call grounded c := fun t ht => absurd rfl ht
  have htick : SSim (S.withKernel (timer_tick_handler S.kernel c).2)
      (A.withKernel (timer_tick_handler A.kernel c).2) grounded :=
    ⟨hs.call, (hs.kernel.timer_tick_handler hdue).2⟩
  exact ⟨(timer_tick_none_starts S.kernel c).trans (gives_none_starts timer_gives htick),
    hs.tick_switch hdue fun smph _ u => grounded_entered _ u⟩

theorem lock_none_starts (S : System Links) (t : Tcb) (mtx : MutexId) (timeout_ms : Int) :
    NoneStarts S.kernel (S.lock t mtx timeout_ms).2.kernel := by
  have hlock := mutex_lock_none_starts S.kernel mtx t timeout_ms
  unfold System.lock
  cases hk : mutex_lock S.kernel mtx t timeout_ms with
  | mk r K =>
    rw [hk] at hlock
    cases r <;> exact hlock

theorem take_none_starts (S : System Links) (t : Tcb) (smph : SemaphoreId) (timeout_ms : Int)
    (deadline : Nat) : NoneStarts S.kernel (S.take t smph timeout_ms deadline).2.kernel := by
  have htake := semaphore_take_none_starts S.kernel smph t timeout_ms deadline
  unfold System.take
  cases hk : semaphore_take S.kernel smph t timeout_ms deadline with
  | mk r K =>
    rw [hk] at htake
    cases r <;> exact htake

theorem takeWake_none_starts (S : System Links) (t : Tcb) (smph : SemaphoreId) (timeout_ms : Int)
    (deadline : Nat) : NoneStarts S.kernel (S.takeWake t smph timeout_ms deadline).2.kernel := by
  unfold System.takeWake semaphore_take_wake
  by_cases hw : S.kernel.wakeup_reason t = .RESOURCE_ACQUIRED
  · simp only [hw, if_true]
    exact .same_states rfl rfl rfl
  · simp only [hw, if_false]
    exact .refl S.kernel

theorem proceed_none_starts {es : List Event} (hstep : S.proceed t = some (es, S')) :
    NoneStarts S.kernel S'.kernel := by
  cases System.proceeds hstep with
  | @block_until w _ => exact block_until_none_starts S.kernel t w
  | delayed _ => exact .refl S.kernel
  | mutex_lock _ => exact .refl S.kernel
  | @semaphore_take smph timeout_ms deadline _ =>
    exact take_none_starts S t smph timeout_ms deadline
  | @semaphore_wait smph timeout_ms deadline _ =>
    exact takeWake_none_starts S t smph timeout_ms deadline

/-- Each step keeps that only current tasks are RUNNING. -/
theorem Kernel.RunningCurrent.step {a : Action} {es : List Event} (hr : S.kernel.RunningCurrent)
    (hs : SSim S A grounded) (hstep : S.step a = some (es, S')) : S'.kernel.RunningCurrent := by
  cases System.step_move hstep with
  | @scheduler_init c _ => exact hr.none_starts (scheduler_init_none_starts S.kernel c)
  | scheduler_start hi _ => exact hr.switch_context hs.kernel hi fun _ _ => rfl
  | @tick c timer_gives hi =>
    obtain ⟨hn, hB⟩ := tick_before_switch hs c timer_gives
    exact (hr.none_starts hn).switch_context hB.kernel (hn.initialised c hi) fun _ _ => rfl
  | @task_create c stack_depth priority _ =>
    exact hr.none_starts (task_create_none_starts S.kernel c stack_depth priority)
  | stack_write _ => exact hr
  | task_delay_ms _ => exact hr
  | task_delay_until_ms _ => exact hr
  | @mutex_set_inheritance mtx enable =>
    obtain ⟨_, he⟩ := mutex_set_inheritance_effect S.kernel mtx enable
    rw [he]
    exact hr.none_starts (.same_states rfl rfl rfl)
  | @mutex_lock t mtx timeout_ms _ => exact hr.none_starts (lock_none_starts S t mtx timeout_ms)
  | @mutex_unlock _ mtx _ _ => exact hr.none_starts (mutex_unlock_none_starts hs.kernel mtx)
  | semaphore_take _ => exact hr
  | @semaphore_give smph => exact hr.none_starts (semaphore_give_none_starts hs.kernel smph)
  | proceed _ hstep => exact hr.none_starts (proceed_none_starts hstep)

end Steps

section Runs

variable {max_count initial_count : SemaphoreId → Nat} {h : List Event} {S : System Links}

end Runs

end Rpitos
