import Rpitos.Lib.Reach
import Rpitos.Kernel.ReadyTurns

/-!
# Kernel.RoundRobin

Who is passed over in a ready list. Between two switches of its core tasks leave the list and join it
at its end, and the current task goes on or blocks (`Between`); a switch moves the index on.

A task that has been selected and joins again while the index is behind `X` comes before `X` once
more, and so does one that leaves the list to the index at `X` and ends its quantum there.
`round_robin`: where neither happens, no task is selected twice between two selections of `X`.
-/

namespace Rpitos

open Function ListOps StatusCode

/-! ## The current task goes on -/

/-- Core `c` keeps its current task, and the task runs on. -/
structure StaysRunning {L : Type} (c : CoreId) (K K' : Kernel L) : Prop where
  current : K'.p_task_control_block c = K.p_task_control_block c
  running : ∀ t, K.p_task_control_block c = some t → K.current_state t = .RUNNING →
    K'.current_state t = .RUNNING

section StaysRunning

variable {L : Type} {c : CoreId} {K K' K'' : Kernel L}

theorem StaysRunning.trans (h : StaysRunning c K K') (h' : StaysRunning c K' K'') :
    StaysRunning c K K'' :=
  ⟨h'.current.trans h.current,
    fun t ht hr => h'.running t (h.current.trans ht) (h.running t ht hr)⟩

theorem StaysRunning.same (hcur : K'.p_task_control_block = K.p_task_control_block)
    (hst : K'.current_state = K.current_state) : StaysRunning c K K' :=
  ⟨congrFun hcur c, fun _ _ hr => hst ▸ hr⟩

/-- The state of a task changes that was not running as the current one. -/
theorem StaysRunning.set_state {w : Tcb} {x : TaskState}
    (hcur : K'.p_task_control_block = K.p_task_control_block)
    (hst : K'.current_state = update K.current_state w x)
    (hw : K.p_task_control_block c = some w → K.current_state w ≠ .RUNNING) :
    StaysRunning c K K' := by
  refine ⟨congrFun hcur c, fun t ht hr => ?_⟩
  have hne : t ≠ w := by
    rintro rfl
    exact hw ht hr
  rw [hst, update_of_ne hne]
  exact hr

theorem StaysRunning.wakes {w : Tcb} {x : TaskState}
    (hcur : K'.p_task_control_block = K.p_task_control_block)
    (hst : K'.current_state = update K.current_state w x) (hw : K.current_state w = .BLOCKED) :
    StaysRunning c K K' :=
  .set_state hcur hst fun _ hr => TaskState.noConfusion (hw.symm.trans hr)

end StaysRunning

section Simulated

variable {c : CoreId} {K : Kernel Links} {S : Kernel Sequences} {call : Tcb → Call}
  {fl : Tcb → Flight}

theorem expire_loop_stays (c' : CoreId) (n : Nat) : ∀ {K : Kernel Links} {S : Kernel Sequences},
    Sim K S call fl → Sim.NoneDue K call fl c' → StaysRunning c K (expire_loop c' n K).2 := by
  induction n with
  | zero => exact fun _ _ => .same rfl rfl
  | succ n ih =>
    intro K S h hd
    unfold expire_loop
    rw [h.head_eq]
    cases hx : head S.lists (ListRef.blocked_task_list c') with
    | none => exact .same rfl rfl
    | some x =>
      dsimp only
      split
      · rename_i hw
        obtain ⟨hwake, htick⟩ := h.fields
        obtain ⟨-, hc, hhome, hb⟩ := h.blocked_mem (List.mem_of_mem_head? hx)
        have hleft : (fl x.owner).left = none := by
          by_cases hf : fl x.owner = .no
          · rw [hf]
            rfl
          · exact (hd x.owner hf hhome).1
        have hone : StaysRunning c K (expire_task K x.owner) := by
          rw [expire_task_fields]
          exact .wakes rfl rfl (hb hleft).1
        exact hone.trans (ih (h.expire_head hd hx hw) hd.expire_task)
      · exact .same rfl rfl

theorem semaphore_give_stays (h : Sim K S call fl) (smph : SemaphoreId)
    (hn : ∀ u, (fl u).entered ≠ some (.semaphore_blocked_list smph)) :
    StaysRunning c K (semaphore_give K smph).2.2 := by
  obtain ⟨w, xs, _, hlist, he⟩ | ⟨-, -, he⟩ | ⟨-, -, he⟩ := semaphore_give_effect h smph
  · have hm : .event_list_item w ∈ S.lists.list (.semaphore_blocked_list smph) := by
      rw [hlist]
      exact List.mem_cons_self
    rw [he]
    exact .wakes rfl rfl (h.wait_mem rfl hn hm).2.2.1
  · rw [he]
    exact .same rfl rfl
  · rw [he]
    exact .same rfl rfl

theorem mutex_unlock_stays (h : Sim K S call fl) (mtx : MutexId) :
    StaysRunning c K (mutex_unlock K mtx).2 := by
  by_cases hl : K.mutex_state mtx = .LOCKED
  · obtain ⟨-, _, _, _, _, he⟩ | ⟨w, _, _, _, _, hm, he⟩ := mutex_unlock_effect h hl
    · rw [he]
      exact .same rfl rfl
    · rw [he]
      exact .wakes rfl rfl (h.wait_mem rfl (fun u => (fl u).entered_ne_mutex mtx) hm).2.2.1
  · unfold mutex_unlock
    rw [if_neg hl]
    exact .same rfl rfl

/-- A task that is created is not the current one. -/
theorem task_create_stays (h : Sim K S call fl) (c' : CoreId) (d q : Nat) :
    StaysRunning c K (task_create K c' d q).2.2 := by
  obtain ⟨_, he⟩ | ⟨t, ht, _, _, _, _, _, _, _, _, _, _, _, he⟩ := task_create_effect K c' d q
  · rw [he]
    exact .same rfl rfl
  · rw [he]
    refine .set_state rfl rfl fun hcur => ?_
    rw [(h.tasks.current c t hcur).1] at ht
    cases ht

theorem scheduler_init_stays (h : Sim K S call fl) {c' : CoreId} (hi : K.initialised c' = false) :
    StaysRunning c K (scheduler_init K c') := by
  obtain ⟨_, _, _, _, _, _, _, _, _, _, he⟩ := scheduler_init_effect K c'
  rw [he]
  refine .set_state rfl rfl fun hcur => ?_
  have hcreated : K.initialised c' = true := (h.tasks.current c (.idle c') hcur).1
  rw [hi] at hcreated
  cases hcreated

/-- Another core switches. -/
theorem switch_context_stays (h : Sim K S call fl) {c' : CoreId} (hc : c' ≠ c)
    (hi : K.initialised c' = true) (hl : ∀ t, t.home = c' → (fl t).left = none) :
    StaysRunning c K (scheduler_switch_context K c') := by
  by_cases hw : watermark_lost K c' = false
  · obtain ⟨p, t, -, -, -, hhome, he⟩ := switch_context_spec h hi hl hw
    have hend : StaysRunning c K (end_quantum K c') := by
      obtain ⟨u, hcur, -, he⟩ | ⟨-, he⟩ := end_quantum_cases K c'
      · rw [he]
        refine .set_state rfl rfl fun hcur' => ?_
        exact absurd ((h.tasks.current c' u hcur).2.symm.trans (h.tasks.current c u hcur').2) hc
      · rw [he]
        exact .same rfl rfl
    refine hend.trans ⟨?_, fun u hu hr => ?_⟩
    · rw [he]
      exact update_of_ne (Ne.symm hc) ..
    · have hut : u ≠ t := by
        rintro rfl
        have hhome' := (h.tasks.current c u (hend.current.symm.trans hu)).2
        exact hc (hhome.symm.trans hhome')
      rw [he]
      exact (update_of_ne hut ..).trans hr
  · unfold scheduler_switch_context
    rw [if_pos (eq_true_of_ne_false hw)]
    exact .same rfl rfl

end Simulated

/-! ## Between two switches -/

/-- What a step does that is not a switch of core `c`. -/
structure Between (c : CoreId) (p : TaskPriorityLevel) (K K' : Kernel Links) : Prop where
  relinked : (K.turn c p).Relinked (K'.turn c p)
  current : K'.p_task_control_block c = K.p_task_control_block c
  running : ∀ t, K.p_task_control_block c = some t → K.current_state t = .RUNNING →
    K'.current_state t = .RUNNING ∨ K'.current_state t = .BLOCKED

section Between

variable {c : CoreId} {p : TaskPriorityLevel} {K K' : Kernel Links}

theorem StaysRunning.between (h : StaysRunning c K K')
    (hr : (K.turn c p).Relinked (K'.turn c p)) : Between c p K K' :=
  ⟨hr, h.current, fun t ht hrun => .inl (h.running t ht hrun)⟩

theorem Between.same (hl : K'.lists = K.lists)
    (hcur : K'.p_task_control_block = K.p_task_control_block)
    (hst : K'.current_state = K.current_state) : Between c p K K' := by
  refine StaysRunning.between (.same hcur hst) ?_
  unfold Kernel.turn
  rw [hl]
  exact .of_leaves .refl

/-- One task blocks. -/
theorem Between.blocks {t : Tcb} (hr : (K.turn c p).Relinked (K'.turn c p))
    (hcur : K'.p_task_control_block = K.p_task_control_block)
    (hst : K'.current_state = update K.current_state t .BLOCKED) : Between c p K K' := by
  refine ⟨hr, congrFun hcur c, fun u _ hrun => ?_⟩
  rw [hst]
  by_cases hut : u = t
  · rw [hut, update_self]
    exact .inr rfl
  · rw [update_of_ne hut]
    exact .inl hrun

end Between

section Steps

variable {L : Type} [ListOps L ItemRef ListRef]

theorem lock_kernel (S : System L) (t : Tcb) (mtx : MutexId) (timeout_ms : Int) :
    (S.lock t mtx timeout_ms).2.kernel = (mutex_lock S.kernel mtx t timeout_ms).2 := by
  unfold System.lock
  cases hk : mutex_lock S.kernel mtx t timeout_ms with
  | mk r K => cases r <;> rfl

theorem take_kernel (S : System L) (t : Tcb) (smph : SemaphoreId) (timeout_ms : Int)
    (deadline : Nat) : (S.take t smph timeout_ms deadline).2.kernel =
      (semaphore_take S.kernel smph t timeout_ms deadline).2 := by
  unfold System.take
  cases hk : semaphore_take S.kernel smph t timeout_ms deadline with
  | mk r K => cases r <;> rfl

variable {S S' : System Links} {A : System Sequences} {c : CoreId} {p : TaskPriorityLevel} {t : Tcb}

/-- The ready lists of simulated systems. -/
theorem SSim.relinked {A' : System Sequences} (hs : SSim S A grounded) (hs' : SSim S' A' grounded)
    (hr : (A.kernel.lists.turn (.ready_list c p)).Relinked (A'.kernel.lists.turn (.ready_list c p))) :
    (S.kernel.turn c p).Relinked (S'.kernel.turn c p) := by
  rw [hs.kernel.turn_eq, hs'.kernel.turn_eq]
  exact hr

theorem Joins.system {A' : System Sequences} (hs : SSim S A grounded) (hs' : SSim S' A' grounded)
    (hj : Joins c p (fun _ => True) A.kernel A'.kernel) :
    (S.kernel.turn c p).Relinked (S'.kernel.turn c p) :=
  hs.relinked hs' (hj.relinked (hs'.kernel.linked.exact.nodup _))

theorem gives_stays : ∀ (smphs : List SemaphoreId) {S : System Links} {A : System Sequences},
    SSim S A grounded → StaysRunning c S.kernel (S.gives smphs).2.kernel := by
  intro smphs
  induction smphs with
  | nil => exact fun _ => .same rfl rfl
  | cons smph rest ih =>
    intro S A hs
    have hgive := (hs.give smph fun u => grounded_entered _ u).2
    exact (semaphore_give_stays hs.kernel smph fun u => grounded_entered _ u).trans (ih hgive)

/-- The handler and the gives of a tick. -/
theorem tick_between (hs : SSim S A grounded) (c' : CoreId) (timer_gives : List SemaphoreId) :
    StaysRunning c S.kernel
        ((S.withKernel (timer_tick_handler S.kernel c').2).gives timer_gives).2.kernel ∧
      Joins c p (fun _ => True) A.kernel
        ((A.withKernel (timer_tick_handler A.kernel c').2).gives timer_gives).2.kernel := by
  have hdue : Sim.NoneDueNext S.kernel S.call grounded c' := fun t ht => absurd rfl ht
  have htick : SSim (S.withKernel (timer_tick_handler S.kernel c').2)
      (A.withKernel (timer_tick_handler A.kernel c').2) grounded :=
    ⟨hs.call, (hs.kernel.timer_tick_handler hdue).2⟩
  have hnext : Sim (next_tick S.kernel c') (next_tick A.kernel c') S.call grounded := by
    obtain ⟨s, he⟩ := hs.kernel.exists_over
    have hK := hs.kernel
    rw [he] at hK ⊢
    exact ⟨rfl, hK.linked, hK.tasks, hK.counter, hK.owners⟩
  have hev : ∀ u, .event_list_item u ∉ A.kernel.lists.list (.ready_list c p) := fun u hm =>
    ItemRef.noConfusion (hs.kernel.ready_mem hm).1
  have hcount : StaysRunning c S.kernel (next_tick S.kernel c') := .same rfl rfl
  have hexpire : StaysRunning c (next_tick S.kernel c') (timer_tick_handler S.kernel c').2 :=
    expire_loop_stays c' MAX_TCBS hnext fun t ht => absurd rfl ht
  exact ⟨(hcount.trans hexpire).trans (gives_stays timer_gives htick),
    (Joins.timer_tick_handler A.kernel c' hev).trans (.gives timer_gives _)⟩

theorem lock_between (hs : SSim S A grounded) (hr : S.kernel.runs t = true) (mtx : MutexId)
    (timeout_ms : Int) : Between c p S.kernel (S.lock t mtx timeout_ms).2.kernel := by
  obtain ⟨hc, hb, ht⟩ := hs.running hr
  have hlock : SSim (S.lock t mtx timeout_ms).2 (A.lock t mtx timeout_ms).2 grounded :=
    (hs.lock hr rfl fun _ _ => rfl).2
  have hrelinked := hs.relinked hlock (c := c) (p := p) (by
    rw [lock_kernel]
    exact mutex_lock_relinked hs.kernel (fun _ => rfl) mtx timeout_ms hc hb ht rfl)
  rw [lock_kernel] at hrelinked ⊢
  obtain ⟨-, _, he⟩ | ⟨-, -, he⟩ | ⟨-, -, _, _, _, _, he⟩ :=
    mutex_lock_effect S.kernel mtx t timeout_ms
  · rw [he] at hrelinked ⊢
    exact StaysRunning.between (.same rfl rfl) hrelinked
  · rw [he]
    exact .same rfl rfl rfl
  · rw [he] at hrelinked ⊢
    exact .blocks hrelinked rfl rfl

theorem take_between (hs : SSim S A grounded) (hr : S.kernel.runs t = true) (smph : SemaphoreId)
    (timeout_ms : Int) (deadline : Nat) :
    Between c p S.kernel (S.take t smph timeout_ms deadline).2.kernel := by
  have htake : SSim (S.take t smph timeout_ms deadline).2 (A.take t smph timeout_ms deadline).2
      grounded := (hs.take hr rfl).2
  have hrelinked := hs.relinked htake (c := c) (p := p) (by
    rw [take_kernel]
    exact .of_leaves (semaphore_take_leaves A.kernel smph t timeout_ms deadline).leaves)
  rw [take_kernel] at hrelinked ⊢
  obtain ⟨-, he⟩ | ⟨-, -, he⟩ | ⟨-, -, -, _, _, he⟩ :=
    semaphore_take_effect S.kernel smph t timeout_ms deadline
  · rw [he]
    exact .same rfl rfl rfl
  · rw [he]
    exact .same rfl rfl rfl
  · rw [he] at hrelinked ⊢
    exact .blocks hrelinked rfl rfl

theorem takeWake_between (S : System Links) (t : Tcb) (smph : SemaphoreId) (timeout_ms : Int)
    (deadline : Nat) : Between c p S.kernel (S.takeWake t smph timeout_ms deadline).2.kernel := by
  unfold System.takeWake semaphore_take_wake
  by_cases hw : S.kernel.wakeup_reason t = .RESOURCE_ACQUIRED
  · rw [if_pos hw]
    exact .same rfl rfl rfl
  · rw [if_neg hw]
    exact .same rfl rfl rfl

theorem proceed_between {es : List Event} (hs : SSim S A grounded) (hr : S.kernel.runs t = true)
    (hstep : S.proceed t = some (es, S')) : Between c p S.kernel S'.kernel := by
  cases System.proceeds hstep with
  | @block_until w _ =>
    obtain ⟨lists, he⟩ := block_until_effect S.kernel t w
    have hrelinked := hs.relinked (hs.block_until hr rfl) (c := c) (p := p)
      (.of_leaves (LeavesOne.block_until A.kernel t w).leaves)
    exact Between.blocks (t := t) hrelinked (by simp [he]) (by simp [he])
  | delayed _ => exact .same rfl rfl rfl
  | mutex_lock _ => exact .same rfl rfl rfl
  | @semaphore_take smph timeout_ms deadline _ =>
    exact take_between hs hr smph timeout_ms deadline
  | @semaphore_wait smph timeout_ms deadline _ =>
    exact takeWake_between S t smph timeout_ms deadline

/-- Every step that is not a switch of core `c`. -/
theorem step_between {a : Action} {es : List Event} (hs : SSim S A grounded)
    (hi : S.kernel.initialised c = true) (ha : a.switches ≠ some c)
    (hstep : S.step a = some (es, S')) : Between c p S.kernel S'.kernel := by
  obtain ⟨A', hA, hs'⟩ := hs.step_some hstep
  -- the same step, on sequences
  obtain ⟨es', hmove⟩ : ∃ es', System.Move A a es' A' := ⟨es, System.step_move hA⟩
  cases System.step_move hstep with
  | @scheduler_init c' hi' =>
    cases hmove
    have hne : c' ≠ c := by
      rintro rfl
      rw [hi] at hi'
      cases hi'
    exact (scheduler_init_stays hs.kernel hi').between
      (Joins.system hs hs' (.scheduler_init A.kernel hne))
  | @scheduler_start c' hi' _ =>
    cases hmove
    have hne : c' ≠ c := fun h => ha (congrArg some h)
    exact (switch_context_stays hs.kernel hne hi' fun _ _ => rfl).between
      (Joins.system hs hs' (.switch_context A.kernel hne))
  | @tick c' timer_gives hi' =>
    cases hmove
    have hne : c' ≠ c := fun h => ha (congrArg some h)
    obtain ⟨hn, hG⟩ := tick_before_switch hs c' timer_gives
    obtain ⟨hstays, hjoins⟩ := tick_between (c := c) (p := p) hs c' timer_gives
    exact (hstays.trans (switch_context_stays hG.kernel hne (hn.initialised c' hi')
      fun _ _ => rfl)).between (Joins.system hs hs' (hjoins.trans (.switch_context _ hne)))
  | @task_create c' stack_depth priority _ =>
    cases hmove
    exact (task_create_stays hs.kernel c' stack_depth priority).between
      (Joins.system hs hs' (.task_create A.kernel c' stack_depth priority))
  | stack_write _ => exact .same rfl rfl rfl
  | task_delay_ms _ => exact .same rfl rfl rfl
  | task_delay_until_ms _ => exact .same rfl rfl rfl
  | @mutex_set_inheritance mtx enable =>
    obtain ⟨_, he⟩ := mutex_set_inheritance_effect S.kernel mtx enable
    rw [he]
    exact .same rfl rfl rfl
  | @mutex_lock _ mtx timeout_ms hf => exact lock_between hs hf.1 mtx timeout_ms
  | @mutex_unlock t mtx _ _ =>
    cases hmove
    exact (mutex_unlock_stays hs.kernel mtx).between
      (hs.relinked hs' (mutex_unlock_relinked hs.kernel (fun _ => rfl) mtx))
  | semaphore_take _ => exact .same rfl rfl rfl
  | @semaphore_give smph =>
    cases hmove
    exact (semaphore_give_stays hs.kernel smph fun u => grounded_entered _ u).between
      (Joins.system hs hs' (.semaphore_give A.kernel smph))
  | proceed hr hstep => exact proceed_between hs hr hstep

end Steps

/-! ## The selections of a core -/

section Watch

variable {L : Type} [ListOps L ItemRef ListRef]

/-- The task is linked in ready list `p` of core `c`. -/
def Kernel.in_ready (K : Kernel L) (c : CoreId) (p : TaskPriorityLevel) (t : Tcb) : Prop :=
  .state_list_item t ∈ (K.turn c p).list

instance (K : Kernel L) (c : CoreId) (p : TaskPriorityLevel) (t : Tcb) :
    Decidable (K.in_ready c p t) := inferInstanceAs (Decidable (_ ∈ _))

/-- No ready list above `p` holds a task. -/
def Kernel.highest (K : Kernel L) (c : CoreId) (p : TaskPriorityLevel) : Prop :=
  ∀ q, p < q → num_items K.lists (.ready_list c q) = 0

instance (K : Kernel L) (c : CoreId) (p : TaskPriorityLevel) : Decidable (K.highest c p) :=
  inferInstanceAs (Decidable (∀ _, _))

/-- The task that a switch of core `c` selects, none when it finds the watermark overwritten. -/
def Kernel.selects (K : Kernel L) (c : CoreId) : Option Tcb :=
  if watermark_lost K c then none else (scheduler_switch_context K c).p_task_control_block c

/-- The kernel behind the step, or before the switch with which it ends. -/
def System.until_switch (S : System L) (c : CoreId) (a : Action) (S' : System L) : Kernel L :=
  match a with
  | .scheduler_start c' => if c' = c then S.kernel else S'.kernel
  | .tick c' timer_gives =>
    if c' = c then ((S.withKernel (timer_tick_handler S.kernel c).2).gives timer_gives).2.kernel
    else S'.kernel
  | _ => S'.kernel

/-- A run, and the tasks that core `c` has selected in it, the last one first. -/
structure Watch (L : Type) where
  system : System L
  selections : List Tcb

/-- One step, `none` when it takes `X` out of ready list `p` of core `c`, or switches while a higher
ready list holds a task. -/
def Watch.step (c : CoreId) (p : TaskPriorityLevel) (X : Tcb) (W : Watch L) (a : Action) :
    Option (Watch L) :=
  match W.system.step a with
  | none => none
  | some (_, S') =>
    let K := W.system.until_switch c a S'
    if K.in_ready c p X then
      if a.switches = some c then
        if K.highest c p then some ⟨S', (K.selects c).toList ++ W.selections⟩ else none
      else some ⟨S', W.selections⟩
    else none

/-- `K'` is `K` when the task has joined ready list `p`, whose index is behind `X`. -/
def joins_behind (c : CoreId) (p : TaskPriorityLevel) (X : Tcb) (K K' : Kernel L) (t : Tcb) : Prop :=
  ¬ K.in_ready c p t ∧ K'.in_ready c p t ∧ (K'.turn c p).passed (.state_list_item X)

/-- The task runs out of its quantum in ready list `p`, whose index is at `X`. -/
def ends_at (c : CoreId) (p : TaskPriorityLevel) (X : Tcb) (K : Kernel L) (t : Tcb) : Prop :=
  K.p_task_control_block c = some t ∧ K.current_state t = .RUNNING ∧ K.in_ready c p t ∧
    (K.turn c p).index = some (.state_list_item X)

instance (c : CoreId) (p : TaskPriorityLevel) (X : Tcb) (K K' : Kernel L) (t : Tcb) :
    Decidable (joins_behind c p X K K' t) := inferInstanceAs (Decidable (_ ∧ _))

instance (c : CoreId) (p : TaskPriorityLevel) (X : Tcb) (K : Kernel L) (t : Tcb) :
    Decidable (ends_at c p X K t) := inferInstanceAs (Decidable (_ ∧ _))

/-- None of the tasks selected since `X` was joins the list while its index is behind `X`, or runs out
of its quantum while the index is at `X`. -/
def inTurn (c : CoreId) (p : TaskPriorityLevel) (X : Tcb) (W : Watch L) (a : Action) : Prop :=
  ∀ r ∈ W.system.step a, ∀ t ∈ served X W.selections,
    ¬ joins_behind c p X W.system.kernel (W.system.until_switch c a r.2) t ∧
    (a.switches = some c → ¬ ends_at c p X (W.system.until_switch c a r.2) t)

instance (c : CoreId) (p : TaskPriorityLevel) (X : Tcb) (W : Watch L) (a : Action) :
    Decidable (inTurn c p X W a) := inferInstanceAs (Decidable (∀ _, _ ∈ W.system.step a → _))

end Watch

section Watching

variable {c : CoreId} {p : TaskPriorityLevel} {X t : Tcb} {K : Kernel Links} {B : Kernel Sequences}
  {call : Tcb → Call} {sel : List Tcb}

/-- The task of the item is current, and runs. -/
def Kernel.runs_now (K : Kernel Links) (c : CoreId) (u : ItemRef) : Prop :=
  K.p_task_control_block c = some u.owner ∧ K.current_state u.owner = .RUNNING

theorem state_list_item_injective : Injective ItemRef.state_list_item := fun _ _ h =>
  ItemRef.state_list_item.inj h

theorem mem_served {u : ItemRef}
    (hu : u ∈ served (.state_list_item X) (sel.map ItemRef.state_list_item)) :
    ∃ t ∈ served X sel, u = .state_list_item t := by
  rw [served_map state_list_item_injective] at hu
  obtain ⟨t, ht, rfl⟩ := List.mem_map.mp hu
  exact ⟨t, ht, rfl⟩

theorem Sim.mem_turn (h : Sim K B call grounded) {u : ItemRef} (hu : u ∈ (K.turn c p).list) :
    u = .state_list_item u.owner ∧ K.created u.owner = true ∧ K.current_state u.owner ≠ .BLOCKED ∧
      K.priority u.owner = p ∧ u.owner.home = c := by
  rw [h.turn_eq] at hu
  obtain ⟨hk, hc, hb, -, hp, hhome⟩ := h.ready_mem hu
  exact ⟨hk, hc, hb, hp, hhome⟩

/-- A core with a task in a ready list is initialised. -/
theorem Sim.in_ready_initialised (h : Sim K B call grounded) (hX : K.in_ready c p X) :
    K.initialised c = true := by
  obtain ⟨-, hc, -, -, hhome⟩ := h.mem_turn hX
  have hhome' : X.home = c := hhome
  have hc' : K.created X = true := hc
  subst hhome'
  cases X with
  | idle c => exact hc'
  | pool c slot => exact h.counter c (Nat.zero_lt_of_lt (of_decide_eq_true hc'))

/-- The running task of the core is in the ready list of its priority. -/
theorem Sim.running_in_ready (h : Sim K B call grounded) (hcur : K.p_task_control_block c = some t)
    (hrun : K.current_state t = .RUNNING) : K.in_ready c (K.priority t) t := by
  obtain ⟨hc, hhome⟩ := h.tasks.current c t hcur
  have hb : K.current_state t ≠ .BLOCKED := by
    rw [hrun]
    exact TaskState.noConfusion
  have hready := h.ready_home hc hb rfl
  rw [(h.tasks.home t hc).trans hhome] at hready
  unfold Kernel.in_ready
  rw [h.turn_eq]
  exact h.linked.mem_state.mpr hready

/-- The end of the quantum moves the index of the list of the running task, and no other. -/
theorem end_quantum_turn (h : Sim K B call grounded) (c : CoreId) (p : TaskPriorityLevel) :
    (∃ t, K.p_task_control_block c = some t ∧ K.current_state t = .RUNNING ∧ K.priority t = p ∧
      (end_quantum K c).turn c p = (K.turn c p).advance) ∨
    (∀ t, K.p_task_control_block c = some t → K.current_state t = .RUNNING → K.priority t ≠ p) ∧
      (end_quantum K c).turn c p = K.turn c p := by
  have hend : Sim (end_quantum K c) (end_quantum B c) call grounded := h.end_quantum fun _ _ => rfl
  rw [hend.turn_eq, h.turn_eq]
  obtain ⟨s, rfl⟩ := h.exists_over
  obtain ⟨t, hcur, hrun, he⟩ | ⟨hnot, he⟩ := end_quantum_cases (K.over s) c
  · have hmoves := Seqs.turn_advanceIndex (s := s) (k := ListRef.ready_list c (K.priority t))
      (l := ListRef.ready_list c p)
    rw [he]
    by_cases hp : K.priority t = p
    · rw [if_pos (by rw [hp])] at hmoves
      exact .inl ⟨t, hcur, hrun, hp, hmoves⟩
    · rw [if_neg fun heq => hp (ListRef.ready_list.inj heq).2] at hmoves
      refine .inr ⟨fun u hu _ => ?_, hmoves⟩
      obtain rfl : t = u := Option.some.inj (hcur.symm.trans hu)
      exact hp
  · rw [he]
    exact .inr ⟨fun t ht hrun => absurd hrun (hnot t ht), rfl⟩

variable {K' : Kernel Links}

/-- Behind the quantum nobody selected since `X` is ahead of it. -/
theorem quantum_over (h : Sim K B call grounded) (hX : K.in_ready c p X)
    (hf : Fair (K.turn c p) (.state_list_item X) (K.runs_now c) (sel.map .state_list_item))
    (hlast : sel ≠ [] → K.p_task_control_block c = sel.head?)
    (hend : ∀ t ∈ served X sel, ¬ ends_at c p X K t) :
    ∀ u ∈ ((end_quantum K c).turn c p).ahead (.state_list_item X),
      u ∉ served (.state_list_item X) (sel.map .state_list_item) := by
  obtain ⟨t, hcur, hrun, hp, he⟩ | ⟨hnot, he⟩ := end_quantum_turn h c p
  · rw [he]
    refine hf.advance h.turn_ok hX fun hindex => ?_
    have hready : K.in_ready c p t := hp ▸ h.running_in_ready hcur hrun
    have hfresh : t ∉ served X sel := fun ht => hend t ht ⟨hcur, hrun, hready, hindex⟩
    rw [served_map state_list_item_injective]
    cases sel with
    | nil => rfl
    | cons y sel =>
      obtain rfl : t = y := Option.some.inj (hcur.symm.trans (hlast (List.cons_ne_nil _ _)))
      have hX : t = X := by
        by_contra hne
        refine hfresh ?_
        unfold served
        rw [List.takeWhile_cons_of_pos (by simpa using hne)]
        exact List.mem_cons_self
      unfold served
      rw [List.takeWhile_cons_of_neg (by simpa using hX), List.map_nil]
  · rw [he]
    intro u hu hserved
    obtain ⟨-, hcur, hrun⟩ := hf.ahead u hu hserved
    exact hnot u.owner hcur hrun (h.mem_turn (Turn.ahead_subset hu)).2.2.2.1

/-- What the watch keeps. -/
structure Rounds (c : CoreId) (p : TaskPriorityLevel) (X : Tcb) (K : Kernel Links)
    (sel : List Tcb) : Prop where
  linked : K.in_ready c p X
  fair : Fair (K.turn c p) (.state_list_item X) (K.runs_now c) (sel.map .state_list_item)
  last : sel ≠ [] → K.p_task_control_block c = sel.head?

/-- Between two switches. -/
theorem Rounds.between {B' : Kernel Sequences} {call' : Tcb → Call} (hW : Rounds c p X K sel)
    (hb : Between c p K K') (h : Sim K B call grounded) (h' : Sim K' B' call' grounded)
    (hX : K'.in_ready c p X) (hjoin : ∀ t ∈ served X sel, ¬ joins_behind c p X K K' t) :
    Rounds c p X K' sel := by
  refine ⟨hX, ?_, fun hne => hb.current.trans (hW.last hne)⟩
  refine hW.fair.relinked hb.relinked h.turn_ok h'.turn_ok hW.linked hX
    (fun u hu hnew hmem hpassed => ?_) (fun u hu hrun => ?_)
  · obtain ⟨t, ht, rfl⟩ := mem_served hu
    exact hjoin t ht ⟨hnew, hmem, hpassed⟩
  · have hgoes := hb.running u.owner hrun.1 hrun.2
    exact ⟨hb.current.trans hrun.1, hgoes.resolve_right (h'.mem_turn hu).2.2.1⟩

/-- A switch. -/
theorem Rounds.switch (hW : Rounds c p X K sel) (h : Sim K B call grounded)
    (hhigh : K.highest c p) (hend : ∀ t ∈ served X sel, ¬ ends_at c p X K t) :
    Rounds c p X (scheduler_switch_context K c) ((K.selects c).toList ++ sel) := by
  by_cases hw : watermark_lost K c = false
  · obtain ⟨q, t, hne, hhigher, hindex, -, he⟩ :=
      switch_context_spec h (h.in_ready_initialised hW.linked) (fun _ _ => rfl) hw
    have hmem : .state_list_item X ∈ B.lists.list (.ready_list c p) := by
      have hmem := hW.linked
      unfold Kernel.in_ready at hmem
      rwa [h.turn_eq] at hmem
    obtain rfl : q = p := by
      rcases lt_trichotomy q p with hlt | heq | hgt
      · exact absurd (hhigher p hlt) (List.ne_nil_of_mem hmem)
      · exact heq
      · exact absurd ((h.num_items_zero _).mp ((h.num_items_eq _).symm.trans (hhigh q hgt))) hne
    have hselects : K.selects c = some t := by
      unfold Kernel.selects
      rw [hw, he]
      exact update_self ..
    have hover := quantum_over h hW.linked hW.fair hW.last hend
    have hok : ((end_quantum K c).turn c q).Ok :=
      (h.end_quantum fun _ _ => rfl : Sim (end_quantum K c) (end_quantum B c) call grounded).turn_ok
    have hX : .state_list_item X ∈ ((end_quantum K c).turn c q).list := by
      obtain ⟨_, -, -, -, heq⟩ | ⟨-, heq⟩ := end_quantum_turn h c q
      · rw [heq, Turn.advance_list]
        exact hW.linked
      · rw [heq]
        exact hW.linked
    have hturn : (scheduler_switch_context K c).turn c q = (end_quantum K c).turn c q := by
      rw [he]
      rfl
    have hcur : (scheduler_switch_context K c).p_task_control_block c = some t := by
      rw [he]
      exact update_self ..
    have hrun : (scheduler_switch_context K c).current_state t = .RUNNING := by
      rw [he]
      exact update_self ..
    rw [hselects]
    refine ⟨by unfold Kernel.in_ready; rwa [hturn], ?_, fun _ => hcur⟩
    rw [hturn]
    exact Fair.select hW.fair.not_overtaken hok hX hover hindex ⟨hcur, hrun⟩
  · have hlost := eq_true_of_ne_false hw
    have hselects : K.selects c = none := if_pos hlost
    have hhung : scheduler_switch_context K c = { K with hung := update K.hung c true } :=
      if_pos hlost
    rw [hselects, hhung]
    exact ⟨hW.linked, hW.fair, hW.last⟩

end Watching

/-! ## Runs -/

section Runs

variable {c : CoreId} {p : TaskPriorityLevel} {X : Tcb} {S S' : System Links} {A : System Sequences}

theorem until_switch_of_ne {a : Action} (ha : a.switches ≠ some c) :
    S.until_switch c a S' = S'.kernel := by
  cases a with
  | scheduler_start c' => exact if_neg fun h => ha (congrArg some h)
  | tick c' timer_gives => exact if_neg fun h => ha (congrArg some h)
  | _ => rfl

/-- What comes before the switch. -/
theorem until_switch_between {a : Action} {es : List Event} (hs : SSim S A grounded)
    (hi : S.kernel.initialised c = true) (hstep : S.step a = some (es, S')) :
    Between c p S.kernel (S.until_switch c a S') ∧
      ∃ B call, Sim (S.until_switch c a S') B call grounded := by
  obtain ⟨A', -, hs'⟩ := hs.step_some hstep
  by_cases ha : a.switches = some c
  · cases a with
    | scheduler_start c' =>
      have heq : S.until_switch c (.scheduler_start c') S' = S.kernel := if_pos (Option.some.inj ha)
      rw [heq]
      exact ⟨.same rfl rfl rfl, _, _, hs.kernel⟩
    | tick c' timer_gives =>
      obtain rfl : c' = c := Option.some.inj ha
      have heq : S.until_switch c' (.tick c' timer_gives) S' =
        ((S.withKernel (timer_tick_handler S.kernel c').2).gives timer_gives).2.kernel := if_pos rfl
      rw [heq]
      obtain ⟨-, hG⟩ := tick_before_switch hs c' timer_gives
      obtain ⟨hstays, hjoins⟩ := tick_between (c := c') (p := p) hs c' timer_gives
      exact ⟨hstays.between (Joins.system hs hG hjoins), _, _, hG.kernel⟩
    | _ => cases ha
  · rw [until_switch_of_ne ha]
    exact ⟨step_between hs hi ha hstep, _, _, hs'.kernel⟩

/-- The switch that ends the step. -/
theorem until_switch_ends {a : Action} {es : List Event} (ha : a.switches = some c)
    (hstep : S.step a = some (es, S')) :
    S'.kernel = scheduler_switch_context (S.until_switch c a S') c := by
  cases System.step_move hstep with
  | @scheduler_start c' _ _ =>
    obtain rfl : c' = c := Option.some.inj ha
    exact congrArg (scheduler_switch_context · c') (if_pos rfl).symm
  | @tick c' timer_gives _ =>
    obtain rfl : c' = c := Option.some.inj ha
    exact congrArg (scheduler_switch_context · c') (if_pos rfl).symm
  | _ => cases ha

/-- Each step in which nobody jumps the queue keeps the invariant. -/
theorem Rounds.step {W W' : Watch Links} {a : Action} (hs : SSim W.system A grounded)
    (hW : Rounds c p X W.system.kernel W.selections) (ha : inTurn c p X W a)
    (hstep : W.step c p X a = some W') :
    (∃ A', SSim W'.system A' grounded) ∧ Rounds c p X W'.system.kernel W'.selections := by
  unfold Watch.step at hstep
  cases hr : W.system.step a with
  | none =>
    rw [hr] at hstep
    cases hstep
  | some r =>
    obtain ⟨es, S'⟩ := r
    rw [hr] at hstep
    dsimp only at hstep
    obtain ⟨hX, hstep⟩ := Option.ite_none_right_eq_some.mp hstep
    obtain ⟨A', -, hs'⟩ := hs.step_some hr
    obtain ⟨hb, B, call, hB⟩ :=
      until_switch_between (p := p) hs (hs.kernel.in_ready_initialised hW.linked) hr
    have hbefore := hW.between hb hs.kernel hB hX fun t ht => (ha _ hr t ht).1
    split at hstep
    · rename_i hswitch
      obtain ⟨hhigh, hstep⟩ := Option.ite_none_right_eq_some.mp hstep
      cases hstep
      have hbehind := hbefore.switch hB hhigh fun t ht => (ha _ hr t ht).2 hswitch
      rw [← until_switch_ends hswitch hr] at hbehind
      exact ⟨⟨A', hs'⟩, hbehind⟩
    · rename_i hswitch
      cases hstep
      rw [until_switch_of_ne hswitch] at hbefore
      exact ⟨⟨A', hs'⟩, hbefore⟩

/-- In every run, while `X` stays in ready list `p`, the highest that holds a task at each switch, and
nobody selected since `X` joins the list while the index is behind `X` or ends its quantum while the
index is at `X`: no other task is selected twice between two selections of `X`. -/
theorem round_robin {max_count initial_count : SemaphoreId → Nat} {h : List Event}
    (hr : Run anyStep (boot max_count initial_count) h S) (hX : S.kernel.in_ready c p X)
    {W : Watch Links} (hW : Reach (Watch.step c p X) (inTurn c p X) ⟨S, []⟩ W) :
    NotOvertaken X W.selections := by
  obtain ⟨A, -, hs⟩ := hr.sim anyStep fun _ _ _ => trivial
  have hkept := hW.invariant
    (P := fun W => (∃ A, SSim W.system A grounded) ∧
      Rounds c p X W.system.kernel W.selections)
    ⟨⟨A, hs⟩, hX, .start _ _ _, fun hne => absurd rfl hne⟩
    fun W W' a hinv ha hstep => by
      obtain ⟨⟨A, hs⟩, hwatched⟩ := hinv
      exact hwatched.step hs ha hstep
  exact hkept.2.fair.not_overtaken.of_map state_list_item_injective

end Runs

/-- Three tasks of one priority on core 0. -/
def three_peers : List Action :=
  [.scheduler_init 0, .task_create 0 100 2, .task_create 0 100 2, .task_create 0 100 2]

theorem three_peers_run :
    ((boot (fun _ => 1) (fun _ => 0)).exec anyStep three_peers).isSome = true := by rfl

def three_peers_system : System Links :=
  (((boot (fun _ => 1) (fun _ => 0)).exec anyStep three_peers).get three_peers_run).2

theorem three_peers_reached : Run anyStep (boot (fun _ => 1) (fun _ => 0))
    (((boot (fun _ => 1) (fun _ => 0)).exec anyStep three_peers).get three_peers_run).1
    three_peers_system := Run.of_exec (Option.some_get three_peers_run).symm

/-- The first task sleeps for one tick, and joins behind the third before the index has passed it. -/
def peer_sleeps : List Action :=
  [.scheduler_start 0, .task_delay_ms (.pool 0 0) 1, .proceed (.pool 0 0), .tick 0 [], .tick 0 [],
   .tick 0 []]

theorem peer_sleeps_run : (execute (Watch.step 0 2 (.pool 0 2)) (inTurn 0 2 (.pool 0 2))
    ⟨three_peers_system, []⟩ peer_sleeps).isSome = true := by rfl

theorem round_robin_peer_sleeps : NotOvertaken (.pool 0 2)
    ((execute (Watch.step 0 2 (.pool 0 2)) (inTurn 0 2 (.pool 0 2))
      ⟨three_peers_system, []⟩ peer_sleeps).get peer_sleeps_run).selections :=
  round_robin three_peers_reached (by decide)
    (Reach.of_exec peer_sleeps .start (Option.some_get peer_sleeps_run).symm)

/-- The second and the third task sleep for one tick each, while the index is behind the first. -/
def peers_alternate : List Action :=
  [.scheduler_start 0, .tick 0 [],
   .task_delay_ms (.pool 0 1) 1, .proceed (.pool 0 1), .tick 0 [],
   .task_delay_ms (.pool 0 2) 1, .proceed (.pool 0 2), .tick 0 [], .tick 0 [], .tick 0 []]

theorem peers_alternate_run : (execute (Watch.step 0 2 (.pool 0 0)) anything
    ⟨three_peers_system, []⟩ peers_alternate).isSome = true := by rfl

/-- The second task runs twice before the first has its turn again. -/
theorem peers_alternate_selections : ((execute (Watch.step 0 2 (.pool 0 0)) anything
    ⟨three_peers_system, []⟩ peers_alternate).get peers_alternate_run).selections =
      [.pool 0 0, .pool 0 2, .pool 0 1, .pool 0 2, .pool 0 1, .pool 0 0] := by rfl

theorem round_robin_overtakes : ¬ ∀ (S : System Links) (h : List Event),
    Run anyStep (boot (fun _ => 1) (fun _ => 0)) h S → ∀ c p X, S.kernel.in_ready c p X →
      ∀ W, Reach (Watch.step c p X) anything ⟨S, []⟩ W → NotOvertaken X W.selections := by
  intro hall
  have hfair := hall _ _ three_peers_reached 0 2 (.pool 0 0) (by decide) _
    (Reach.of_exec peers_alternate .start (Option.some_get peers_alternate_run).symm)
  rw [peers_alternate_selections] at hfair
  exact absurd (hfair [.pool 0 2, .pool 0 1, .pool 0 2, .pool 0 1] (by decide) (by decide))
    (by decide)

end Rpitos
