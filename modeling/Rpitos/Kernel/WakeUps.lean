import Rpitos.Kernel.MutexMoves

/-!
# Kernel.WakeUps

When a blocked task wakes. `TaskWaits` is what a step of another task, an interrupt handler or a tick
does to a task inside a call: it stays where it is, unless the step hands it what it waits for, or is
the tick of its core at which it is due.

`wakes_exactly`: so over a run it wakes by a hand-over or at the first tick of its core whose count
has reached its wake-up time, and by nothing else.
-/

namespace Rpitos

open Function ListOps StatusCode

/-- The event gives the task what it waits for. -/
def Event.hands (t : Tcb) : Event → Bool
  | .lock_handed u _ => u = t
  | .take_handed u _ => u = t
  | _ => false

/-- The wait list from which the event takes a task. -/
def Event.source : Event → Option ListRef
  | .lock_handed _ mtx => some (.mutex_blocked_list mtx)
  | .take_handed _ smph => some (.semaphore_blocked_list smph)
  | _ => none

/-- The event ends the wait of the task. -/
def Event.wakes (t : Tcb) (e : Event) : Bool := e = .expires t || e.hands t

def Action.ticks (c : CoreId) : Action → Bool
  | .tick c' _ => c' = c
  | _ => false

/-- How many of the steps are ticks of the core. -/
def ticks (c : CoreId) (as : List Action) : Nat := as.countP (·.ticks c)

section Frames

variable {K : Kernel Links} {t u : Tcb}

/-! ## The wake-up time of another task -/

theorem enter_wait_wakeup (hu : u ≠ t) (l : ListRef) (timeout_ms : Int) (w : Nat) :
    (enter_wait K l t timeout_ms w).wakeup_time u = K.wakeup_time u := by
  unfold enter_wait
  dsimp only
  rw [remove_from_ready_fields]
  split
  · simp [scheduler_add_to_blocked_list, hu]
  · rfl

theorem mutex_inherit_wakeup (K : Kernel Links) (mtx : MutexId) (t : Tcb) :
    (mutex_inherit K mtx t).wakeup_time = K.wakeup_time := by
  obtain ⟨lists, prio, inh, h⟩ := mutex_inherit_effect K mtx t
  rw [h]

theorem mutex_lock_wakeup (hu : u ≠ t) (mtx : MutexId) (timeout_ms : Int) :
    (mutex_lock K mtx t timeout_ms).2.wakeup_time u = K.wakeup_time u := by
  by_cases hs : K.mutex_state mtx = .UNLOCKED
  · rw [mutex_lock, if_pos hs]
  · by_cases ht : timeout_ms = 0
    · rw [mutex_lock, if_neg hs, if_pos ht]
    · rw [mutex_lock_blocks_eq hs ht]
      exact (congrFun (mutex_inherit_wakeup ..) u).trans (enter_wait_wakeup hu ..)

theorem semaphore_take_wakeup (hu : u ≠ t) (smph : SemaphoreId) (timeout_ms : Int)
    (deadline : Nat) :
    (semaphore_take K smph t timeout_ms deadline).2.wakeup_time u = K.wakeup_time u := by
  obtain ⟨-, h⟩ | ⟨-, -, h⟩ | ⟨hc, ht, hd, -⟩ :=
    semaphore_take_effect K smph t timeout_ms deadline
  · rw [h]
  · rw [h]
  · rw [semaphore_take_blocks_eq (by omega) ht hd]
    exact enter_wait_wakeup hu ..

theorem scheduler_init_wakeup {c : CoreId} (hu : u ≠ .idle c) :
    (scheduler_init K c).wakeup_time u = K.wakeup_time u := by
  simp [scheduler_init, scheduler_add_to_ready_list, hu]

/-- A task that exists is not the new one. -/
theorem task_create_wakeup (hu : K.created u = true) (c : CoreId) (stack_depth priority : Nat) :
    (task_create K c stack_depth priority).2.2.wakeup_time u = K.wakeup_time u := by
  unfold task_create
  split
  case isTrue hn =>
    have hne : u ≠ .pool c ⟨K.task_counter c, hn⟩ := by
      rintro rfl
      simp [is_created] at hu
    dsimp only
    split
    · rfl
    · simp [scheduler_add_to_ready_list, hne]
  case isFalse => rfl

end Frames

/-- What happens to a task inside a call when it does nothing itself. -/
structure TaskWaits (t : Tcb) (S : System Links) (es : List Event) (S' : System Links) : Prop where
  call : S'.call t = S.call t
  wakeup_time : S'.kernel.wakeup_time t = S.kernel.wakeup_time t
  blocked : S'.kernel.current_state t = .BLOCKED ↔
    S.kernel.current_state t = .BLOCKED ∧ ∀ e ∈ es, e.wakes t = false
  /-- A task is handed what it waits for. -/
  handed : ∀ e ∈ es, e.hands t = true → (S.call t).waits_on = e.source ∧ e.source ≠ none

namespace TaskWaits

variable {t u : Tcb} {S S' S'' : System Links} {A : System Sequences} {es es' : List Event}

theorem refl (t : Tcb) (S : System Links) : TaskWaits t S [] S :=
  ⟨rfl, rfl, by simp, by simp⟩

theorem trans (h : TaskWaits t S es S') (h' : TaskWaits t S' es' S'') :
    TaskWaits t S (es ++ es') S'' := by
  refine ⟨h'.call.trans h.call, h'.wakeup_time.trans h.wakeup_time, ?_, fun e he hh => ?_⟩
  · rw [h'.blocked, h.blocked, List.forall_mem_append, and_assoc]
  · rcases List.mem_append.mp he with he | he
    · exact h.handed e he hh
    · rw [← h.call]
      exact h'.handed e he hh

theorem hands_of_wakes {e : Event} (h : e.wakes t = false) : e.hands t = false := by
  rw [Event.wakes, Bool.or_eq_false_iff] at h
  exact h.2

/-- Nothing happens to the task. -/
theorem frame (hc : S'.call t = S.call t)
    (hw : S'.kernel.wakeup_time t = S.kernel.wakeup_time t)
    (hb : S'.kernel.current_state t = .BLOCKED ↔ S.kernel.current_state t = .BLOCKED)
    (he : ∀ e ∈ es, e.wakes t = false) : TaskWaits t S es S' :=
  ⟨hc, hw, hb.trans (and_iff_left he).symm,
    fun e hm hh => absurd hh (by rw [hands_of_wakes (he e hm)]; exact Bool.false_ne_true)⟩

/-- A step of the kernel that leaves the states of all tasks. -/
theorem same {K : Kernel Links} (hw : K.wakeup_time = S.kernel.wakeup_time)
    (hs : K.current_state = S.kernel.current_state) (he : ∀ e ∈ es, e.wakes t = false) :
    TaskWaits t S es (S.withKernel K) :=
  frame rfl (congrFun hw t) (by rw [System.withKernel_kernel, hs]) he

/-- A section of another task. -/
theorem other {K : Kernel Links} {k : Call} (hu : t ≠ u)
    (hw : K.wakeup_time t = S.kernel.wakeup_time t)
    (hs : K.current_state t = S.kernel.current_state t) (he : ∀ e ∈ es, e.wakes t = false) :
    TaskWaits t S es ((S.withKernel K).setCall u k) :=
  frame (by simp [hu]) hw (by rw [System.setCall_kernel, System.withKernel_kernel, hs]) he

/-! ## Ticks and gives -/

theorem give (hs : SSim S A grounded) (smph : SemaphoreId) :
    TaskWaits t S (S.give smph).1 (S.give smph).2 := by
  unfold System.give
  dsimp only
  obtain ⟨w, xs, lists, hl, he⟩ | ⟨-, -, he⟩ | ⟨-, -, he⟩ := semaphore_give_effect hs.kernel smph
  · rw [he]
    obtain ⟨-, -, hb, -, hw⟩ := hs.kernel.wait_mem rfl (grounded_entered _)
      (x := .event_list_item w) (by rw [hl]; exact List.mem_cons_self)
    by_cases hwt : w = t
    · subst hwt
      refine ⟨rfl, rfl, ?_, ?_⟩
      · simp [Event.wakes, Event.hands]
      · have hwaits : (S.call w).waits_on = some (.semaphore_blocked_list smph) := hw
        simp [Event.hands, Event.source, hwaits]
    · refine frame rfl rfl ?_ ?_
      · simp [Ne.symm hwt]
      · simp [Event.wakes, Event.hands, hwt]
  · rw [he]
    exact same rfl rfl (by simp [Event.wakes, Event.hands])
  · rw [he]
    exact same rfl rfl (by simp [Event.wakes, Event.hands])

theorem gives : ∀ (smphs : List SemaphoreId) {S : System Links} {A : System Sequences},
    SSim S A grounded → TaskWaits t S (S.gives smphs).1 (S.gives smphs).2 := by
  intro smphs
  induction smphs with
  | nil =>
    intro S A _
    exact refl t S
  | cons smph rest ih =>
    intro S A hs
    exact (give hs smph).trans (ih (hs.give smph (grounded_entered _)).2)

theorem timer_tick {c : CoreId} (hs : SSim S A grounded) :
    TaskWaits t S ((timer_tick_handler S.kernel c).1.map .expires)
      (S.withKernel (timer_tick_handler S.kernel c).2) := by
  have hwoken : t ∈ (timer_tick_handler S.kernel c).1 → S.kernel.current_state t = .BLOCKED :=
    fun ht => (timer_tick_woken hs.kernel ht).1
  obtain ⟨lists, he⟩ := timer_tick_handler_effect S.kernel c
  generalize (timer_tick_handler S.kernel c).1 = ts at he hwoken
  rw [he]
  refine ⟨rfl, rfl, ?_, ?_⟩
  · by_cases ht : t ∈ ts
    · simp only [System.withKernel_kernel, if_pos ht]
      refine iff_of_false (fun h => nomatch h) fun h => ?_
      have := h.2 (.expires t) (List.mem_map_of_mem ht)
      simp [Event.wakes] at this
    · simp only [System.withKernel_kernel, if_neg ht]
      refine (and_iff_left fun e he => ?_).symm
      obtain ⟨u, hu, rfl⟩ := List.mem_map.mp he
      have hne : u ≠ t := fun h => ht (h ▸ hu)
      simp [Event.wakes, Event.hands, hne]
  · intro e he hh
    obtain ⟨u, hu, rfl⟩ := List.mem_map.mp he
    cases hh

theorem switch (hs : SSim S A grounded) (c : CoreId) :
    TaskWaits t S [] (S.withKernel (scheduler_switch_context S.kernel c)) := by
  obtain ⟨lists, st, cur, hung, he, hb⟩ := switch_context_effect hs.kernel (c := c) fun _ _ => rfl
  rw [he]
  exact frame rfl rfl (hb t) (by simp)

theorem tick {c : CoreId} (hs : SSim S A grounded) (smphs : List SemaphoreId) :
    TaskWaits t S (S.tick c smphs).1 (S.tick c smphs).2 := by
  have hs1 : SSim (S.withKernel (timer_tick_handler S.kernel c).2)
      (A.withKernel (timer_tick_handler A.kernel c).2) grounded :=
    ⟨hs.call, (hs.kernel.timer_tick_handler (fun u hu => absurd rfl hu)).2⟩
  have hs2 := (hs1.gives smphs (fun _ _ => grounded_entered _)).2
  have h : TaskWaits t S _ _ := ((timer_tick hs).trans (gives smphs hs1)).trans (switch hs2 c)
  rwa [List.append_nil] at h

/-! ## The sections of other tasks -/

theorem block_until (hu : t ≠ u) (w : Nat) :
    TaskWaits t S [] ((S.withKernel (block_until S.kernel u w)).setCall u .delayed) := by
  obtain ⟨lists, he⟩ := block_until_effect S.kernel u w
  rw [he]
  exact other hu (by simp [hu]) (by simp [hu]) (by simp)

theorem set_call {k : Call} (hu : t ≠ u) (he : ∀ e ∈ es, e.wakes t = false) :
    TaskWaits t S es (S.setCall u k) :=
  other (K := S.kernel) hu rfl rfl he

theorem lock (hu : t ≠ u) (mtx : MutexId) (timeout_ms : Int) :
    TaskWaits t S (S.lock u mtx timeout_ms).1 (S.lock u mtx timeout_ms).2 := by
  have hw := mutex_lock_wakeup (K := S.kernel) hu mtx timeout_ms
  unfold System.lock
  obtain ⟨-, held, he⟩ | ⟨-, -, he⟩ | ⟨-, -, lists, wake, prio, inh, he⟩ :=
    mutex_lock_effect S.kernel mtx u timeout_ms
  · rw [he]
    exact same rfl rfl (by simp [Event.wakes, Event.hands])
  · rw [he]
    exact same rfl rfl (by simp [Event.wakes, Event.hands])
  · rw [he] at hw ⊢
    exact other hu hw (by simp [hu]) (by simp [Event.wakes, Event.hands])

theorem unlock (hs : SSim S A grounded) (mtx : MutexId) :
    TaskWaits t S (S.unlock u mtx).1 (S.unlock u mtx).2 := by
  unfold System.unlock
  dsimp only
  by_cases hl : S.kernel.mutex_state mtx = .LOCKED
  case neg =>
    rw [mutex_unlock, if_neg hl]
    exact same rfl rfl (by simp [Event.wakes, Event.hands])
  obtain ⟨-, lists, prio, held, inh, he⟩ | ⟨w, lists, prio, held, inh, hw, he⟩ :=
    mutex_unlock_effect hs.kernel hl
  · rw [he]
    exact same rfl rfl (by simp [Event.wakes, Event.hands])
  · rw [he]
    obtain ⟨hb, hwaits⟩ := (hs.kernel.mem_wait rfl).mp hw
    by_cases hwt : w = t
    · subst hwt
      refine ⟨rfl, rfl, ?_, ?_⟩
      · simp [Event.wakes, Event.hands]
      · simp [Event.hands, Event.source, hwaits]
    · refine frame rfl rfl ?_ ?_
      · simp [Ne.symm hwt]
      · simp [Event.wakes, Event.hands, hwt]

theorem take (hu : t ≠ u) (smph : SemaphoreId) (timeout_ms : Int) (deadline : Nat) :
    TaskWaits t S (S.take u smph timeout_ms deadline).1 (S.take u smph timeout_ms deadline).2 := by
  have hw := semaphore_take_wakeup (K := S.kernel) hu smph timeout_ms deadline
  unfold System.take
  obtain ⟨-, he⟩ | ⟨-, -, he⟩ | ⟨-, -, -, lists, wake, he⟩ :=
    semaphore_take_effect S.kernel smph u timeout_ms deadline
  · rw [he]
    exact other hu rfl rfl (by simp [Event.wakes, Event.hands])
  · rw [he]
    exact other hu rfl rfl (by simp [Event.wakes, Event.hands])
  · rw [he] at hw ⊢
    exact other hu hw (by simp [hu]) (by simp [Event.wakes, Event.hands])

theorem takeWake (hu : t ≠ u) (smph : SemaphoreId) (timeout_ms : Int) (deadline : Nat) :
    TaskWaits t S (S.takeWake u smph timeout_ms deadline).1
      (S.takeWake u smph timeout_ms deadline).2 := by
  unfold System.takeWake semaphore_take_wake
  by_cases hr : S.kernel.wakeup_reason u = .RESOURCE_ACQUIRED
  · rw [if_pos hr]
    exact other hu rfl rfl (by simp [Event.wakes, Event.hands])
  · rw [if_neg hr]
    exact other hu rfl rfl (by simp)

theorem proceed (hu : t ≠ u) (hp : S.proceed u = some (es, S')) : TaskWaits t S es S' := by
  cases System.proceeds hp with
  | block_until hc => exact block_until hu _
  | delayed hc => exact set_call hu (by simp)
  | mutex_lock hc => exact set_call hu (by simp [Event.wakes, Event.hands])
  | semaphore_take hc => exact take hu ..
  | semaphore_wait hc => exact takeWake hu ..

/-- A task inside a call, in a step that is not its own. -/
theorem step {a : Action} (hs : SSim S A grounded) (hcall : S.call t ≠ .own)
    (ha : a.caller ≠ some t) (hstep : S.step a = some (es, S')) : TaskWaits t S es S' := by
  have hcreated : S.kernel.created t = true := by
    by_contra hc
    exact hcall (hs.kernel.tasks.fresh t (by simpa using hc))
  have hne : ∀ {u : Tcb}, a.caller = some u → t ≠ u := by
    rintro u hu rfl
    exact ha hu
  cases System.step_move hstep with
  | @scheduler_init c _ =>
    have hidle : t ≠ .idle c := by
      rintro rfl
      exact hcall (hs.kernel.tasks.idle c)
    have hw := scheduler_init_wakeup (K := S.kernel) hidle
    obtain ⟨_, _, _, _, _, _, _, _, _, _, he⟩ := scheduler_init_effect S.kernel c
    rw [he] at hw ⊢
    exact frame rfl hw (by simp [hidle]) (by simp)
  | @scheduler_start c _ _ => exact switch hs c
  | @tick _ timer_gives _ => exact tick hs timer_gives
  | @task_create c d p _ =>
    have hw := task_create_wakeup hcreated c d p
    obtain ⟨_, he⟩ | ⟨u, hu, _, _, _, _, _, _, _, _, _, _, _, he⟩ :=
      task_create_effect S.kernel c d p
    · rw [he]
      exact same rfl rfl (by simp)
    · have hut : t ≠ u := by
        rintro rfl
        rw [hcreated] at hu
        cases hu
      rw [he] at hw ⊢
      exact frame rfl hw (by simp [hut]) (by simp)
  | stack_write _ => exact same rfl rfl (by simp)
  | task_delay_ms hf => exact set_call (hne rfl) (by simp)
  | task_delay_until_ms hf => exact set_call (hne rfl) (by simp)
  | @mutex_set_inheritance m enable =>
    obtain ⟨_, he⟩ := mutex_set_inheritance_effect S.kernel m enable
    rw [he]
    exact same rfl rfl (by simp)
  | mutex_lock hf => exact lock (hne rfl) ..
  | mutex_unlock hf ho => exact unlock hs _
  | semaphore_take hf => exact set_call (hne rfl) (by simp [Event.wakes, Event.hands])
  | semaphore_give => exact give hs _
  | proceed hr hp => exact proceed (hne rfl) hp

end TaskWaits

/-! ## The tick that wakes a task -/

section Due

variable {t : Tcb} {S S' : System Links} {A : System Sequences} {a : Action} {es : List Event}
  {c : CoreId}

/-- The tasks that wait for a time are in the blocked list of their core. -/
theorem mem_blocked_list (hs : SSim S A grounded) :
    .state_list_item t ∈ A.kernel.lists.list (.blocked_task_list c) ↔
      S.kernel.current_state t = .BLOCKED ∧ (S.call t).timed = true ∧ t.home = c := by
  constructor
  · intro hm
    obtain ⟨-, -, hhome, hb⟩ := hs.kernel.blocked_mem hm
    obtain ⟨hb, htimed⟩ := hb rfl
    exact ⟨hb, htimed, hhome⟩
  · rintro ⟨hb, htimed, rfl⟩
    have hc : S.kernel.created t = true := by
      by_contra hc
      rw [hs.kernel.tasks.fresh t (by simpa using hc)] at htimed
      cases htimed
    rw [hs.kernel.linked.mem_state, stateHome, hs.kernel.tasks.home t hc]
    dsimp only [grounded, Flight.left_no]
    rw [hc, hb, stateList_blocked, if_pos htimed]

/-- The tasks that the tick handler takes off the blocked list. -/
theorem mem_timer_tick (hs : SSim S A grounded) : t ∈ (timer_tick_handler S.kernel c).1 ↔
    S.kernel.current_state t = .BLOCKED ∧ (S.call t).timed = true ∧ t.home = c ∧
      S.kernel.wakeup_time t ≤ u64 (S.kernel.tick_count c + 1) := by
  rw [(timer_tick_due hs.kernel c).1, dueTasks, List.mem_filter, decide_eq_true_iff, List.mem_map]
  have howner : (∃ x ∈ A.kernel.lists.list (.blocked_task_list c), x.owner = t) ↔
      .state_list_item t ∈ A.kernel.lists.list (.blocked_task_list c) := by
    constructor
    · rintro ⟨x, hx, rfl⟩
      rwa [← (hs.kernel.blocked_mem hx).1]
    · intro hm
      exact ⟨_, hm, rfl⟩
  rw [howner, mem_blocked_list hs]
  tauto

/-- The events of a `semaphore_give`. -/
def of_give : Event → Bool
  | .take_handed _ _ => true
  | .give_returns _ _ => true
  | _ => false

theorem give_events (S : System Links) (smph : SemaphoreId) :
    ∀ e ∈ (S.give smph).1, of_give e = true := by
  unfold System.give
  dsimp only
  split <;> simp [of_give]

theorem gives_events : ∀ (smphs : List SemaphoreId) (S : System Links),
    ∀ e ∈ (S.gives smphs).1, of_give e = true := by
  intro smphs
  induction smphs with
  | nil => simp [System.gives]
  | cons smph rest ih =>
    intro S
    exact List.forall_mem_append.mpr ⟨give_events S smph, ih _⟩

theorem proceed_expires (t : Tcb) {u : Tcb} (hp : S.proceed u = some (es, S')) :
    .expires t ∉ es := by
  cases System.proceeds hp with
  | block_until hc => simp
  | delayed hc => simp
  | mutex_lock hc => simp
  | semaphore_take hc =>
    unfold System.take
    split <;> simp
  | semaphore_wait hc =>
    unfold System.takeWake
    split <;> simp

/-- Which step takes a task off its blocked list. -/
theorem step_expires (hs : SSim S A grounded) (hstep : S.step a = some (es, S')) :
    .expires t ∈ es ↔ a.ticks t.home = true ∧ S.kernel.current_state t = .BLOCKED ∧
      (S.call t).timed = true ∧ S.kernel.wakeup_time t ≤ u64 (S.kernel.tick_count t.home + 1) := by
  have hquiet (he : Event.expires t ∉ es) (ha : a.ticks t.home = false) : .expires t ∈ es ↔
      a.ticks t.home = true ∧ S.kernel.current_state t = .BLOCKED ∧ (S.call t).timed = true ∧
        S.kernel.wakeup_time t ≤ u64 (S.kernel.tick_count t.home + 1) := by
    rw [ha]
    exact iff_of_false he fun h => Bool.false_ne_true h.1
  cases System.step_move hstep with
  | @tick c timer_gives _ =>
    have hmem : .expires t ∈ (S.tick c timer_gives).1 ↔ t ∈ (timer_tick_handler S.kernel c).1 := by
      show .expires t ∈ (timer_tick_handler S.kernel c).1.map Event.expires ++ _ ↔ _
      rw [List.mem_append, or_iff_left fun h => by cases gives_events _ _ _ h]
      simp
    rw [hmem, mem_timer_tick hs, Action.ticks, decide_eq_true_iff]
    constructor
    · rintro ⟨hb, htimed, rfl, hdue⟩
      exact ⟨rfl, hb, htimed, hdue⟩
    · rintro ⟨rfl, hb, htimed, hdue⟩
      exact ⟨hb, htimed, rfl, hdue⟩
  | scheduler_init _ => exact hquiet (by simp) rfl
  | scheduler_start _ _ => exact hquiet (by simp) rfl
  | task_create _ => exact hquiet (by simp) rfl
  | stack_write _ => exact hquiet (by simp) rfl
  | task_delay_ms _ => exact hquiet (by simp) rfl
  | task_delay_until_ms _ => exact hquiet (by simp) rfl
  | mutex_set_inheritance => exact hquiet (by simp) rfl
  | mutex_lock _ => exact hquiet (by unfold System.lock; split <;> simp) rfl
  | mutex_unlock _ _ => exact hquiet (by unfold System.unlock; dsimp only; split <;> simp) rfl
  | semaphore_take _ => exact hquiet (by simp) rfl
  | semaphore_give => exact hquiet (fun h => by cases give_events _ _ _ h) rfl
  | proceed _ hp => exact hquiet (proceed_expires t hp) rfl

/-! ## The clock -/

/-- The clocks of the cores stand still. -/
structure ClockKept (S S' : System Links) : Prop where
  tick_count : S'.kernel.tick_count = S.kernel.tick_count
  initialised : S'.kernel.initialised = S.kernel.initialised

namespace ClockKept

theorem give (hs : SSim S A grounded) (smph : SemaphoreId) : ClockKept S (S.give smph).2 := by
  unfold System.give
  obtain ⟨w, xs, lists, -, he⟩ | ⟨-, -, he⟩ | ⟨-, -, he⟩ := semaphore_give_effect hs.kernel smph
  · rw [he]
    exact ⟨rfl, rfl⟩
  · rw [he]
    exact ⟨rfl, rfl⟩
  · rw [he]
    exact ⟨rfl, rfl⟩

theorem gives : ∀ (smphs : List SemaphoreId) {S : System Links} {A : System Sequences},
    SSim S A grounded → ClockKept S (S.gives smphs).2 := by
  intro smphs
  induction smphs with
  | nil =>
    intro S A _
    exact ⟨rfl, rfl⟩
  | cons smph rest ih =>
    intro S A hs
    have hgive := give hs smph
    have hrest := ih (hs.give smph (grounded_entered _)).2
    exact ⟨hrest.tick_count.trans hgive.tick_count, hrest.initialised.trans hgive.initialised⟩

theorem switch (hs : SSim S A grounded) (c : CoreId) :
    ClockKept S (S.withKernel (scheduler_switch_context S.kernel c)) := by
  obtain ⟨lists, st, cur, hung, he, -⟩ := switch_context_effect hs.kernel (c := c) fun _ _ => rfl
  rw [he]
  exact ⟨rfl, rfl⟩

theorem lock (S : System Links) (t : Tcb) (mtx : MutexId) (timeout_ms : Int) :
    ClockKept S (S.lock t mtx timeout_ms).2 := by
  unfold System.lock
  obtain ⟨-, held, he⟩ | ⟨-, -, he⟩ | ⟨-, -, lists, wake, prio, inh, he⟩ :=
    mutex_lock_effect S.kernel mtx t timeout_ms
  · rw [he]
    exact ⟨rfl, rfl⟩
  · rw [he]
    exact ⟨rfl, rfl⟩
  · rw [he]
    exact ⟨rfl, rfl⟩

theorem unlock (hs : SSim S A grounded) (t : Tcb) (mtx : MutexId) :
    ClockKept S (S.unlock t mtx).2 := by
  unfold System.unlock
  dsimp only
  by_cases hl : S.kernel.mutex_state mtx = .LOCKED
  case neg =>
    rw [mutex_unlock, if_neg hl]
    exact ⟨rfl, rfl⟩
  obtain ⟨-, lists, prio, held, inh, he⟩ | ⟨w, lists, prio, held, inh, -, he⟩ :=
    mutex_unlock_effect hs.kernel hl
  · rw [he]
    exact ⟨rfl, rfl⟩
  · rw [he]
    exact ⟨rfl, rfl⟩

theorem take (S : System Links) (t : Tcb) (smph : SemaphoreId) (timeout_ms : Int)
    (deadline : Nat) : ClockKept S (S.take t smph timeout_ms deadline).2 := by
  unfold System.take
  obtain ⟨-, he⟩ | ⟨-, -, he⟩ | ⟨-, -, -, lists, wake, he⟩ :=
    semaphore_take_effect S.kernel smph t timeout_ms deadline
  · rw [he]
    exact ⟨rfl, rfl⟩
  · rw [he]
    exact ⟨rfl, rfl⟩
  · rw [he]
    exact ⟨rfl, rfl⟩

theorem takeWake (S : System Links) (t : Tcb) (smph : SemaphoreId) (timeout_ms : Int)
    (deadline : Nat) : ClockKept S (S.takeWake t smph timeout_ms deadline).2 := by
  unfold System.takeWake semaphore_take_wake
  split
  · rename_i heq
    split at heq
    · cases heq
      exact ⟨rfl, rfl⟩
    · cases heq
  · rename_i heq
    split at heq
    · cases heq
    · cases heq
      exact ⟨rfl, rfl⟩

theorem proceed (hp : S.proceed t = some (es, S')) : ClockKept S S' := by
  cases System.proceeds hp with
  | @block_until w hc =>
    obtain ⟨lists, he⟩ := block_until_effect S.kernel t w
    rw [he]
    exact ⟨rfl, rfl⟩
  | delayed hc => exact ⟨rfl, rfl⟩
  | mutex_lock hc => exact ⟨rfl, rfl⟩
  | semaphore_take hc => exact take ..
  | semaphore_wait hc => exact takeWake ..

end ClockKept

theorem tick_clock (hs : SSim S A grounded) (c : CoreId) (smphs : List SemaphoreId) :
    (S.tick c smphs).2.kernel.tick_count =
        update S.kernel.tick_count c (u64 (S.kernel.tick_count c + 1)) ∧
      (S.tick c smphs).2.kernel.initialised = S.kernel.initialised := by
  have hs1 : SSim (S.withKernel (timer_tick_handler S.kernel c).2)
      (A.withKernel (timer_tick_handler A.kernel c).2) grounded :=
    ⟨hs.call, (hs.kernel.timer_tick_handler (fun u hu => absurd rfl hu)).2⟩
  have hgives := ClockKept.gives smphs hs1
  have hswitch := ClockKept.switch (hs1.gives smphs (fun _ _ => grounded_entered _)).2 c
  obtain ⟨lists, he⟩ := timer_tick_handler_effect S.kernel c
  refine ⟨(hswitch.tick_count.trans hgives.tick_count).trans ?_,
    (hswitch.initialised.trans hgives.initialised).trans ?_⟩
  · rw [System.withKernel_kernel, he]
  · rw [System.withKernel_kernel, he]

/-- A core that has begun goes on, and its clock counts its ticks. -/
theorem step_clock (hs : SSim S A grounded) (hi : S.kernel.initialised c = true)
    (hstep : S.step a = some (es, S')) : S'.kernel.initialised c = true ∧
      S'.kernel.tick_count c =
        if a.ticks c then u64 (S.kernel.tick_count c + 1) else S.kernel.tick_count c := by
  have hkept (h : ClockKept S S') (ha : a.ticks c = false) : S'.kernel.initialised c = true ∧
      S'.kernel.tick_count c =
        if a.ticks c then u64 (S.kernel.tick_count c + 1) else S.kernel.tick_count c := by
    rw [h.initialised, h.tick_count, ha]
    exact ⟨hi, rfl⟩
  cases System.step_move hstep with
  | @scheduler_init c' hi' =>
    have hne : c ≠ c' := by
      rintro rfl
      rw [hi] at hi'
      cases hi'
    simp [scheduler_init, scheduler_add_to_ready_list, hne, hi, Action.ticks]
  | scheduler_start _ _ => exact hkept (.switch hs _) rfl
  | @tick c' timer_gives _ =>
    obtain ⟨hcount, hinit⟩ := tick_clock hs c' timer_gives
    rw [hcount, hinit]
    refine ⟨hi, ?_⟩
    by_cases hc : c' = c
    · subst hc
      simp [Action.ticks]
    · simp [Action.ticks, hc, Ne.symm hc]
  | @task_create c' d p _ =>
    obtain ⟨_, he⟩ | ⟨u, hu, _, _, _, _, _, _, _, _, _, _, _, he⟩ :=
      task_create_effect S.kernel c' d p
    · exact hkept (by rw [he]; exact ⟨rfl, rfl⟩) rfl
    · exact hkept (by rw [he]; exact ⟨rfl, rfl⟩) rfl
  | stack_write _ => exact hkept ⟨rfl, rfl⟩ rfl
  | task_delay_ms hf => exact hkept ⟨rfl, rfl⟩ rfl
  | task_delay_until_ms hf => exact hkept ⟨rfl, rfl⟩ rfl
  | @mutex_set_inheritance m enable =>
    obtain ⟨_, he⟩ := mutex_set_inheritance_effect S.kernel m enable
    exact hkept (by rw [he]; exact ⟨rfl, rfl⟩) rfl
  | mutex_lock hf => exact hkept (.lock ..) rfl
  | mutex_unlock hf ho => exact hkept (.unlock hs ..) rfl
  | semaphore_take hf => exact hkept ⟨rfl, rfl⟩ rfl
  | semaphore_give => exact hkept (.give hs _) rfl
  | proceed hr hp => exact hkept (.proceed hp) rfl

end Due

/-! ## Runs -/

section Runs

variable {t : Tcb} {S S' : System Links} {A : System Sequences}

/-- Among the steps is a tick at which the task is due. -/
def Due (t : Tcb) (S : System Links) (as : List Action) : Prop :=
  (S.call t).timed = true ∧ ∃ k, 0 < k ∧ k ≤ ticks t.home as ∧
    S.kernel.wakeup_time t ≤ u64 (S.kernel.tick_count t.home + k)

theorem due_nil : ¬Due t S [] := by
  rintro ⟨-, k, hpos, hle, -⟩
  exact absurd hpos (Nat.not_lt.mpr hle)

/-- The first step is such a tick, or one of the others is. -/
theorem due_cons {a : Action} {as : List Action} {S₁ : System Links} (hcall : S₁.call t = S.call t)
    (hwake : S₁.kernel.wakeup_time t = S.kernel.wakeup_time t)
    (hclock : S₁.kernel.tick_count t.home =
      if a.ticks t.home then u64 (S.kernel.tick_count t.home + 1)
      else S.kernel.tick_count t.home) :
    Due t S (a :: as) ↔ (a.ticks t.home = true ∧ (S.call t).timed = true ∧
      S.kernel.wakeup_time t ≤ u64 (S.kernel.tick_count t.home + 1)) ∨ Due t S₁ as := by
  unfold Due ticks
  rw [hcall, hwake, hclock, List.countP_cons]
  by_cases ha : a.ticks t.home = true
  · rw [if_pos ha, if_pos ha]
    have hnext (k : Nat) : u64 (u64 (S.kernel.tick_count t.home + 1) + k) =
        u64 (S.kernel.tick_count t.home + (k + 1)) := by
      unfold u64
      omega
    constructor
    · rintro ⟨htimed, k, hpos, hle, hk⟩
      by_cases hone : k = 1
      · exact .inl ⟨ha, htimed, hone ▸ hk⟩
      · refine .inr ⟨htimed, k - 1, by omega, by omega, ?_⟩
        rw [hnext, Nat.sub_add_cancel hpos]
        exact hk
    · rintro (⟨-, htimed, hk⟩ | ⟨htimed, k, hpos, hle, hk⟩)
      · exact ⟨htimed, 1, by omega, by omega, hk⟩
      · rw [hnext] at hk
        exact ⟨htimed, k + 1, by omega, by omega, hk⟩
  · rw [if_neg ha, if_neg ha, Nat.add_zero]
    exact (or_iff_right fun h => ha h.1).symm

theorem exec_cons {a : Action} {as : List Action} {es : List Event}
    (h : S.exec anyStep (a :: as) = some (es, S')) : ∃ es₁ S₁ es₂,
      S.step a = some (es₁, S₁) ∧ S₁.exec anyStep as = some (es₂, S') ∧ es = es₁ ++ es₂ := by
  rw [System.exec, if_pos (show anyStep S a from trivial)] at h
  cases hstep : S.step a with
  | none =>
    rw [hstep] at h
    cases h
  | some r =>
    rw [hstep] at h
    dsimp only at h
    cases hrest : r.2.exec anyStep as with
    | none =>
      rw [hrest] at h
      cases h
    | some r' =>
      rw [hrest] at h
      cases h
      exact ⟨r.1, r.2, r'.1, rfl, hrest, rfl⟩

/-- A task in a call does nothing but proceed with it. -/
theorem caller_proceeds {a : Action} {es : List Event} (hcall : S.call t ≠ .own)
    (ha : a.caller = some t) (hstep : S.step a = some (es, S')) : a = .proceed t := by
  cases System.step_move hstep with
  | proceed _ _ =>
    cases ha
    rfl
  | task_delay_ms hf => cases ha; exact absurd hf.2 hcall
  | task_delay_until_ms hf => cases ha; exact absurd hf.2 hcall
  | mutex_lock hf => cases ha; exact absurd hf.2 hcall
  | mutex_unlock hf _ => cases ha; exact absurd hf.2 hcall
  | semaphore_take hf => cases ha; exact absurd hf.2 hcall
  | _ => cases ha

theorem initialised_created (hs : SSim S A grounded) (hc : S.kernel.created t = true) :
    S.kernel.initialised t.home = true := by
  cases t with
  | idle c => exact hc
  | pool c slot =>
    exact hs.kernel.counter c (Nat.lt_of_le_of_lt (Nat.zero_le slot.val) (decide_eq_true_iff.mp hc))

theorem initialised_home (hs : SSim S A grounded) (hcall : S.call t ≠ .own) :
    S.kernel.initialised t.home = true := by
  refine initialised_created hs ?_
  by_contra hc
  exact hcall (hs.kernel.tasks.fresh t (by simpa using hc))

theorem forall_wakes (t : Tcb) (es : List Event) :
    (∀ e ∈ es, e.wakes t = false) ↔ .expires t ∉ es ∧ ∀ e ∈ es, e.hands t = false := by
  constructor
  · intro h
    refine ⟨fun hmem => ?_, fun e he => TaskWaits.hands_of_wakes (h e he)⟩
    have := h _ hmem
    simp [Event.wakes] at this
  · rintro ⟨hmem, hhands⟩ e he
    have hne : e ≠ .expires t := fun h => hmem (h ▸ he)
    simp [Event.wakes, hne, hhands e he]

/-- A wait, over steps in which the task does nothing. -/
theorem waited (as : List Action) : ∀ {S S' : System Links} {A : System Sequences}
    {es : List Event}, SSim S A grounded → S.call t ≠ .own → .proceed t ∉ as →
    S.exec anyStep as = some (es, S') →
      TaskWaits t S es S' ∧ (S.kernel.current_state t = .BLOCKED →
        ((∀ e ∈ es, e.wakes t = false) ↔ (∀ e ∈ es, e.hands t = false) ∧ ¬Due t S as)) := by
  induction as with
  | nil =>
    intro S S' A es _ _ _ he
    cases he
    exact ⟨.refl t S, fun _ => by simp [due_nil]⟩
  | cons a as ih =>
    intro S S' A es hs hcall hnot he
    obtain ⟨es₁, S₁, es₂, hstep, hexec, rfl⟩ := exec_cons he
    have hcaller : a.caller ≠ some t := fun h =>
      hnot (caller_proceeds hcall h hstep ▸ List.mem_cons_self)
    have hfirst := TaskWaits.step hs hcall hcaller hstep
    obtain ⟨A₁, -, hs₁⟩ := hs.step_some hstep
    obtain ⟨hrest, hiff⟩ := ih hs₁ (by rw [hfirst.call]; exact hcall)
      (fun h => hnot (List.mem_cons_of_mem a h)) hexec
    refine ⟨hfirst.trans hrest, fun hb => ?_⟩
    have hclock := (step_clock hs (initialised_home hs hcall) hstep).2
    have hexpires := step_expires (t := t) hs hstep
    rw [due_cons hfirst.call hfirst.wakeup_time hclock, List.forall_mem_append,
      List.forall_mem_append]
    have hsplit := forall_wakes t es₁
    by_cases hnow : a.ticks t.home = true ∧ (S.call t).timed = true ∧
        S.kernel.wakeup_time t ≤ u64 (S.kernel.tick_count t.home + 1)
    · -- the task is due at the first step
      have hmem : .expires t ∈ es₁ := hexpires.mpr ⟨hnow.1, hb, hnow.2⟩
      refine iff_of_false (fun h => (hsplit.mp h.1).1 hmem) fun h => h.2 (.inl hnow)
    · have hmem : .expires t ∉ es₁ := fun h => hnow ⟨(hexpires.mp h).1, (hexpires.mp h).2.2⟩
      rw [or_iff_right hnow]
      by_cases hhands : ∀ e ∈ es₁, e.hands t = false
      · have hquiet := hsplit.mpr ⟨hmem, hhands⟩
        rw [and_iff_right hquiet, and_iff_right hhands]
        exact hiff (hfirst.blocked.mpr ⟨hb, hquiet⟩)
      · exact iff_of_false (fun h => hhands (hsplit.mp h.1).2) fun h => hhands h.1.1

end Runs

/-- A blocked task, over any steps of the other tasks, of interrupt handlers and of the clocks: it
stays blocked until it is handed what it waits for, or, where its wait is for a time, until the first
tick of its core whose count has reached its wake-up time. A task that only waits for a time is handed
nothing. -/
theorem wakes_exactly {max_count initial_count : SemaphoreId → Nat} {h es : List Event}
    {S S' : System Links} {t : Tcb} {as : List Action}
    (hr : Run anyStep (boot max_count initial_count) h S) (hcall : S.call t ≠ .own)
    (hb : S.kernel.current_state t = .BLOCKED) (hnot : .proceed t ∉ as)
    (he : S.exec anyStep as = some (es, S')) :
    S'.call t = S.call t ∧
    (S'.kernel.current_state t = .BLOCKED ↔ (∀ e ∈ es, e.hands t = false) ∧ ¬Due t S as) ∧
    ((S.call t).waits_on = none → ∀ e ∈ es, e.hands t = false) := by
  obtain ⟨A, -, hs⟩ := hr.sim anyStep fun _ _ _ => trivial
  obtain ⟨hwaits, hiff⟩ := waited as hs hcall hnot he
  refine ⟨hwaits.call, ?_, fun hnone e hm => ?_⟩
  · rw [hwaits.blocked, and_iff_right hb]
    exact hiff hb
  · by_contra hhands
    obtain ⟨hsource, hsome⟩ := hwaits.handed e hm (by simpa using hhands)
    exact hsome (hsource.symm.trans hnone)

/-- A task of core 0, which runs. -/
def one_task : List Action :=
  [.scheduler_init 0, .task_create 0 100 3, .scheduler_start 0]

theorem one_task_run : ((boot (fun _ => 1) (fun _ => 0)).exec anyStep one_task).isSome = true := by
  rfl

/-- The system after `one_task`. -/
def before_delay : List Event × System Links :=
  ((boot (fun _ => 1) (fun _ => 0)).exec anyStep one_task).get one_task_run

theorem before_delay_reached :
    Run anyStep (boot (fun _ => 1) (fun _ => 0)) before_delay.1 before_delay.2 :=
  Run.of_exec (Option.some_get one_task_run).symm

/-- The task delays itself for two ticks. -/
def delay_two : List Action := [.task_delay_ms (.pool 0 0) 2, .proceed (.pool 0 0)]

theorem delay_two_run : (before_delay.2.exec anyStep delay_two).isSome = true := by rfl

def sleeping : List Event × System Links :=
  (before_delay.2.exec anyStep delay_two).get delay_two_run

theorem sleeping_two_ticks :
    (sleeping.2.exec anyStep [.tick 0 [], .tick 0 []]).isSome = true := by rfl

/-- The second tick wakes it. -/
theorem wakes_exactly_delay :
    ((sleeping.2.exec anyStep [.tick 0 [], .tick 0 []]).get sleeping_two_ticks).2.kernel.current_state
      (.pool 0 0) ≠ .BLOCKED := by
  have hreach := before_delay_reached.exec delay_two (Option.some_get delay_two_run).symm
  intro hb
  refine ((wakes_exactly hreach (t := .pool 0 0) ?_ rfl (by decide)
    (Option.some_get sleeping_two_ticks).symm).2.1.mp hb).2 ?_
  · exact Call.noConfusion
  · exact ⟨rfl, 2, by decide, by decide, by decide +kernel⟩

end Rpitos
