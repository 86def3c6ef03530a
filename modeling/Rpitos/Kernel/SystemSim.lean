import Rpitos.Kernel.SyncSim

/-!
# Kernel.SystemSim

The system on pointers and the system on sequences make the same steps, with the same events
(`step_sim`), so every run of the first is a run of the second (`Run.sim`).
-/

namespace Rpitos

open Function ListOps StatusCode

/-- The two systems are at the same place. -/
structure SSim (S : System Links) (A : System Sequences) (fl : Tcb → Flight) : Prop where
  call : A.call = S.call
  kernel : Sim S.kernel A.kernel S.call fl

/-- The core whose context is switched. -/
def Action.switches : Action → Option CoreId
  | .scheduler_start c => some c
  | .tick c _ => some c
  | _ => none

/-- The task whose own code makes the call. -/
def Action.caller : Action → Option Tcb
  | .task_delay_ms t _ => some t
  | .task_delay_until_ms t _ _ => some t
  | .mutex_lock t _ _ => some t
  | .mutex_unlock t _ => some t
  | .semaphore_take t _ _ => some t
  | .proceed t => some t
  | _ => none

/-- The core that executes the step, where the step says so. -/
def Action.core : Action → Option CoreId
  | .scheduler_init c => some c
  | .scheduler_start c => some c
  | .tick c _ => some c
  | .task_create c _ _ => some c
  | .stack_write t _ => some t.home
  | .task_delay_ms t _ => some t.home
  | .task_delay_until_ms t _ _ => some t.home
  | .mutex_set_inheritance _ _ => none
  | .mutex_lock t _ _ => some t.home
  | .mutex_unlock t _ => some t.home
  | .semaphore_take t _ _ => some t.home
  | .semaphore_give _ => none
  | .proceed t => some t.home

/-- The semaphores an interrupt handler or a task gives in the step. -/
def Action.gives : Action → List SemaphoreId
  | .tick _ timer_gives => timer_gives
  | .semaphore_give smph => [smph]
  | _ => []

/-- Whether the step is a `mutex_lock` that boosts the task. -/
def System.boosts {L : Type} (S : System L) (t : Tcb) : Action → Prop
  | .mutex_lock u mtx timeout_ms => S.kernel.lock_boosts mtx u timeout_ms t
  | _ => False

instance {L : Type} (S : System L) (t : Tcb) (a : Action) : Decidable (S.boosts t a) := by
  unfold System.boosts; split <;> infer_instance

/-- The step keeps away from the tasks that are about to block: it is not by such a task, and gives
no semaphore it has joined; and when the task has left its ready list too, it is not a step of its
core, and does not boost it. -/
structure Apart (S : System Links) (fl : Tcb → Flight) (a : Action) : Prop where
  caller : ∀ t, (fl t).entered ≠ none → a.caller ≠ some t
  gives : ∀ t, ∀ smph ∈ a.gives, (fl t).entered ≠ some (.semaphore_blocked_list smph)
  core : ∀ t, (fl t).left ≠ none → a.core ≠ some t.home
  boost : ∀ t, (fl t).left ≠ none → ¬ S.boosts t a

/-- No task is in flight. -/
def grounded : Tcb → Flight := fun _ => .no

theorem Apart.grounded (S : System Links) (a : Action) : Apart S grounded a :=
  ⟨fun _ h => absurd rfl h, fun u _ _ => by simp [Rpitos.grounded], fun _ h => absurd rfl h,
    fun _ h => absurd rfl h⟩

theorem grounded_entered (l : ListRef) (u : Tcb) : (grounded u).entered ≠ some l := by
  simp [grounded]

namespace SSim

variable {S : System Links} {A : System Sequences} {fl : Tcb → Flight} {t : Tcb}

theorem runs_eq (h : SSim S A fl) (t : Tcb) : A.kernel.runs t = S.kernel.runs t := by
  rw [h.kernel.same]; rfl

/-- A task that runs exists and is not blocked. -/
theorem running (h : SSim S A fl) (hr : S.kernel.runs t = true) :
    S.kernel.created t = true ∧ S.kernel.current_state t ≠ .BLOCKED ∧ t.is_task = true := by
  unfold Kernel.runs at hr
  simp only [Bool.and_eq_true, Bool.not_eq_true', beq_iff_eq, bne_iff_ne] at hr
  obtain ⟨⟨⟨h1, -⟩, h3⟩, h4⟩ := hr
  exact ⟨(h.kernel.tasks.current _ t h3).1, h4, h1⟩

theorem give (h : SSim S A fl) (smph : SemaphoreId)
    (hn : ∀ u, (fl u).entered ≠ some (.semaphore_blocked_list smph)) :
    (S.give smph).1 = (A.give smph).1 ∧ SSim (S.give smph).2 (A.give smph).2 fl := by
  obtain ⟨h1, h2, h3⟩ := h.kernel.semaphore_give smph hn
  unfold System.give
  dsimp only
  rw [h1, h2]
  exact ⟨rfl, h.call, h3⟩

theorem gives : ∀ (smphs : List SemaphoreId) {S : System Links} {A : System Sequences},
    SSim S A fl → (∀ smph ∈ smphs, ∀ u, (fl u).entered ≠ some (.semaphore_blocked_list smph)) →
    (S.gives smphs).1 = (A.gives smphs).1 ∧ SSim (S.gives smphs).2 (A.gives smphs).2 fl := by
  intro smphs
  induction smphs with
  | nil => intro S A h _; exact ⟨rfl, h⟩
  | cons smph rest ih =>
    intro S A h hn
    obtain ⟨h1, h2⟩ := h.give smph (hn smph (by simp))
    obtain ⟨h3, h4⟩ := ih h2 (fun s hs => hn s (by simp [hs]))
    simp only [System.gives]
    exact ⟨by rw [h1, h3], h4⟩

/-- The kernels at the context switch of a tick. -/
theorem tick_switch {c : CoreId} (h : SSim S A fl) (hd : Sim.NoneDueNext S.kernel S.call fl c)
    {timer_gives : List SemaphoreId}
    (hn : ∀ smph ∈ timer_gives, ∀ u, (fl u).entered ≠ some (.semaphore_blocked_list smph)) :
    SSim ((S.withKernel (timer_tick_handler S.kernel c).2).gives timer_gives).2
      ((A.withKernel (timer_tick_handler A.kernel c).2).gives timer_gives).2 fl := by
  have h1 : SSim (S.withKernel (timer_tick_handler S.kernel c).2)
      (A.withKernel (timer_tick_handler A.kernel c).2) fl :=
    ⟨h.call, (h.kernel.timer_tick_handler hd).2⟩
  exact (h1.gives timer_gives hn).2

theorem tick {c : CoreId} (h : SSim S A fl) (hd : Sim.NoneDueNext S.kernel S.call fl c)
    (hl : ∀ t, t.home = c → (fl t).left = none) (timer_gives : List SemaphoreId)
    (hn : ∀ smph ∈ timer_gives, ∀ u, (fl u).entered ≠ some (.semaphore_blocked_list smph)) :
    (S.tick c timer_gives).1 = (A.tick c timer_gives).1 ∧
      SSim (S.tick c timer_gives).2 (A.tick c timer_gives).2 fl := by
  obtain ⟨h1, h2⟩ := h.kernel.timer_tick_handler hd
  have h3 : SSim (S.withKernel (timer_tick_handler S.kernel c).2)
      (A.withKernel (timer_tick_handler A.kernel c).2) fl := ⟨h.call, h2⟩
  obtain ⟨h4, h5⟩ := h3.gives timer_gives hn
  unfold System.tick
  dsimp only
  exact ⟨by rw [h1, h4], h5.call, h5.kernel.switch_context hl⟩

theorem lock {mtx : MutexId} {timeout_ms : Int} (h : SSim S A fl) (hr : S.kernel.runs t = true)
    (he : (fl t).entered = none)
    (hl : ∀ o, S.kernel.lock_boosts mtx t timeout_ms o → (fl o).left = none) :
    (S.lock t mtx timeout_ms).1 = (A.lock t mtx timeout_ms).1 ∧
      SSim (S.lock t mtx timeout_ms).2 (A.lock t mtx timeout_ms).2 fl := by
  obtain ⟨hc, hs, ht⟩ := h.running hr
  obtain ⟨h1, h2⟩ := h.kernel.mutex_lock mtx timeout_ms hc hs ht he hl
  unfold System.lock
  cases hk : mutex_lock S.kernel mtx t timeout_ms with
  | mk r K =>
    cases ha : mutex_lock A.kernel mtx t timeout_ms with
    | mk r' K' =>
      rw [hk, ha] at h1 h2
      cases h1
      cases r with
      | none => exact ⟨rfl, by simp [System.setCall, System.withKernel, h.call], by simpa using h2⟩
      | some code => exact ⟨rfl, h.call, by simpa using h2⟩

theorem unlock {mtx : MutexId} (h : SSim S A fl)
    (hl : ∀ o, S.kernel.mutex_owner mtx = some o → (fl o).left = none) :
    (S.unlock t mtx).1 = (A.unlock t mtx).1 ∧ SSim (S.unlock t mtx).2 (A.unlock t mtx).2 fl := by
  obtain ⟨h1, h2⟩ := h.kernel.mutex_unlock mtx hl
  unfold System.unlock
  dsimp only
  rw [h1]
  exact ⟨rfl, h.call, h2⟩

theorem take {smph : SemaphoreId} {timeout_ms : Int} {deadline : Nat} (h : SSim S A fl)
    (hr : S.kernel.runs t = true) (he : (fl t).entered = none) :
    (S.take t smph timeout_ms deadline).1 = (A.take t smph timeout_ms deadline).1 ∧
      SSim (S.take t smph timeout_ms deadline).2 (A.take t smph timeout_ms deadline).2 fl := by
  obtain ⟨hc, hs, ht⟩ := h.running hr
  obtain ⟨h1, h2⟩ := h.kernel.semaphore_take smph timeout_ms deadline hc hs ht he
  unfold System.take
  cases hk : semaphore_take S.kernel smph t timeout_ms deadline with
  | mk r K =>
    cases ha : semaphore_take A.kernel smph t timeout_ms deadline with
    | mk r' K' =>
      rw [hk, ha] at h1 h2
      cases h1
      cases r with
      | none => exact ⟨rfl, by simp [System.setCall, System.withKernel, h.call], by simpa using h2⟩
      | some code =>
        exact ⟨rfl, by simp [System.setCall, System.withKernel, h.call], by simpa using h2⟩

theorem setCall {k : Call} (h : SSim S A fl) (hr : S.kernel.runs t = true)
    (hl : (fl t).left = none) :
    SSim (S.setCall t k) (A.setCall t k) fl := by
  obtain ⟨hc, hs, ht⟩ := h.running hr
  exact ⟨by simp [System.setCall, h.call], h.kernel.set_call hc hs ht hl⟩

theorem takeWake {smph : SemaphoreId} {timeout_ms : Int} {deadline : Nat} (h : SSim S A fl)
    (hr : S.kernel.runs t = true) (hl : (fl t).left = none) :
    (S.takeWake t smph timeout_ms deadline).1 = (A.takeWake t smph timeout_ms deadline).1 ∧
      SSim (S.takeWake t smph timeout_ms deadline).2 (A.takeWake t smph timeout_ms deadline).2
        fl := by
  have hw : A.kernel.wakeup_reason = S.kernel.wakeup_reason := by rw [h.kernel.same]; rfl
  unfold System.takeWake semaphore_take_wake
  rw [hw]
  by_cases hwr : S.kernel.wakeup_reason t = .RESOURCE_ACQUIRED
  · simp only [hwr, if_true]
    have h1 := h.setCall (k := .own) hr hl
    refine ⟨trivial, h1.call, ?_⟩
    have ho : A.kernel = S.kernel.over A.kernel.lists := h.kernel.same
    exact ⟨by simp only [System.setCall, System.withKernel]; rw [ho]; rfl, h1.kernel.linked,
      h1.kernel.tasks, h1.kernel.counter, h1.kernel.owners⟩
  · simp only [hwr, if_false]
    exact ⟨trivial, h.setCall (k := .semaphore_take smph timeout_ms deadline) hr hl⟩

theorem block_until {w : Nat} (h : SSim S A fl) (hr : S.kernel.runs t = true)
    (he : (fl t).entered = none) :
    SSim ((S.withKernel (block_until S.kernel t w)).setCall t .delayed)
      ((A.withKernel (block_until A.kernel t w)).setCall t .delayed) fl := by
  obtain ⟨hc, hs, ht⟩ := h.running hr
  exact ⟨by simp [h.call], by simpa using h.kernel.block_until hc hs ht he⟩

/-- A step is possible on both sides or on neither, with the same events. -/
def Steps (fl : Tcb → Flight) (x : Option (List Event × System Links))
    (y : Option (List Event × System Sequences)) : Prop :=
  match x, y with
  | none, none => True
  | some r, some r' => r.1 = r'.1 ∧ SSim r.2 r'.2 fl
  | _, _ => False

/-- The two guards are the same. -/
theorem Steps.guard {p q : Prop} [Decidable p] [Decidable q] {r : List Event × System Links}
    {r' : List Event × System Sequences} (hpq : q ↔ p)
    (h : p → r.1 = r'.1 ∧ SSim r.2 r'.2 fl) :
    Steps fl (if p then some r else none) (if q then some r' else none) := by
  by_cases hp : p
  · rw [if_pos hp, if_pos (hpq.mpr hp)]; exact h hp
  · rw [if_neg hp, if_neg (mt hpq.mp hp)]; trivial

theorem proceed (h : SSim S A fl) (hr : S.kernel.runs t = true) (he : (fl t).entered = none) :
    Steps fl (S.proceed t) (A.proceed t) := by
  have hl := Flight.left_of_entered he
  unfold System.proceed
  rw [h.call]
  cases S.call t with
  | own => trivial
  | block_until w => exact ⟨rfl, h.block_until hr he⟩
  | delayed => exact ⟨rfl, h.setCall hr hl⟩
  | mutex_lock mtx timeout_ms =>
    have : A.kernel.mutex_owner = S.kernel.mutex_owner := by rw [h.kernel.same]; rfl
    exact ⟨by simp [mutex_lock_result, this], h.setCall hr hl⟩
  | semaphore_take smph timeout_ms deadline => exact h.take hr he
  | semaphore_wait smph timeout_ms deadline => exact h.takeWake hr hl

theorem free_iff (h : SSim S A fl) : A.free t ↔ S.free t := by
  unfold System.free; rw [h.runs_eq, h.call]

end SSim

/-- A tick on which no task in flight is due. -/
def TickOk (S : System Links) (fl : Tcb → Flight) : Action → Prop
  | .tick c _ => Sim.NoneDueNext S.kernel S.call fl c
  | _ => True

theorem SSim.step {S : System Links} {A : System Sequences} {fl : Tcb → Flight} (h : SSim S A fl)
    (a : Action) (ha : TickOk S fl a) (hap : Apart S fl a) :
    SSim.Steps fl (S.step a) (A.step a) := by
  have hfree : ∀ t, a.caller = some t → (fl t).entered = none := by
    intro t ht
    by_contra he
    exact hap.caller t he ht
  have hleft : ∀ t, a.caller = some t → (fl t).left = none := fun t ht =>
    Flight.left_of_entered (hfree t ht)
  have hcore : ∀ c, a.core = some c → ∀ t, t.home = c → (fl t).left = none := by
    intro c hc t ht
    by_contra hl
    exact hap.core t hl (ht ▸ hc)
  obtain ⟨KA, callA⟩ := A
  obtain ⟨s, hs⟩ := h.kernel.exists_over
  have hcall : callA = S.call := h.call
  dsimp only at hs
  subst hs hcall
  have hK := h.kernel
  cases a with
  | scheduler_init c =>
    exact Steps.guard Iff.rfl fun hi => ⟨rfl, rfl, hK.scheduler_init hi⟩
  | scheduler_start c => exact Steps.guard Iff.rfl fun _ => ⟨rfl, rfl, hK.switch_context (hcore c rfl)⟩
  | tick c timer_gives =>
    exact Steps.guard Iff.rfl fun _ =>
      h.tick ha (hcore c rfl) timer_gives fun s hs u => hap.gives u s hs
  | task_create c d p => exact Steps.guard Iff.rfl fun hi => ⟨rfl, rfl, hK.task_create hi⟩
  | stack_write t w =>
    exact Steps.guard Iff.rfl fun _ =>
      ⟨rfl, rfl, ⟨rfl, hK.linked, hK.tasks, hK.counter, hK.owners⟩⟩
  | task_delay_ms t ticks => exact Steps.guard h.free_iff fun hf => ⟨rfl, h.setCall hf.1 (hleft t rfl)⟩
  | task_delay_until_ms t last_wake_time period =>
    exact Steps.guard h.free_iff fun hf => ⟨rfl, h.setCall hf.1 (hleft t rfl)⟩
  | mutex_set_inheritance mtx enable =>
    refine ⟨rfl, rfl, ?_⟩
    have hn : num_items s (ListRef.mutex_blocked_list mtx) =
        num_items S.kernel.lists (ListRef.mutex_blocked_list mtx) := (hK.num_items_eq _).symm
    show Sim (mutex_set_inheritance S.kernel mtx enable).2
      (mutex_set_inheritance (S.kernel.over s) mtx enable).2 S.call fl
    unfold mutex_set_inheritance
    by_cases hg : S.kernel.mutex_state mtx = .LOCKED ∨
        0 < num_items S.kernel.lists (ListRef.mutex_blocked_list mtx)
    · have hg' : (S.kernel.over s).mutex_state mtx = .LOCKED ∨
          0 < num_items (S.kernel.over s).lists (ListRef.mutex_blocked_list mtx) := hn ▸ hg
      rw [if_pos hg, if_pos hg']; exact hK
    · have hg' : ¬ ((S.kernel.over s).mutex_state mtx = .LOCKED ∨
          0 < num_items (S.kernel.over s).lists (ListRef.mutex_blocked_list mtx)) := hn ▸ hg
      rw [if_neg hg, if_neg hg']
      exact ⟨rfl, hK.linked, hK.tasks, hK.counter, hK.owners⟩
  | mutex_lock t mtx timeout_ms =>
    refine Steps.guard h.free_iff fun hf => h.lock hf.1 (hfree t rfl) fun o ho => ?_
    by_contra hl
    exact hap.boost o hl ho
  | mutex_unlock t mtx =>
    refine Steps.guard (and_congr h.free_iff Iff.rfl) fun hf => h.unlock fun o ho => ?_
    rw [show o = t from Option.some.inj (ho.symm.trans hf.2)]
    exact hleft t rfl
  | semaphore_take t smph timeout_ms =>
    exact Steps.guard h.free_iff fun hf => ⟨rfl, h.setCall hf.1 (hleft t rfl)⟩
  | semaphore_give smph => exact h.give smph fun u => hap.gives u smph (by simp [Action.gives])
  | proceed t =>
    show Steps fl (if S.kernel.runs t = true then S.proceed t else none)
      (if S.kernel.runs t = true then _ else none)
    by_cases hr : S.kernel.runs t = true
    · rw [if_pos hr, if_pos hr]; exact h.proceed hr (hfree t rfl)
    · rw [if_neg hr, if_neg hr]; trivial

/-- A step on pointers is one on sequences. -/
theorem SSim.step_some {S S' : System Links} {A : System Sequences} {a : Action} {es : List Event}
    (h : SSim S A grounded) (hstep : S.step a = some (es, S')) :
    ∃ A', A.step a = some (es, A') ∧ SSim S' A' grounded := by
  have hs := h.step a (by cases a <;> first | trivial | exact fun t ht => absurd rfl ht)
    (.grounded S a)
  rw [hstep] at hs
  cases hA : A.step a with
  | none => rw [hA] at hs; exact hs.elim
  | some r =>
    rw [hA] at hs
    obtain ⟨rfl, hs⟩ := hs
    exact ⟨r.2, rfl, hs⟩

/-! ## Runs -/

section Boot

variable (max_count initial_count : SemaphoreId → Nat)

theorem SSim.boot : SSim (System.boot (Heap.empty : Links) max_count initial_count)
    (System.boot (Seqs.empty : Sequences) max_count initial_count) grounded := by
  have hcr : ∀ t, (Kernel.boot (Heap.empty : Links) max_count initial_count).created t = false := by
    intro t; cases t <;> rfl
  have hne : ∀ t, (Kernel.boot (Heap.empty : Links) max_count initial_count).created t ≠ true := by
    intro t; rw [hcr]; exact Bool.false_ne_true
  refine ⟨rfl, Sim.relink Linked.empty rfl rfl (fun t => ?_) (fun t => ?_) (fun t => ?_) ?_ ?_ ?_⟩
  · show stateHome (Kernel.boot _ _ _) _ grounded t = none
    simp [stateHome, hcr, grounded]
  · show eventHome (Kernel.boot _ _ _) _ _ t = none
    rw [eventHome, hcr, eventList_fresh]
  · simp [grounded]
  · exact ⟨fun t ht => absurd ht (hne t), fun t ht => absurd ht (hne t),
      fun t ht => absurd ht (hne t), fun _ _ => rfl, fun _ => rfl, fun t ht => absurd rfl ht,
      fun c t ht => by cases ht⟩
  · intro c hc; cases hc
  · intro m t ht; cases ht

end Boot

/-- The system at boot, on pointers. -/
def boot (max_count initial_count : SemaphoreId → Nat) : System Links :=
  System.boot Heap.empty max_count initial_count

/-- The system at boot, on sequences. -/
def bootSeqs (max_count initial_count : SemaphoreId → Nat) : System Sequences :=
  System.boot Seqs.empty max_count initial_count

/-- Every run on pointers is a run on sequences with the same history. -/
theorem Run.sim {ok : Guard Links} {max_count initial_count : SemaphoreId → Nat}
    {h : List Event} {S : System Links} (hr : Run ok (boot max_count initial_count) h S)
    (ok' : Guard Sequences) (hok : ∀ {S A} a, SSim S A grounded → ok S a → ok' A a) :
    ∃ A, Run ok' (bootSeqs max_count initial_count) h A ∧ SSim S A grounded := by
  induction hr with
  | start => exact ⟨_, .start, SSim.boot _ _⟩
  | @step h evs S S' a _ ha hstep ih =>
    obtain ⟨A, hrun, hsim⟩ := ih
    obtain ⟨A', hA, hs⟩ := hsim.step_some hstep
    exact ⟨A', hrun.step (hok a hsim ha) hA, hs⟩

end Rpitos
