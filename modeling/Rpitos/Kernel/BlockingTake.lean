import Rpitos.Kernel.CrossCore
import Rpitos.Kernel.Effects

/-!
# Kernel.BlockingTake

The blocking path of `semaphore_take`, cut where it releases a lock: the caller enters the wait list,
leaves its ready list under the scheduler lock of its core, and is stored as blocked after that lock
is released. The other cores go on in between.

A `mutex_lock` that boosts the caller between the last two puts it back in a ready list, and it is
blocked there (`boost_in_window`). As long as none does, a blocked task is in no ready list, and is
not selected before a give or its time-out (`blocking_take_atomic`).
-/

namespace Rpitos

open Function ListOps StatusCode

/-- What a core is in the middle of: nothing, or the blocking path of `semaphore_take`. -/
inductive TakePath where
  | none
  /-- The caller is in the wait list. -/
  | added (cur_tcb : Tcb) (smph : SemaphoreId) (timeout_ms : Int) (deadline : Nat)
  /-- The caller has left its ready list, and the scheduler lock is released. -/
  | moved (cur_tcb : Tcb) (smph : SemaphoreId) (timeout_ms : Int) (deadline : Nat)
  deriving DecidableEq, Repr

namespace TakePath

/-- The semaphore whose lock the core holds. -/
def smph : TakePath → Option SemaphoreId
  | .none => Option.none
  | .added _ s _ _ => some s
  | .moved _ s _ _ => some s

def cur_tcb : TakePath → Option Tcb
  | .none => Option.none
  | .added t _ _ _ => some t
  | .moved t _ _ _ => some t

/-- The task that has left its ready list and is not blocked. -/
def moved_tcb : TakePath → Option Tcb
  | .moved t _ _ _ => some t
  | _ => Option.none

def flight : TakePath → Flight
  | .none => .no
  | .added _ s _ _ => .entering s
  | .moved _ s timeout_ms _ => .leaving s (decide (0 < timeout_ms))

end TakePath

/-- The kernel, and the blocking paths in progress. A core in one has its interrupts masked.
`waiting t` records that `t` is blocked in `semaphore_take`, and neither has been given a unit nor
has timed out since. -/
structure Blocking where
  system : System Links
  path : CoreId → TakePath
  waiting : Tcb → Bool

inductive BlockingAction where
  /-- A step of `System` that does not block in `semaphore_take`. -/
  | section (a : Action)
  /-- `semaphore_take` of a task that has to wait, up to its entry in the wait list. -/
  | semaphore_take (cur_tcb : Tcb)
  /-- The next part of the path the core is in. -/
  | proceed (core : CoreId)
  deriving DecidableEq, Repr

/-- Whether the event ends the wait of the task. -/
def Event.ends_wait (t : Tcb) : Event → Bool
  | .take_handed u _ => u = t
  | .expires u => u = t
  | _ => false

/-- Whether the step blocks its task in `semaphore_take`. -/
def System.take_blocks (S : System Links) : Action → Bool
  | .proceed t =>
    match S.call t with
    | .semaphore_take smph timeout_ms deadline =>
      (semaphore_take S.kernel smph t timeout_ms deadline).1.isNone
    | _ => false
  | _ => false

section Phases

variable {L : Type} [ListOps L ItemRef ListRef]

/-- The part of the path under the scheduler lock. -/
def semaphore_take_move (K : Kernel L) (cur_tcb : Tcb) (timeout_ms : Int) (deadline : Nat) :
    Kernel L :=
  let K := (scheduler_remove_from_ready_list K cur_tcb).2
  if 0 < timeout_ms then (scheduler_add_to_blocked_list K cur_tcb deadline).2 else K

/-- The store behind it. -/
def semaphore_take_block (K : Kernel L) (cur_tcb : Tcb) : Kernel L :=
  { K with current_state := update K.current_state cur_tcb .BLOCKED }

theorem semaphore_take_move_state (K : Kernel L) (t : Tcb) (timeout_ms : Int) (deadline : Nat) :
    (semaphore_take_move K t timeout_ms deadline).current_state = K.current_state := by
  unfold semaphore_take_move
  rw [remove_from_ready_fields]
  split <;> rfl

/-- With nothing in between, the path is the one section of `semaphore_take`. -/
theorem semaphore_take_path {K : Kernel L} {smph : SemaphoreId} {t : Tcb} {timeout_ms : Int}
    {deadline : Nat} (h : (semaphore_take K smph t timeout_ms deadline).1 = none) :
    semaphore_take K smph t timeout_ms deadline = (none, semaphore_take_block (semaphore_take_move
      (semaphore_add_to_blocked_list K smph t) t timeout_ms deadline) t) := by
  unfold semaphore_take at h ⊢
  split at h
  · cases h
  · rename_i hc
    split at h
    · cases h
    · rename_i ht
      split at h
      · cases h
      · rename_i hd
        rw [if_neg hc, if_neg ht, if_neg hd]
        rfl

end Phases

namespace Blocking

/-- How the task is in flight. -/
def flight (X : Blocking) (t : Tcb) : Flight :=
  if (X.path t.home).cur_tcb = some t then (X.path t.home).flight else .no

/-- The core is not in a path. -/
def unmasked (X : Blocking) (o : Option CoreId) : Prop := ∀ c, o = some c → X.path c = .none

/-- The step needs no semaphore whose lock is held. -/
def unlocked (X : Blocking) (a : Action) : Prop :=
  ∀ c, ∀ smph ∈ (X.path c).smph,
    X.system.lock_needed a ≠ some (.semaphore smph) ∧ smph ∉ a.gives

instance (X : Blocking) (o : Option CoreId) : Decidable (X.unmasked o) :=
  inferInstanceAs (Decidable (∀ _, _))

instance (X : Blocking) (a : Action) : Decidable (X.unlocked a) :=
  inferInstanceAs (Decidable (∀ _, _))

def set (X : Blocking) (K : Kernel Links) (c : CoreId) (p : TakePath) : Blocking :=
  { X with system := X.system.withKernel K, path := update X.path c p }

/-- The next part of the path on core `c`. -/
def proceed (X : Blocking) (c : CoreId) : Option Blocking :=
  match X.path c with
  | .none => none
  | .added t smph timeout_ms deadline =>
    some (X.set (semaphore_take_move X.system.kernel t timeout_ms deadline) c
      (.moved t smph timeout_ms deadline))
  | .moved t smph timeout_ms deadline =>
    some {
      system := (X.system.withKernel (semaphore_take_block X.system.kernel t)).setCall t
        (.semaphore_wait smph timeout_ms deadline)
      path := update X.path c .none
      waiting := update X.waiting t true }

/-- One step, `none` where it is not possible. -/
def step (X : Blocking) : BlockingAction → Option Blocking
  | .section a =>
    if X.unmasked a.core ∧ X.unlocked a ∧ X.system.take_blocks a = false then
      match X.system.step a with
      | some (es, S) =>
        some { X with system := S
                      waiting := fun t => X.waiting t && es.all fun e => !e.ends_wait t }
      | none => none
    else none
  | .semaphore_take t =>
    if X.unmasked (some t.home) ∧ X.unlocked (.proceed t) ∧ X.system.take_blocks (.proceed t) = true ∧
        X.system.kernel.runs t = true then
      match X.system.call t with
      | .semaphore_take smph timeout_ms deadline =>
        some (X.set (semaphore_add_to_blocked_list X.system.kernel smph t) t.home
          (.added t smph timeout_ms deadline))
      | _ => none
    else none
  | .proceed c => X.proceed c

/-- The kernel at boot, with no path in progress. -/
def boot (max_count initial_count : SemaphoreId → Nat) : Blocking :=
  ⟨Rpitos.boot max_count initial_count, fun _ => .none, fun _ => false⟩

/-- The task that the context switch of the step before has selected. -/
def selected (X : Blocking) : BlockingAction → Option Tcb
  | .section a =>
    match a.switches with
    | some c => if X.system.kernel.hung c then none else X.system.kernel.p_task_control_block c
    | none => none
  | _ => none

/-- No core is in a path. -/
def quiet (X : Blocking) : Prop := ∀ c, X.path c = .none

instance (X : Blocking) : Decidable X.quiet := inferInstanceAs (Decidable (∀ _, _))

end Blocking

/-- No blocked task is linked in a ready list. -/
def BlockedOffReady (K : Kernel Links) : Prop :=
  ∀ t, K.current_state t = .BLOCKED → ∀ c p, ∃ xs,
    K.lists.IsList (.ready_list c p) xs ∧ .state_list_item t ∉ xs

/-- The step does not boost a task that has left its ready list and is not blocked yet. -/
def noBoostInWindow (X : Blocking) : BlockingAction → Prop
  | .section a => ∀ c, ∀ t ∈ (X.path c).moved_tcb, ¬ X.system.boosts t a
  | _ => True

instance (X : Blocking) (a : BlockingAction) : Decidable (noBoostInWindow X a) := by
  unfold noBoostInWindow; split <;> infer_instance

/-! ## The parts of the path -/

namespace Sim

variable {K : Kernel Links} {S : Kernel Sequences} {call : Tcb → Call} {fl : Tcb → Flight} {t : Tcb}

theorem take_add {smph : SemaphoreId} (h : Sim K S call fl) (hc : K.created t = true)
    (hs : K.current_state t ≠ .BLOCKED) (hf : fl t = .no) :
    Sim (semaphore_add_to_blocked_list K smph t) (semaphore_add_to_blocked_list S smph t) call
      (update fl t (.entering smph)) := by
  have hp : fl t ≠ .popped := by simp [hf]
  have hev : eventHome K call fl t = none := by simp [eventHome, eventList_of_ne hs, hf]
  obtain ⟨s, rfl⟩ := h.exists_over
  refine relink (h.linked.wait_push rfl hp hev) rfl rfl (fun u => ?_) (fun u => ?_) (fun u => ?_)
    (h.tasks.set_flight fun _ => ⟨hc, by simp [hs]⟩) h.counter h.owners
  · by_cases hut : u = t
    · subst hut; simp [stateHome, semaphore_add_to_blocked_list, hf]
    · simp [stateHome, semaphore_add_to_blocked_list, hut]
  · by_cases hut : u = t
    · subst hut; simp [eventHome, semaphore_add_to_blocked_list, eventList_flight, hc]
    · simp [eventHome, semaphore_add_to_blocked_list, hut]
  · by_cases hut : u = t
    · subst hut; simp [hf]
    · simp [hut]

theorem take_move {smph : SemaphoreId} {timeout_ms : Int} {deadline : Nat} (h : Sim K S call fl)
    (hf : fl t = .entering smph) :
    Sim (semaphore_take_move K t timeout_ms deadline) (semaphore_take_move S t timeout_ms deadline)
      call (update fl t (.leaving smph (decide (0 < timeout_ms)))) := by
  obtain ⟨hc, he⟩ := h.tasks.flight t (by simp [hf])
  have hs : K.current_state t ≠ .BLOCKED := fun e => by simpa [hf] using he.mpr e
  have hh := h.ready_home hc hs (by simp [hf])
  have hl := h.linked.ready_unlink hh
  have htab := h.tasks.set_flight (t := t) (f := .leaving smph (decide (0 < timeout_ms)))
    fun _ => ⟨hc, by simp [hs]⟩
  have heh : ∀ u, eventList (K.created u) (K.current_state u) (call u)
      (update fl t (.leaving smph (decide (0 < timeout_ms))) u) = eventHome K call fl u := by
    intro u
    by_cases hut : u = t
    · subst hut; simp [eventHome, eventList_flight, hf]
    · simp [eventHome, hut]
  have hpop : ∀ u, update fl t (.leaving smph (decide (0 < timeout_ms))) u = .popped ↔
      fl u = .popped := by
    intro u
    by_cases hut : u = t
    · subst hut; simp [hf]
    · simp [hut]
  unfold semaphore_take_move
  rw [scheduler_remove_from_ready_list_eq ((h.state_left t).trans hh),
    scheduler_remove_from_ready_list_eq (K := S) ?_]
  · obtain ⟨s, rfl⟩ := h.exists_over
    by_cases hto : 0 < timeout_ms
    · rw [if_pos hto, if_pos hto]
      refine relink (hl.blocked_insert (c := K.core_id t) (w := deadline) (by simp)) rfl rfl
        (fun u => ?_) heh hpop htab h.counter h.owners
      by_cases hut : u = t
      · subst hut; simp [stateHome, scheduler_add_to_blocked_list, hto]
      · simp [stateHome, scheduler_add_to_blocked_list, hut]
    · rw [if_neg hto, if_neg hto]
      refine relink hl rfl rfl (fun u => ?_) heh hpop htab h.counter h.owners
      by_cases hut : u = t
      · subst hut; simp [stateHome, hto]
      · simp [stateHome, hut]
  · rw [h.state_right t, hh, h.same]; rfl

theorem take_block {smph : SemaphoreId} {timeout_ms : Int} {deadline : Nat} (h : Sim K S call fl)
    (hf : fl t = .leaving smph (decide (0 < timeout_ms))) (ht : t.is_task = true) :
    Sim (semaphore_take_block K t) (semaphore_take_block S t)
      (update call t (.semaphore_wait smph timeout_ms deadline)) (update fl t .no) := by
  obtain ⟨hc, he⟩ := h.tasks.flight t (by simp [hf])
  obtain ⟨s, rfl⟩ := h.exists_over
  have h1 := h.tasks.set_flight (t := t) (f := .no) (fun e => absurd rfl e)
  refine relink h.linked rfl rfl (fun u => ?_) (fun u => ?_) (fun u => ?_)
    (h1.set_task hc (.inr (.inr rfl)) (fun _ => rfl) (.inl ht) (fun e => by simp at e))
    h.counter h.owners
  · by_cases hut : u = t
    · subst hut; simp [stateHome, semaphore_take_block, hf, hc, Call.timed]
    · simp [stateHome, semaphore_take_block, hut]
  · by_cases hut : u = t
    · subst hut; simp [eventHome, semaphore_take_block, eventList_flight, hf, hc, Call.waits_on]
    · simp [eventHome, semaphore_take_block, hut]
  · by_cases hut : u = t
    · subst hut; simp [hf]
    · simp [hut]

end Sim

/-! ## Steps of the kernel -/

theorem Action.core_of_caller {a : Action} {t : Tcb} (h : a.caller = some t) :
    a.core = some t.home := by
  cases a <;> cases h <;> rfl

namespace SSim

variable {S S' : System Links} {A : System Sequences} {fl : Tcb → Flight} {t : Tcb} {c : CoreId}
  {es : List Event} {a : Action}

/-- The task waits for a semaphore, blocked. -/
def Waits (S : System Links) (t : Tcb) : Prop :=
  S.kernel.current_state t = .BLOCKED ∧
    ∃ smph, (S.call t).waits_on = some (.semaphore_blocked_list smph)

theorem Waits.setCall {u : Tcb} (hw : Waits S t) (hu : t ≠ u) (k : Call) : Waits (S.setCall u k) t :=
  ⟨hw.1, by simpa [hu] using hw.2⟩

/-- Another task goes on in its call. -/
theorem Waits.proceed {u : Tcb} (hw : Waits S t) (hu : t ≠ u) (hstep : S.proceed u = some (es, S')) :
    Waits S' t := by
  cases System.proceeds hstep with
  | @block_until w _ =>
    obtain ⟨_, he⟩ := block_until_effect S.kernel u w
    rw [he]
    exact ⟨by simpa [hu] using hw.1, by simpa [hu] using hw.2⟩
  | delayed _ => exact hw.setCall hu _
  | mutex_lock _ => exact hw.setCall hu _
  | @semaphore_take smph timeout_ms deadline _ =>
    unfold System.take
    obtain ⟨-, he⟩ | ⟨-, -, he⟩ | ⟨-, -, -, _, _, he⟩ :=
      semaphore_take_effect S.kernel smph u timeout_ms deadline
    · rw [he]; exact hw.setCall hu _
    · rw [he]; exact hw.setCall hu _
    · rw [he]
      exact ⟨by simpa [hu] using hw.1, by simpa [hu] using hw.2⟩
  | semaphore_wait _ =>
    unfold System.takeWake semaphore_take_wake
    by_cases hwr : S.kernel.wakeup_reason u = .RESOURCE_ACQUIRED
    · rw [if_pos hwr]; exact hw.setCall hu _
    · rw [if_neg hwr]; exact hw.setCall hu _

theorem give_waits (h : SSim S A fl) (smph : SemaphoreId) (hw : Waits S t) :
    Waits (S.give smph).2 t ∨ ∃ e ∈ (S.give smph).1, e.ends_wait t = true := by
  unfold System.give
  obtain ⟨w, xs, lists, -, he⟩ | ⟨-, -, he⟩ | ⟨-, -, he⟩ := semaphore_give_effect h.kernel smph
  · rw [he]
    by_cases hwt : t = w
    · right; exact ⟨.take_handed w smph, by simp, by simp [Event.ends_wait, hwt]⟩
    · left; exact ⟨by simpa [hwt] using hw.1, hw.2⟩
  · rw [he]; exact .inl hw
  · rw [he]; exact .inl hw

theorem gives_waits : ∀ (smphs : List SemaphoreId) {S : System Links} {A : System Sequences},
    SSim S A fl → (∀ smph ∈ smphs, ∀ u, (fl u).entered ≠ some (.semaphore_blocked_list smph)) →
    Waits S t → Waits (S.gives smphs).2 t ∨ ∃ e ∈ (S.gives smphs).1, e.ends_wait t = true := by
  intro smphs
  induction smphs with
  | nil => intro S A _ _ hw; exact .inl hw
  | cons smph rest ih =>
    intro S A h hn hw
    obtain hw | ⟨e, he, hend⟩ := h.give_waits smph hw
    · have h' := (h.give smph (hn smph (by simp))).2
      obtain hw | ⟨e, he, hend⟩ := ih h' (fun s hs => hn s (by simp [hs])) hw
      · exact .inl hw
      · exact .inr ⟨e, List.mem_append_right _ he, hend⟩
    · exact .inr ⟨e, List.mem_append_left _ he, hend⟩

theorem tick_waits (h : SSim S A fl) (hd : Sim.NoneDueNext S.kernel S.call fl c)
    (hl : ∀ t, t.home = c → (fl t).left = none) {timer_gives : List SemaphoreId}
    (hn : ∀ smph ∈ timer_gives, ∀ u, (fl u).entered ≠ some (.semaphore_blocked_list smph))
    (hw : Waits S t) :
    Waits (S.tick c timer_gives).2 t ∨ ∃ e ∈ (S.tick c timer_gives).1, e.ends_wait t = true := by
  obtain ⟨lists, he⟩ := timer_tick_handler_effect S.kernel c
  by_cases hts : t ∈ (timer_tick_handler S.kernel c).1
  · exact .inr ⟨.expires t, List.mem_append_left _ (List.mem_map_of_mem hts),
      by simp [Event.ends_wait]⟩
  · have h1 : SSim (S.withKernel (timer_tick_handler S.kernel c).2)
        (A.withKernel (timer_tick_handler A.kernel c).2) fl :=
      ⟨h.call, (h.kernel.timer_tick_handler hd).2⟩
    have hw1 : Waits (S.withKernel (timer_tick_handler S.kernel c).2) t :=
      ⟨by rw [he]; simpa [hts] using hw.1, hw.2⟩
    obtain hw | ⟨e, hmem, hend⟩ := gives_waits timer_gives h1 hn hw1
    · obtain ⟨_, _, _, _, hsw, hb⟩ := switch_context_effect (h.tick_switch hd hn).kernel hl
      left
      refine ⟨?_, hw.2⟩
      unfold System.tick
      dsimp only
      rw [hsw]
      exact (hb t).mpr hw.1
    · exact .inr ⟨e, List.mem_append_right _ hmem, hend⟩

/-- A step leaves a waiting task blocked, or ends its wait with an event that says so. -/
theorem step_waits (h : SSim S A fl) (ha : TickOk S fl a) (hap : Apart S fl a)
    (hstep : S.step a = some (es, S')) (hw : Waits S t) :
    Waits S' t ∨ ∃ e ∈ es, e.ends_wait t = true := by
  have hcore : ∀ c, a.core = some c → ∀ t, t.home = c → (fl t).left = none := by
    intro c hc t ht
    by_contra hl
    exact hap.core t hl (ht ▸ hc)
  have hother : ∀ u, S.kernel.runs u = true → t ≠ u := by
    rintro u hr rfl
    exact (h.running hr).2.1 hw.1
  cases System.step_move hstep with
  | @scheduler_init c hi =>
    obtain ⟨_, _, _, _, _, _, _, _, _, _, he⟩ := scheduler_init_effect S.kernel c
    have htc : t ≠ .idle c := by
      rintro rfl
      obtain ⟨-, smph, hs⟩ := hw
      rw [h.kernel.tasks.idle c] at hs; cases hs
    left
    refine ⟨?_, hw.2⟩
    show (scheduler_init S.kernel c).current_state t = _
    rw [he]
    simpa [htc] using hw.1
  | @scheduler_start c _ _ =>
    obtain ⟨_, _, _, _, he, hb⟩ := switch_context_effect h.kernel (hcore c rfl)
    left
    refine ⟨?_, hw.2⟩
    show (scheduler_switch_context S.kernel c).current_state t = _
    rw [he]
    exact (hb t).mpr hw.1
  | @tick c _ _ => exact h.tick_waits ha (hcore c rfl) (fun s hs u => hap.gives u s hs) hw
  | @task_create c d p _ =>
    left
    refine ⟨?_, hw.2⟩
    show (task_create S.kernel c d p).2.2.current_state t = _
    obtain ⟨_, he⟩ | ⟨u, hu, _, _, _, _, _, _, _, _, _, _, _, he⟩ := task_create_effect S.kernel c d p
    · rw [he]; exact hw.1
    · have htu : t ≠ u := by
        rintro rfl
        obtain ⟨-, smph, hs⟩ := hw
        rw [h.kernel.tasks.fresh t hu] at hs; cases hs
      rw [he]
      simpa [htu] using hw.1
  | stack_write _ => exact .inl hw
  | @task_delay_ms u _ hf => exact .inl (hw.setCall (hother u hf.1) _)
  | @task_delay_until_ms u _ _ hf => exact .inl (hw.setCall (hother u hf.1) _)
  | @mutex_set_inheritance mtx enable =>
    obtain ⟨_, he⟩ := mutex_set_inheritance_effect S.kernel mtx enable
    rw [he]
    exact .inl hw
  | @mutex_lock u mtx timeout_ms hf =>
    have hu := hother u hf.1
    left
    unfold System.lock
    obtain ⟨-, held, he⟩ | ⟨-, -, he⟩ | ⟨-, -, _, _, _, _, he⟩ :=
      mutex_lock_effect S.kernel mtx u timeout_ms
    · rw [he]; exact hw
    · rw [he]; exact hw
    · rw [he]
      exact ⟨by simpa [hu] using hw.1, by simpa [hu] using hw.2⟩
  | @mutex_unlock u mtx _ _ =>
    left
    refine ⟨?_, hw.2⟩
    show (mutex_unlock S.kernel mtx).2.current_state t = _
    by_cases hl : S.kernel.mutex_state mtx = .LOCKED
    · obtain ⟨-, _, _, _, _, he⟩ | ⟨w, _, _, _, _, hm, he⟩ := mutex_unlock_effect h.kernel hl
      · rw [he]; exact hw.1
      · have htw : t ≠ w := by
          rintro rfl
          have hm := (h.kernel.wait_mem rfl (fun u => (fl u).entered_ne_mutex mtx) hm).2.2.2.2
          obtain ⟨-, smph, hs⟩ := hw
          rw [show (S.call t).waits_on = _ from hm] at hs; cases hs
        rw [he]
        simpa [htw] using hw.1
    · unfold mutex_unlock
      rw [if_neg hl]; exact hw.1
  | @semaphore_take u _ _ hf => exact .inl (hw.setCall (hother u hf.1) _)
  | @semaphore_give smph => exact h.give_waits smph hw
  | @proceed u _ _ hr hstep => exact .inl (hw.proceed (hother u hr) hstep)

end SSim

/-- The task that a context switch selects is stored as running. -/
theorem Sim.selected_running {K : Kernel Links} {S : Kernel Sequences} {call : Tcb → Call}
    {fl : Tcb → Flight} {t : Tcb} {c : CoreId} (h : Sim K S call fl)
    (hl : ∀ t, t.home = c → (fl t).left = none)
    (hh : (scheduler_switch_context K c).hung c = false)
    (hp : (scheduler_switch_context K c).p_task_control_block c = some t) :
    (scheduler_switch_context K c).current_state t = .RUNNING := by
  unfold scheduler_switch_context at hh hp ⊢
  split at hh
  · simp at hh
  · rename_i hw
    rw [if_neg hw] at hp ⊢
    have h' := h.end_quantum hl
    unfold Rpitos.select_next at hp ⊢
    simp only [h'.num_items_eq, h'.index_eq] at hp ⊢
    cases hfind : priorities_down.find?
        (fun p => decide (0 < num_items (Rpitos.end_quantum S c).lists (ListRef.ready_list c p))) with
    | none => rw [hfind] at hp; simp at hp
    | some p =>
      rw [hfind] at hp
      dsimp only at hp ⊢
      cases hi : index (Rpitos.end_quantum S c).lists (ListRef.ready_list c p) with
      | none =>
        -- a list that is not empty has an index
        have hpos := List.find?_some hfind
        rw [decide_eq_true_eq, h'.num_items_pos] at hpos
        exact absurd ((h'.linked.index_ok c p).1.mp hi) hpos
      | some x =>
        rw [hi] at hp
        simp only [update_self, Option.some.injEq] at hp
        simp [← hp]

namespace SSim

variable {S S' : System Links} {A : System Sequences} {fl : Tcb → Flight} {t : Tcb} {c : CoreId}
  {es : List Event} {a : Action}

theorem selected_running (h : SSim S A fl) (ha : TickOk S fl a) (hap : Apart S fl a)
    (hstep : S.step a = some (es, S')) (hc : a.switches = some c) (hh : S'.kernel.hung c = false)
    (hp : S'.kernel.p_task_control_block c = some t) : S'.kernel.current_state t = .RUNNING := by
  have hcore : ∀ t, a.core = some t.home → (fl t).left = none := by
    intro t hc
    by_contra hl
    exact hap.core t hl hc
  cases a with
  | scheduler_start d =>
    cases hc
    obtain ⟨-, hstep⟩ := Option.ite_none_right_eq_some.mp hstep
    cases hstep
    exact h.kernel.selected_running (fun u hu => hcore u (congrArg some hu.symm)) hh hp
  | tick d timer_gives =>
    cases hc
    obtain ⟨-, hstep⟩ := Option.ite_none_right_eq_some.mp hstep
    cases hstep
    exact (h.tick_switch ha fun s hs u => hap.gives u s hs).kernel.selected_running
      (fun u hu => hcore u (congrArg some hu.symm)) hh hp
  | _ => cases hc

end SSim

/-! ## The invariant -/

/-- The flights of the kernel's invariant are those of the paths in progress. -/
structure BlockingInv (X : Blocking) (A : System Sequences) : Prop where
  sim : SSim X.system A X.flight
  home : ∀ c t, (X.path c).cur_tcb = some t → t.home = c ∧ t.is_task = true
  waiting : ∀ t, X.waiting t = true → SSim.Waits X.system t

namespace BlockingInv

variable {X X' : Blocking} {A : System Sequences} {t : Tcb} {c : CoreId} {a : Action}

theorem boot (max_count initial_count : SemaphoreId → Nat) :
    BlockingInv (Blocking.boot max_count initial_count) (bootSeqs max_count initial_count) :=
  ⟨SSim.boot _ _, fun c t h => (by cases h), fun t h => (by cases h)⟩

theorem flight_path (hf : X.flight t ≠ .no) :
    (X.path t.home).cur_tcb = some t ∧ X.flight t = (X.path t.home).flight := by
  unfold Blocking.flight at hf ⊢
  split at hf
  · rename_i h; exact ⟨h, if_pos h⟩
  · exact absurd rfl hf

/-- A task in a path is one of a core in a path. -/
theorem flight_masked (hf : X.flight t ≠ .no) : X.path t.home ≠ .none := by
  intro h
  have := (flight_path hf).1
  rw [h] at this; cases this

theorem flight_moved (hl : (X.flight t).left ≠ none) :
    (X.path t.home).moved_tcb = some t := by
  have hf : X.flight t ≠ .no := by rintro e; rw [e] at hl; exact hl rfl
  obtain ⟨ht, he⟩ := flight_path hf
  rw [he] at hl
  cases hp : X.path t.home with
  | none => rw [hp] at ht; cases ht
  | added u smph timeout_ms deadline => rw [hp] at hl; exact absurd rfl hl
  | moved u smph timeout_ms deadline => rw [hp] at ht; exact ht

/-- A section of the kernel keeps away from the tasks in a path. -/
theorem apart (hm : X.unmasked a.core) (hu : X.unlocked a)
    (hb : noBoostInWindow X (.section a)) : Apart X.system X.flight a := by
  have hfly : ∀ t, (X.flight t).entered ≠ none → X.flight t ≠ .no := by
    rintro t he e; rw [e] at he; exact he rfl
  refine ⟨fun t he hc => ?_, fun t smph hs he => ?_, fun t hl hc => ?_, fun t hl => ?_⟩
  · exact flight_masked (hfly t he) (hm _ (Action.core_of_caller hc))
  · have hf := hfly t (by rw [he]; simp)
    obtain ⟨-, hp⟩ := flight_path hf
    rw [hp] at he
    have hsm : (X.path t.home).smph = some smph := by
      cases hx : X.path t.home <;> rw [hx] at he <;> cases he <;> rfl
    exact (hu t.home smph hsm).2 hs
  · have := flight_moved hl
    rw [hm _ hc] at this; cases this
  · exact hb t.home t (flight_moved hl)

theorem tickOk (hm : X.unmasked a.core) : TickOk X.system X.flight a := by
  cases a with
  | tick c timer_gives =>
    rintro t hf rfl
    exact absurd (hm _ rfl) (flight_masked hf)
  | _ => trivial

/-- A path goes on, or ends: the flight of its task changes, and no other. -/
theorem flight_set {p : TakePath} (hx : X'.path = update X.path c p) (hc : t.home = c)
    (ht : p.cur_tcb = some t ∨ p = .none)
    (hp : X.path c = .none ∨ (X.path c).cur_tcb = some t) :
    X'.flight = update X.flight t p.flight := by
  funext u
  unfold Blocking.flight
  rw [hx]
  by_cases hut : u = t
  · subst hut
    rcases ht with ht | rfl
    · simp [hc, ht]
    · simp [hc, TakePath.cur_tcb, TakePath.flight]
  · by_cases huc : u.home = c
    · have hold : (X.path c).cur_tcb ≠ some u := by
        rcases hp with h | h <;> rw [h]
        · intro e; cases e
        · exact fun e => hut (Option.some.inj e).symm
      have hnew : p.cur_tcb ≠ some u := by
        rcases ht with h | h <;> rw [h]
        · exact fun e => hut (Option.some.inj e).symm
        · intro e; cases e
      simp [huc, hold, hnew, hut]
    · simp [huc, hut]

theorem home_set {p : TakePath} (hi : BlockingInv X A) (hx : X'.path = update X.path c p)
    (hc : ∀ u, p.cur_tcb = some u → u.home = c ∧ u.is_task = true) :
    ∀ d u, (X'.path d).cur_tcb = some u → u.home = d ∧ u.is_task = true := by
  intro d u hu
  rw [hx] at hu
  by_cases hd : d = c
  · subst hd; exact hc u (by simpa using hu)
  · exact hi.home d u (by simpa [hd] using hu)

/-- Each allowed step keeps the invariant. -/
theorem step {a : BlockingAction} (hi : BlockingInv X A) (ha : noBoostInWindow X a)
    (hstep : X.step a = some X') : ∃ A', BlockingInv X' A' := by
  have hK := hi.sim.kernel
  unfold Blocking.step at hstep
  cases a with
  | «section» a =>
    obtain ⟨⟨hm, hu, -⟩, hstep⟩ := Option.ite_none_right_eq_some.mp hstep
    cases hs : X.system.step a with
    | none => rw [hs] at hstep; cases hstep
    | some r =>
      obtain ⟨es, S'⟩ := r
      rw [hs] at hstep
      injection hstep with hstep
      have hap := apart hm hu ha
      have hsim := hi.sim.step a (tickOk hm) hap
      rw [hs] at hsim
      cases hA : A.step a with
      | none => rw [hA] at hsim; exact hsim.elim
      | some r =>
        rw [hA] at hsim
        subst hstep
        refine ⟨r.2, hsim.2, hi.home, fun t ht => ?_⟩
        obtain ⟨hw, hes⟩ := Bool.and_eq_true_iff.mp ht
        obtain hw | ⟨e, he, hend⟩ := hi.sim.step_waits (tickOk hm) hap hs (hi.waiting t hw)
        · exact hw
        · have := List.all_eq_true.mp hes e he
          rw [hend] at this; cases this
  | semaphore_take t =>
    obtain ⟨⟨hm, -, -, hr⟩, hstep⟩ := Option.ite_none_right_eq_some.mp hstep
    obtain ⟨hc, hs, htask⟩ := hi.sim.running hr
    cases hcall : X.system.call t with
    | semaphore_take smph timeout_ms deadline =>
      rw [hcall] at hstep; cases hstep
      have hnone : X.path t.home = .none := hm _ rfl
      have hf : X.flight t = .no := by unfold Blocking.flight; rw [hnone]; rfl
      refine ⟨A.withKernel (semaphore_add_to_blocked_list A.kernel smph t), ⟨hi.sim.call, ?_⟩,
        hi.home_set rfl (fun u hu => (by cases hu; exact ⟨rfl, htask⟩)), fun u hu => hi.waiting u hu⟩
      rw [flight_set (t := t) rfl rfl (.inl rfl) (.inl hnone)]
      exact hK.take_add hc hs hf
    | _ => rw [hcall] at hstep; cases hstep
  | proceed c =>
    have hstep : X.proceed c = some X' := hstep
    unfold Blocking.proceed at hstep
    cases hp : X.path c with
    | none => rw [hp] at hstep; cases hstep
    | added t smph timeout_ms deadline =>
      rw [hp] at hstep; cases hstep
      have ht : (X.path c).cur_tcb = some t := by rw [hp]; rfl
      obtain ⟨hc, htask⟩ := hi.home c t ht
      have hf : X.flight t = .entering smph := by
        unfold Blocking.flight; rw [hc, hp]; exact if_pos rfl
      refine ⟨A.withKernel (semaphore_take_move A.kernel t timeout_ms deadline), ⟨hi.sim.call, ?_⟩,
        hi.home_set rfl (fun u hu => (by cases hu; exact ⟨hc, htask⟩)), fun u hu => ?_⟩
      · rw [flight_set (t := t) rfl hc (.inl rfl) (.inr ht)]
        exact hK.take_move hf
      · refine ⟨?_, (hi.waiting u hu).2⟩
        show (semaphore_take_move X.system.kernel t timeout_ms deadline).current_state u = _
        rw [semaphore_take_move_state]
        exact (hi.waiting u hu).1
    | moved t smph timeout_ms deadline =>
      rw [hp] at hstep; cases hstep
      have ht : (X.path c).cur_tcb = some t := by rw [hp]; rfl
      obtain ⟨hc, htask⟩ := hi.home c t ht
      have hf : X.flight t = .leaving smph (decide (0 < timeout_ms)) := by
        unfold Blocking.flight; rw [hc, hp]; exact if_pos rfl
      refine ⟨(A.withKernel (semaphore_take_block A.kernel t)).setCall t
          (.semaphore_wait smph timeout_ms deadline), ⟨by simp [hi.sim.call], ?_⟩,
        hi.home_set rfl (fun u hu => (by cases hu)), fun u hu => ?_⟩
      · rw [flight_set (t := t) rfl hc (.inr rfl) (.inr ht)]
        exact hK.take_block hf htask
      · by_cases hut : u = t
        · subst hut
          exact ⟨update_self .., smph, by simp [Call.waits_on]⟩
        · have hw := hi.waiting u (by simpa [hut] using hu)
          exact ⟨by simpa [semaphore_take_block, hut] using hw.1, by simpa [hut] using hw.2⟩

/-- A blocked task is in no ready list. -/
theorem off_ready (hi : BlockingInv X A) : BlockedOffReady X.system.kernel := by
  intro t hb c p
  refine ⟨_, hi.sim.kernel.linked.refines.rep _, fun hm => ?_⟩
  exact (hi.sim.kernel.ready_mem hm).2.2.1 hb

/-- A context switch selects no task that waits. -/
theorem selects {a : BlockingAction} (hi : BlockingInv X A) (ha : noBoostInWindow X a)
    (hstep : X.step a = some X') (hs : X'.selected a = some t) : X'.waiting t = false := by
  obtain ⟨A', hi'⟩ := hi.step ha hstep
  by_contra hw
  have hb := (hi'.waiting t (by simpa using hw)).1
  unfold Blocking.step at hstep
  cases a with
  | «section» a =>
    obtain ⟨⟨hm, hu, -⟩, hstep⟩ := Option.ite_none_right_eq_some.mp hstep
    cases hr : X.system.step a with
    | none => rw [hr] at hstep; cases hstep
    | some r =>
      rw [hr] at hstep
      cases hstep
      dsimp only [Blocking.selected] at hs
      cases hc : a.switches with
      | none => rw [hc] at hs; cases hs
      | some c =>
        rw [hc] at hs
        dsimp only at hs
        split at hs
        · cases hs
        · rename_i hh
          have := hi.sim.selected_running (tickOk hm) (apart hm hu ha) hr hc (by simpa using hh) hs
          rw [show r.2.kernel.current_state t = .BLOCKED from hb] at this
          cases this
  | _ => cases hs

end BlockingInv

/-! ## Runs -/

/-- As long as no task is boosted between its removal from the ready list and the store that blocks
it, no blocked task is in a ready list, and none is selected while it waits. -/
theorem blocking_take_atomic {max_count initial_count : SemaphoreId → Nat} {X : Blocking}
    (hr : Reach Blocking.step noBoostInWindow (Blocking.boot max_count initial_count) X) :
    BlockedOffReady X.system.kernel ∧ ∀ a X' t, noBoostInWindow X a → X.step a = some X' →
      X'.selected a = some t → X'.waiting t = false := by
  have hi : ∃ A, BlockingInv X A := by
    refine hr.invariant (P := fun X => ∃ A, BlockingInv X A) ⟨_, .boot max_count initial_count⟩ ?_
    rintro X X' a ⟨A, hi⟩ ha hstep
    exact hi.step ha hstep
  obtain ⟨A, hi⟩ := hi
  exact ⟨hi.off_ready, fun a X' t ha hstep hs => hi.selects ha hstep hs⟩

/-- A task of core 0 owns a mutex, and is about to wait for a semaphore. -/
def owner_waits : List BlockingAction :=
  [.section (.scheduler_init 0), .section (.scheduler_init 1),
   .section (.task_create 0 100 1), .section (.task_create 1 100 3),
   .section (.scheduler_start 0), .section (.scheduler_start 1),
   .section (.mutex_set_inheritance 0 true), .section (.mutex_lock (.pool 0 0) 0 0),
   .section (.semaphore_take (.pool 0 0) 0 (-1)), .semaphore_take (.pool 0 0)]

/-- A task of core 1 waits for the mutex before the owner leaves its ready list. -/
def boosted_before : List BlockingAction :=
  owner_waits ++ [.section (.mutex_lock (.pool 1 0) 0 5), .proceed 0, .proceed 0]

theorem boosted_before_run : (execute Blocking.step noBoostInWindow
    (Blocking.boot (fun _ => 1) (fun _ => 0)) boosted_before).isSome = true := by rfl

theorem blocking_take_atomic_boosted_before : BlockedOffReady ((execute Blocking.step noBoostInWindow
    (Blocking.boot (fun _ => 1) (fun _ => 0)) boosted_before).get boosted_before_run).system.kernel :=
  (blocking_take_atomic
    (Reach.of_exec boosted_before .start (Option.some_get boosted_before_run).symm)).1

/-- The same, but after it. -/
def boosted_in_window : List BlockingAction :=
  owner_waits ++ [.proceed 0, .section (.mutex_lock (.pool 1 0) 0 5), .proceed 0]

theorem boosted_in_window_run : (execute Blocking.step anything
    (Blocking.boot (fun _ => 1) (fun _ => 0)) boosted_in_window).isSome = true := by rfl

/-- The boost puts the owner back in a ready list, and there it is blocked; the next tick selects
it. -/
theorem boost_in_window :
    (¬ ∀ X, Reach Blocking.step anything (Blocking.boot (fun _ => 1) (fun _ => 0)) X → X.quiet →
      BlockedOffReady X.system.kernel) ∧
    ¬ ∀ X, Reach Blocking.step anything (Blocking.boot (fun _ => 1) (fun _ => 0)) X →
      ∀ a X' t, X.step a = some X' → X'.selected a = some t → X'.waiting t = false := by
  have hr := Reach.of_exec boosted_in_window .start (Option.some_get boosted_in_window_run).symm
  refine ⟨fun h => ?_, fun h => ?_⟩
  · obtain ⟨xs, hl, hm⟩ := h _ hr (by decide +kernel) (.pool 0 0) (by rfl) 0 3
    have hhead : ((execute Blocking.step anything (Blocking.boot (fun _ => 1) (fun _ => 0))
        boosted_in_window).get boosted_in_window_run).system.kernel.lists.head (.ready_list 0 3) =
          some (.state_list_item (.pool 0 0)) := by rfl
    rw [hl.head_eq] at hhead
    cases xs with
    | nil => cases hhead
    | cons x xs => cases hhead; exact hm (by simp)
  · have hw := h _ hr (.section (.tick 0 [])) _ (.pool 0 0) rfl (by rfl)
    revert hw
    decide +kernel

end Rpitos
