import Rpitos.Kernel.InheritanceRuns
import Rpitos.Kernel.RoundRobin

/-!
# Kernel.NoInversion

What the inheritance is for. A context switch selects a task of the highest priority that is ready
(`Sim.switch_highest`), and the owner of a mutex with inheritance has at least the priority of those
that wait for it. So from a switch of the owner's core to the next one no task runs there that is
below a waiter of any core, unless the owner is itself blocked (`no_inversion`).
-/

namespace Rpitos

open Function ListOps StatusCode

/-- A switch of a core that does not stop at a lost watermark runs a task of the highest priority. -/
theorem Sim.switch_highest {K : Kernel Links} {B : Kernel Sequences} {call : Tcb → Call}
    {c : CoreId} (h : Sim K B call grounded) (hi : K.initialised c = true)
    (hh : (scheduler_switch_context K c).hung c = false) :
    ∃ u, (scheduler_switch_context K c).p_task_control_block c = some u ∧
      (scheduler_switch_context K c).current_state u = .RUNNING ∧
      ∀ v, (scheduler_switch_context K c).created v = true → v.home = c →
        (scheduler_switch_context K c).current_state v ≠ .BLOCKED →
        (scheduler_switch_context K c).priority v ≤ (scheduler_switch_context K c).priority u := by
  have hw : watermark_lost K c = false := by
    by_contra hw
    unfold scheduler_switch_context at hh
    rw [if_pos (eq_true_of_ne_false hw)] at hh
    simp at hh
  obtain ⟨p, u, -, hhigher, hindex, -, hswitch⟩ := switch_context_spec h hi (fun _ _ => rfl) hw
  obtain ⟨lists, st, cur, hung, heff, hblocked⟩ := switch_context_effect h (c := c) fun _ _ => rfl
  -- the task behind the index has the priority of its list
  have hu : K.priority u = p := by
    have hend : Sim (Rpitos.end_quantum K c) (Rpitos.end_quantum B c) call grounded :=
      h.end_quantum fun _ _ => rfl
    have hindex' := (hend.index_eq (.ready_list c p)).symm.trans hindex
    have hmem := (hend.linked.index_ok c p).2 (.state_list_item u) hindex'
    have hp := (hend.ready_mem hmem).2.2.2.2.1
    obtain ⟨lists', st', he, -⟩ := end_quantum_effect K c
    rw [he] at hp
    exact hp
  have hcur : (scheduler_switch_context K c).p_task_control_block c = some u := by
    rw [hswitch]
    exact update_self ..
  have hrun : (scheduler_switch_context K c).current_state u = .RUNNING := by
    rw [hswitch]
    exact update_self ..
  refine ⟨u, hcur, hrun, fun v hc hhome hb => ?_⟩
  rw [heff] at hb hc ⊢
  have hc' : K.created v = true := hc
  have hready := h.ready_home hc' (mt (hblocked v).mpr hb) rfl
  rw [(h.tasks.home v hc').trans hhome] at hready
  have hmem := h.linked.mem_state.mpr hready
  by_contra hlt
  have hempty := hhigher (K.priority v) (hu ▸ lt_of_not_ge hlt)
  rw [hempty] at hmem
  cases hmem

/-- The same of a step that switches core `c`. -/
theorem SSim.switch_highest {S S' : System Links} {A : System Sequences} {a : Action}
    {es : List Event} {c : CoreId} (hs : SSim S A grounded) (hstep : S.step a = some (es, S'))
    (hc : a.switches = some c) (hh : S'.kernel.hung c = false) :
    ∃ u, S'.kernel.p_task_control_block c = some u ∧ S'.kernel.current_state u = .RUNNING ∧
      ∀ v, S'.kernel.created v = true → v.home = c → S'.kernel.current_state v ≠ .BLOCKED →
        S'.kernel.priority v ≤ S'.kernel.priority u := by
  cases System.step_move hstep with
  | scheduler_start hi _ =>
    cases hc
    exact hs.kernel.switch_highest hi hh
  | @tick c' timer_gives hi =>
    cases hc
    obtain ⟨hn, hB⟩ := tick_before_switch hs c timer_gives
    exact hB.kernel.switch_highest (hn.initialised c hi) hh
  | _ => cases hc

/-- The task `u` runs on core `c`, and is not below any task that waits for a mutex with inheritance
whose owner could run there. -/
structure Uninverted (X : Watched) (c : CoreId) (u : Tcb) : Prop where
  current : X.system.kernel.p_task_control_block c = some u
  running : X.system.kernel.current_state u = .RUNNING
  ready : ∀ v, X.system.kernel.created v = true → v.home = c →
    X.system.kernel.current_state v ≠ .BLOCKED →
    X.system.kernel.priority v ≤ X.system.kernel.priority u
  waiting : ∀ mtx o t, X.system.kernel.inheritance_enabled mtx = true →
    X.system.kernel.mutex_owner mtx = some o → o.home = c →
    X.system.kernel.current_state o ≠ .BLOCKED → t ∈ waiters X.system.kernel mtx →
    X.history.seen t ≤ X.system.kernel.priority u ∧
      ((∀ m, X.system.kernel.inheritance_enabled m = true →
          X.system.kernel.mutex_owner m ≠ some t) →
        X.system.kernel.priority t ≤ X.system.kernel.priority u) ∧
      -- a task with no such mutex runs only when its own priority is high enough
      ((∀ m, X.system.kernel.inheritance_enabled m = true →
          X.system.kernel.mutex_owner m ≠ some u) →
        X.history.seen t ≤ X.system.kernel.base_priority u)

namespace Watched

variable {max_count initial_count : SemaphoreId → Nat} {X X' : Watched} {c : CoreId} {a : Action}

theorem step_system (hs : X.step a = some X') :
    ∃ es, X.system.step a = some (es, X'.system) := by
  unfold Watched.step at hs
  cases hk : X.system.step a with
  | none => rw [hk] at hs; cases hs
  | some r =>
    rw [hk] at hs
    cases hs
    exact ⟨r.1, rfl⟩

/-- A task that owns no mutex with inheritance runs at its own priority. -/
theorem Inv.priority_own {t : Tcb} (h : Inv X)
    (hn : ∀ m, X.system.kernel.inheritance_enabled m = true →
      X.system.kernel.mutex_owner m ≠ some t) :
    X.system.kernel.priority t = X.system.kernel.base_priority t := by
  obtain ⟨ms, hms, hcard⟩ := h.table.held t
  refine h.base_eq (hcard.trans (Finset.card_eq_zero.mpr ?_))
  refine Finset.eq_empty_of_forall_notMem fun m hm => ?_
  obtain ⟨he, ho⟩ := (hms m).mp hm
  exact hn m he ho

/-- What a switch selects. -/
theorem switch_uninverted (hr : Reach Watched.step addressed (boot max_count initial_count) X)
    (ha : addressed X a) (hs : X.step a = some X') (hc : a.switches = some c)
    (hh : X'.system.kernel.hung c = false) : ∃ u, Uninverted X' c u := by
  obtain ⟨A, hsim⟩ := (reach_inv hr).sim
  obtain ⟨es, hstep⟩ := step_system hs
  obtain ⟨u, hcur, hrun, hready⟩ := hsim.switch_highest hstep hc hh
  have hr' := hr.step ha hs
  have h' := reach_inv hr'
  obtain ⟨A', hsim'⟩ := h'.sim
  refine ⟨u, hcur, hrun, hready, fun mtx o t he ho hhome hb ht => ?_⟩
  have hou := hready o (hsim'.kernel.owners mtx o ho) hhome hb
  obtain ⟨hseen, hprio⟩ := owner_covers_waiters hr' he ho ht
  refine ⟨hseen.trans hou, fun hn => (hprio hn).trans hou, fun hn => ?_⟩
  exact (hseen.trans hou).trans (h'.priority_own hn).le

/-- Until the next switch the same task is current. -/
theorem current_kept {Y : Watched} {u : Tcb} (h : Inv X)
    (hcur : X.system.kernel.p_task_control_block c = some u)
    (hr : Reach Watched.step (fun X a => addressed X a ∧ a.switches ≠ some c) X Y) :
    Y.system.kernel.p_task_control_block c = some u := by
  refine (hr.invariant (P := fun Y => Inv Y ∧ Y.system.kernel.p_task_control_block c = some u)
    ⟨h, hcur⟩ fun Y Y' a hY ha hs => ⟨hY.1.step ha.1 hs, ?_⟩).2
  obtain ⟨A, hsim⟩ := hY.1.sim
  obtain ⟨es, hstep⟩ := step_system hs
  have hi : Y.system.kernel.initialised c = true := by
    obtain ⟨hc, hhome⟩ := hsim.kernel.tasks.current c u hY.2
    subst hhome
    cases u with
    | idle c => exact hc
    | pool c slot => exact hsim.kernel.counter c (Nat.zero_lt_of_lt (of_decide_eq_true hc))
  exact (step_between (p := 0) hsim hi ha.2 hstep).current.trans hY.2

end Watched

variable {max_count initial_count : SemaphoreId → Nat} {X X' : Watched} {c : CoreId} {a : Action}

/-- In every run a switch of a core selects a task that is not below any task of any core that waits
for a mutex with inheritance, when the owner is a task of the core that is not blocked; and the task
stays until the next switch of the core. -/
theorem no_inversion
    (hr : Reach Watched.step addressed (Watched.boot max_count initial_count) X)
    (ha : addressed X a) (hs : X.step a = some X') (hc : a.switches = some c)
    (hh : X'.system.kernel.hung c = false) :
    ∃ u, Uninverted X' c u ∧ ∀ Y,
      Reach Watched.step (fun X a => addressed X a ∧ a.switches ≠ some c) X' Y →
        Y.system.kernel.p_task_control_block c = some u := by
  obtain ⟨u, hu⟩ := Watched.switch_uninverted hr ha hs hc hh
  have h' := Watched.reach_inv (hr.step ha hs)
  exact ⟨u, hu, fun Y hY => Watched.current_kept h' hu.current hY⟩

/-- The tasks of priority 1, 2 and 3 of `mutex_inheritance`: LOW holds the mutex, MID is ready, and
HIGH waits. -/
def low_mid_high : List Action :=
  [.scheduler_init 0, .mutex_set_inheritance 0 true,
   .task_create 0 100 1, .task_create 0 100 2, .task_create 0 100 3, .scheduler_start 0,
   .task_delay_ms (.pool 0 2) 3, .proceed (.pool 0 2), .tick 0 [],
   .task_delay_ms (.pool 0 1) 2, .proceed (.pool 0 1), .tick 0 [],
   .mutex_lock (.pool 0 0) 0 (-1), .tick 0 [],
   .proceed (.pool 0 2), .mutex_lock (.pool 0 2) 0 (-1)]

theorem low_mid_high_run : (execute Watched.step addressed
    (Watched.boot (fun _ => 1) (fun _ => 0)) low_mid_high).isSome = true := by rfl

def high_waits : Watched := (execute Watched.step addressed
  (Watched.boot (fun _ => 1) (fun _ => 0)) low_mid_high).get low_mid_high_run

theorem high_waits_tick : (high_waits.step (.tick 0 [])).isSome = true := by rfl

/-- The tick behind it: MID is ready, and LOW runs. -/
def low_boosted : Watched := (high_waits.step (.tick 0 [])).get high_waits_tick

example : low_boosted.system.kernel.current_state (.pool 0 1) = .READY ∧
    low_boosted.system.kernel.p_task_control_block 0 = some (.pool 0 0) := ⟨by rfl, by rfl⟩

theorem no_inversion_low_mid_high : ∃ u, Uninverted low_boosted 0 u ∧ ∀ Y,
    Reach Watched.step (fun X a => addressed X a ∧ a.switches ≠ some 0) low_boosted Y →
      Y.system.kernel.p_task_control_block 0 = some u :=
  no_inversion (a := .tick 0 [])
    (Reach.of_exec low_mid_high .start (Option.some_get low_mid_high_run).symm) trivial
    (Option.some_get high_waits_tick).symm rfl (by rfl)

end Rpitos
