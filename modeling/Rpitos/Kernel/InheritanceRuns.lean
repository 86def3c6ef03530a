import Rpitos.Lib.Reach
import Rpitos.Kernel.InheritanceSteps

/-!
# Kernel.InheritanceRuns

Priority inheritance over whole runs. The boost goes one level deep: an owner has at least the
priority each waiter had when it began to wait (`owner_covers_waiters`), but not the one a waiter is
boosted to later (`waiter_boosted`). While no task waits that owns another mutex,
`inherited_priority` is exact until a tick takes the last of the highest waiters off the list
(`inherited_priority_exact`), and a holder keeps what it has inherited until it holds nothing.
-/

namespace Rpitos

open Function ListOps StatusCode

/-- The step names a mutex that has an address, and no task waits for a mutex while it owns
another. -/
def waits_flat (X : Watched) : Action → Prop
  | .mutex_lock t mtx timeout_ms => mtx < MAX_MUTEXES ∧
    (X.system.kernel.mutex_state mtx = .LOCKED → timeout_ms ≠ 0 →
      ∀ m, m ≠ mtx → X.system.kernel.mutex_owner m ≠ some t)
  | _ => True

theorem waits_flat.addressed {X : Watched} {a : Action} (h : waits_flat X a) : addressed X a := by
  cases a with
  | mutex_lock t mtx timeout_ms => exact h.1
  | _ => trivial

namespace Watched

variable {max_count initial_count : SemaphoreId → Nat} {X X' : Watched}

/-- What holds in every run. -/
structure Inv (X : Watched) : Prop where
  sim : ∃ A, SSim X.system A grounded
  table : MutexTable X.system
  covers : X.view.Covers
  settled : X.view.Settled

theorem boot_waits (t : Tcb) (m : MutexId) :
    (Watched.boot max_count initial_count).view.waits t ≠ some m := by
  intro hw
  have hw : (Watched.boot max_count initial_count).system.waits_for t = some m := hw
  have hb := (waits_for_iff.mp hw).1.2
  cases hb

theorem Inv.boot : Inv (Watched.boot max_count initial_count) :=
  ⟨⟨_, SSim.boot _ _⟩, MutexTable.boot _ _,
    ⟨fun _ _ => rfl, fun _ _ ho => (by cases ho), fun t m ht => absurd ht (boot_waits t m),
      fun t m ht => absurd ht (boot_waits t m), fun t m ht => absurd ht (boot_waits t m)⟩,
    ⟨fun _ => le_rfl, fun _ => le_rfl, fun _ => .inl rfl, fun _ _ => rfl⟩⟩

theorem Inv.step {a : Action} (h : Inv X) (ha : addressed X a) (hs : X.step a = some X') :
    Inv X' := by
  obtain ⟨A, hsim⟩ := h.sim
  have hf := Watched.follows hsim h.table ha hs
  refine ⟨?_, hf.table, h.covers.step hf.step, h.settled.step h.covers hf.step⟩
  unfold Watched.step at hs
  cases hk : X.system.step a with
  | none => rw [hk] at hs; cases hs
  | some r =>
    rw [hk] at hs
    cases hs
    obtain ⟨A', -, hsim'⟩ := hsim.step_some hk
    exact ⟨A', hsim'⟩

theorem reach_inv (hr : Reach Watched.step addressed (Watched.boot max_count initial_count) X) :
    Inv X :=
  hr.invariant .boot fun _ _ _ h ha hs => h.step ha hs

/-- Only `mutex_lock` of a locked mutex makes a task wait. -/
theorem new_waiter {a : Action} (h : Inv X) (ha : waits_flat X a) (hs : X.step a = some X')
    {t : Tcb} {m m' : MutexId} (hno : X.view.waits t = none) (hw : X'.view.waits t = some m)
    (ho : X.view.owner m' = some t) : m' = m := by
  obtain ⟨A, hsim⟩ := h.sim
  have hf := Watched.follows hsim h.table ha.addressed hs
  obtain ⟨hw', -⟩ := waits_for_iff.mp hw
  obtain ⟨o, hm⟩ := hf.step.new_waiter hno hw
  obtain ⟨he, hm⟩ := view_owner_iff.mp hm
  obtain ⟨-, ho⟩ := view_owner_iff.mp ho
  have hl : X.system.kernel.mutex_state m = .LOCKED := (h.table.locked m).mpr (by rw [hm]; nofun)
  rcases hf.spins t m hw' with hold | ⟨timeout_ms, rfl⟩
  · have : X.view.waits t = some m := waits_for_iff.mpr ⟨hold, he⟩
    rw [hno] at this; cases this
  · by_contra hne
    by_cases hto : timeout_ms = 0
    · -- without a timeout nobody waits
      have hsame : X'.system = X.system := by
        unfold Watched.step System.step at hs
        dsimp only at hs
        by_cases hfree : X.system.free t
        · rw [if_pos hfree] at hs
          unfold System.lock at hs
          rw [hto, mutex_lock_refused hl] at hs
          cases hs
          rfl
        · rw [if_neg hfree] at hs; cases hs
      rw [show X'.view.waits = X'.system.waits_for from rfl, hsame] at hw
      exact absurd (hno.symm.trans hw) nofun
    · exact ha.2 hl hto m' hne ho

/-- What holds in every run in which no task waits that owns another mutex. -/
theorem reach_exact (hr : Reach Watched.step waits_flat (Watched.boot max_count initial_count) X) :
    Inv X ∧ X.view.Exact := by
  refine hr.invariant (P := fun X => Inv X ∧ X.view.Exact) ⟨.boot, ?_⟩ fun X X' a h ha hs =>
    ⟨h.1.step ha.addressed hs, ?_⟩
  · exact ⟨fun t m hw => absurd hw (boot_waits t m), fun m _ => .inl rfl,
      fun t m m' hw => absurd hw (boot_waits t m)⟩
  · obtain ⟨A, hsim⟩ := h.1.sim
    have hf := Watched.follows hsim h.1.table ha.addressed hs
    exact h.2.step hf.step fun t m m' hno hw ho => new_waiter h.1 ha hs hno hw ho

end Watched

variable {max_count initial_count : SemaphoreId → Nat} {X : Watched} {mtx : MutexId} {o t : Tcb}

/-- The owner of a mutex with inheritance has at least the priority that a waiter had when it began
to wait, or when the mutex was last handed over, and at least the priority of a waiter that owns no
such mutex itself. -/
theorem owner_covers_waiters
    (hr : Reach Watched.step addressed (Watched.boot max_count initial_count) X)
    (he : X.system.kernel.inheritance_enabled mtx = true)
    (ho : X.system.kernel.mutex_owner mtx = some o) (ht : t ∈ waiters X.system.kernel mtx) :
    X.history.seen t ≤ X.system.kernel.priority o ∧
      ((∀ m, X.system.kernel.inheritance_enabled m = true →
          X.system.kernel.mutex_owner m ≠ some t) →
        X.system.kernel.priority t ≤ X.system.kernel.priority o) := by
  have h := Watched.reach_inv hr
  obtain ⟨A, hsim⟩ := h.sim
  have hown : X.view.owner mtx = some o := view_owner_iff.mpr ⟨he, ho⟩
  have hw : X.view.waits t = some mtx := waits_for_iff.mpr ⟨(mem_waiters hsim).mp ht, he⟩
  refine ⟨h.covers.seen_le hown hw, fun hn => h.covers.priority_le hown hw fun m hm => ?_⟩
  obtain ⟨hem, hm⟩ := view_owner_iff.mp hm
  exact hn m hem hm

/-- Three tasks of core 0, of priority 1, 2 and 3. The first locks mutex 0; the second locks mutex 1
and waits for mutex 0; the third waits for mutex 1. -/
def chain : List Action :=
  [.scheduler_init 0, .mutex_set_inheritance 0 true, .mutex_set_inheritance 1 true,
   .task_create 0 100 1, .task_create 0 100 2, .task_create 0 100 3, .scheduler_start 0,
   .task_delay_ms (.pool 0 2) 4, .proceed (.pool 0 2), .tick 0 [],
   .task_delay_ms (.pool 0 1) 2, .proceed (.pool 0 1), .tick 0 [],
   .mutex_lock (.pool 0 0) 0 (-1), .tick 0 [], .proceed (.pool 0 1),
   .mutex_lock (.pool 0 1) 1 (-1), .mutex_lock (.pool 0 1) 0 (-1), .tick 0 [],
   .proceed (.pool 0 2), .mutex_lock (.pool 0 2) 1 (-1)]

theorem chain_run : (execute Watched.step addressed
    (Watched.boot (fun _ => 1) (fun _ => 0)) chain).isSome = true := by rfl

/-- The state after `chain`. -/
def chained : Watched := (execute Watched.step addressed
  (Watched.boot (fun _ => 1) (fun _ => 0)) chain).get chain_run

theorem chained_reach :
    Reach Watched.step addressed (Watched.boot (fun _ => 1) (fun _ => 0)) chained :=
  Reach.of_exec chain .start (Option.some_get chain_run).symm

theorem owner_covers_waiters_chained :
    chained.history.seen (.pool 0 1) ≤ chained.system.kernel.priority (.pool 0 0) :=
  have he : chained.system.kernel.inheritance_enabled 0 = true := by rfl
  (owner_covers_waiters chained_reach he (by rfl) (by decide +kernel)).1

/-- The boost does not follow a chain: the second task waits for the first, and has been boosted
above it. -/
theorem waiter_boosted : ∃ X, Reach Watched.step addressed
      (Watched.boot (fun _ => 1) (fun _ => 0)) X ∧
    X.system.kernel.inheritance_enabled 0 = true ∧
    X.system.kernel.mutex_owner 0 = some (.pool 0 0) ∧
    X.system.kernel.current_state (.pool 0 0) = .READY ∧
    .pool 0 1 ∈ waiters X.system.kernel 0 ∧
    X.system.kernel.priority (.pool 0 0) < X.system.kernel.priority (.pool 0 1) :=
  ⟨chained, chained_reach, by rfl, by rfl, by rfl, by decide +kernel, by decide +kernel⟩

/-- The highest priority among the waiters. -/
def top_waiter (K : Kernel Links) (mtx : MutexId) : TaskPriorityLevel :=
  (waiters K mtx).foldr (fun t p => max (K.priority t) p) TASK_PRIORITY_IDLE

theorem top_waiter_eq (K : Kernel Links) (mtx : MutexId) :
    top_waiter K mtx = highest K.priority (waiters K mtx) := List.foldr_map.symm

/-- What `inherited_priority` of a mutex is, and where its owner's priority comes from. -/
structure InheritedPriority (X : Watched) (mtx : MutexId) : Prop where
  covers : ∀ t ∈ waiters X.system.kernel mtx,
    X.system.kernel.priority t ≤ X.system.kernel.inherited_priority mtx
  exact : X.history.stale mtx = false →
    X.system.kernel.inherited_priority mtx = top_waiter X.system.kernel mtx
  owner : ∀ o, X.system.kernel.mutex_owner mtx = some o →
    (∀ m, m ≠ mtx → X.system.kernel.mutex_owner m ≠ some o) →
    X.system.kernel.priority o = max (max (X.system.kernel.base_priority o) (X.history.kept o))
      (X.system.kernel.inherited_priority mtx)

/-- In every run in which no task waits that owns another mutex, `inherited_priority` is the highest
priority among the waiters until a tick takes the last of these off, and an owner of one mutex runs at
its own priority, or what it has inherited. -/
theorem inherited_priority_exact
    (hr : Reach Watched.step waits_flat (Watched.boot max_count initial_count) X)
    (he : X.system.kernel.inheritance_enabled mtx = true) : InheritedPriority X mtx := by
  obtain ⟨h, hex⟩ := Watched.reach_exact hr
  obtain ⟨A, hsim⟩ := h.sim
  have hinh : X.view.inherited mtx = X.system.kernel.inherited_priority mtx := if_pos he
  have hmem : ∀ t, t ∈ waiters X.system.kernel mtx ↔ X.view.waits t = some mtx := fun t => by
    rw [mem_waiters hsim, show X.view.waits t = X.system.waits_for t from rfl, waits_for_iff,
      and_iff_left he]
  have hle : ∀ t ∈ waiters X.system.kernel mtx,
      X.system.kernel.priority t ≤ X.system.kernel.inherited_priority mtx := fun t ht =>
    hinh ▸ hex.le t mtx ((hmem t).mp ht)
  refine ⟨hle, fun hst => ?_, fun o ho hn => ?_⟩
  · rw [top_waiter_eq]
    refine (highest_eq hle ?_).symm
    rcases hex.attained mtx (show ¬ X.history.stale mtx = true by simp [hst]) with hb | ⟨t, ht, hp⟩
    · exact .inl (hinh.symm.trans hb)
    · exact .inr ⟨t, (hmem t).mpr ht, hp.trans hinh⟩
  · have hown : X.view.owner mtx = some o := view_owner_iff.mpr ⟨he, ho⟩
    have hp := h.settled.priority_eq h.covers hown fun ⟨m, hm, hmo⟩ =>
      hn m hm (view_owner_iff.mp hmo).2
    rwa [hinh] at hp

/-- No `mutex_lock` waits. -/
def tries_only (X : Watched) : Action → Prop
  | .mutex_lock _ mtx timeout_ms =>
    mtx < MAX_MUTEXES ∧ (X.system.kernel.mutex_state mtx = .UNLOCKED ∨ timeout_ms = 0)
  | _ => True

instance (X : Watched) : (a : Action) → Decidable (tries_only X a)
  | .mutex_lock _ _ _ => inferInstanceAs (Decidable (_ < _ ∧ (_ ∨ _)))
  | .scheduler_init _ | .scheduler_start _ | .tick _ _ | .task_create _ _ _ | .stack_write _ _
  | .task_delay_ms _ _ | .task_delay_until_ms _ _ _ | .mutex_set_inheritance _ _
  | .mutex_unlock _ _ | .semaphore_take _ _ _ | .semaphore_give _ | .proceed _ => .isTrue trivial

theorem tries_only.flat {X : Watched} {a : Action} (h : tries_only X a) : waits_flat X a := by
  cases a with
  | mutex_lock t mtx timeout_ms =>
    refine ⟨h.1, fun hl hto => ?_⟩
    rcases h.2 with hu | hz
    · rw [hl] at hu; cases hu
    · exact absurd hz hto
  | _ => trivial

/-- Two tasks of core 0, of priority 1 and 3. The first locks the mutexes 0 and 1. -/
def two_locks : List Action :=
  [.scheduler_init 0, .mutex_set_inheritance 0 true, .mutex_set_inheritance 1 true,
   .task_create 0 100 1, .task_create 0 100 3, .scheduler_start 0,
   .task_delay_ms (.pool 0 1) 2, .proceed (.pool 0 1), .tick 0 [],
   .mutex_lock (.pool 0 0) 0 (-1), .mutex_lock (.pool 0 0) 1 (-1), .tick 0 [],
   .proceed (.pool 0 1)]

theorem two_locks_run : (execute Watched.step tries_only
    (Watched.boot (fun _ => 1) (fun _ => 0)) two_locks).isSome = true := by rfl

def two_locked : Watched := (execute Watched.step tries_only
  (Watched.boot (fun _ => 1) (fun _ => 0)) two_locks).get two_locks_run

theorem contended_run : (two_locked.step (.mutex_lock (.pool 0 1) 0 2)).isSome = true := by rfl

/-- The second waits for mutex 0, two ticks at most. -/
def contended : Watched := (two_locked.step (.mutex_lock (.pool 0 1) 0 2)).get contended_run

theorem contended_reach :
    Reach Watched.step waits_flat (Watched.boot (fun _ => 1) (fun _ => 0)) contended := by
  have hr := Reach.of_exec two_locks .start (Option.some_get two_locks_run).symm
  have hown : ∀ m, two_locked.system.kernel.mutex_owner m ≠ some (.pool 0 1) := fun m => by
    rw [show two_locked.system.kernel.mutex_owner =
      update (update (fun _ => none) 0 (some (.pool 0 0))) 1 (some (.pool 0 0)) from rfl]
    by_cases h1 : m = 1 <;> by_cases h0 : m = 0 <;> simp [h0, h1, MAX_NUM_TASKS]
  have hflat : waits_flat two_locked (.mutex_lock (.pool 0 1) 0 2) :=
    ⟨by decide, fun _ _ m _ => hown m⟩
  exact (hr.mono fun _ _ => tries_only.flat).step hflat (Option.some_get contended_run).symm

theorem inherited_priority_exact_contended : InheritedPriority contended 0 :=
  inherited_priority_exact contended_reach (by rfl)

theorem released_run : (execute Watched.step tries_only contended
    [.tick 0 [], .mutex_unlock (.pool 0 0) 0]).isSome = true := by rfl

/-- The first task has unlocked mutex 0. -/
def released : Watched := (execute Watched.step tries_only contended
  [.tick 0 [], .mutex_unlock (.pool 0 0) 0]).get released_run

theorem expired_run : (execute Watched.step tries_only contended
    [.tick 0 [], .tick 0 []]).isSome = true := by rfl

/-- The second task has timed out. -/
def expired : Watched := (execute Watched.step tries_only contended
  [.tick 0 [], .tick 0 []]).get expired_run

/-- The two ways in which the priorities lag behind: the first task unlocks mutex 0 and keeps the
priority 3 with mutex 1 alone, which nobody waits for; or the second times out, and
`inherited_priority` of mutex 0 stays 3 without a waiter. -/
theorem inheritance_lags :
    (∃ X, Reach Watched.step waits_flat (Watched.boot (fun _ => 1) (fun _ => 0)) X ∧
      X.system.kernel.inheritance_enabled 1 = true ∧
      X.system.kernel.mutex_owner 1 = some (.pool 0 0) ∧
      (∀ m, m ≠ 1 → X.system.kernel.mutex_owner m ≠ some (.pool 0 0)) ∧
      X.system.kernel.priority (.pool 0 0) ≠ max (X.system.kernel.base_priority (.pool 0 0))
        (X.system.kernel.inherited_priority 1)) ∧
    ∃ X, Reach Watched.step waits_flat (Watched.boot (fun _ => 1) (fun _ => 0)) X ∧
      X.system.kernel.inheritance_enabled 0 = true ∧
      X.system.kernel.inherited_priority 0 ≠ top_waiter X.system.kernel 0 := by
  have hr1 : Reach Watched.step waits_flat contended released :=
    (Reach.of_exec _ .start (Option.some_get released_run).symm).mono fun _ _ => tries_only.flat
  have hr2 : Reach Watched.step waits_flat contended expired :=
    (Reach.of_exec _ .start (Option.some_get expired_run).symm).mono fun _ _ => tries_only.flat
  have hown : ∀ m, m ≠ 1 → released.system.kernel.mutex_owner m ≠ some (.pool 0 0) := by
    intro m hm
    rw [show released.system.kernel.mutex_owner = update (update (update (fun _ => none) 0
      (some (.pool 0 0))) 1 (some (.pool 0 0))) 0 (some (.pool 0 1)) from rfl]
    by_cases h0 : m = 0 <;> simp [h0, hm, MAX_NUM_TASKS]
  exact ⟨⟨released, contended_reach.trans hr1, by rfl, by rfl, hown, by decide +kernel⟩,
    ⟨expired, contended_reach.trans hr2, by rfl, by decide +kernel⟩⟩

/-! ## Bookkeeping -/

/-- `mutexes_held` counts the mutexes with inheritance that a task owns, and a task that owns none
runs at its own priority. -/
structure InheritanceBooks (S : System Links) : Prop where
  held : ∀ t, ∃ ms : Finset MutexId, (∀ mtx, mtx ∈ ms ↔
    S.kernel.inheritance_enabled mtx = true ∧ S.kernel.mutex_owner mtx = some t) ∧
    S.kernel.mutexes_held t = ms.card
  base_le : ∀ t, S.kernel.base_priority t ≤ S.kernel.priority t
  base_eq : ∀ t, S.kernel.mutexes_held t = 0 → S.kernel.priority t = S.kernel.base_priority t
  /-- `mutex_unlock` never takes one from 0. -/
  gives_up : ∀ t mtx es S', S.step (.mutex_unlock t mtx) = some (es, S') →
    S.kernel.inheritance_enabled mtx = true →
    0 < S.kernel.mutexes_held t ∧ S'.kernel.mutexes_held t + 1 = S.kernel.mutexes_held t

namespace Watched.Inv

/-- A task with no mutex has inherited nothing. -/
theorem base_eq (h : Watched.Inv X) (hz : X.system.kernel.mutexes_held t = 0) :
    X.system.kernel.priority t = X.system.kernel.base_priority t := by
  obtain ⟨ms, hms, hcard⟩ := h.table.held t
  rw [hz, eq_comm, Finset.card_eq_zero] at hcard
  have hnone : ∀ m, X.view.owner m ≠ some t := by
    intro m hm
    have := (hms m).mpr (view_owner_iff.mp hm)
    rw [hcard] at this
    cases this
  rcases h.settled.source t with hp | hp | ⟨m, hm, -⟩
  · exact hp
  · have hbot : X.system.kernel.priority t = ⊥ := hp.trans (h.settled.clear t hnone)
    refine le_antisymm ?_ (h.settled.base_le t)
    rw [hbot]
    exact bot_le
  · exact absurd hm (hnone m)

/-- An unlock takes one from the holder's `mutexes_held`; the new owner is another task. -/
theorem gives_up {es : List Event} {S' : System Links} (h : Watched.Inv X)
    (hs : X.system.step (.mutex_unlock t mtx) = some (es, S'))
    (he : X.system.kernel.inheritance_enabled mtx = true) :
    0 < X.system.kernel.mutexes_held t ∧
      S'.kernel.mutexes_held t + 1 = X.system.kernel.mutexes_held t := by
  obtain ⟨A, hsim⟩ := h.sim
  cases System.step_move hs with
  | mutex_unlock hfree ho =>
    obtain ⟨hpos, hdown⟩ := h.table.held_pos he ho
    refine ⟨hpos, ?_⟩
    show (mutex_unlock X.system.kernel mtx).2.mutexes_held t + 1 = _
    have hl : X.system.kernel.mutex_state mtx = .LOCKED := (h.table.locked mtx).mpr (by simp [ho])
    obtain ⟨-, lists, hu⟩ | ⟨w, top, lists, hscan, hu⟩ := mutex_unlock_stores hsim.kernel hl ho he
    · rw [hu]
      exact hdown
    · have hwt : t ≠ w := by
        rintro rfl
        exact (hsim.running hfree.1).2.1 ((mem_waiters hsim).mp hscan.mem).1
      rw [hu]
      simpa [hwt] using hdown

end Watched.Inv

/-- In every run `mutexes_held` is right, no task is below its own priority, and one that holds no
mutex with inheritance is at its own priority. -/
theorem inheritance_books
    (hr : Reach Watched.step addressed (Watched.boot max_count initial_count) X) :
    InheritanceBooks X.system := by
  have h := Watched.reach_inv hr
  exact ⟨h.table.held, h.settled.base_le, fun _ hz => h.base_eq hz,
    fun _ _ _ _ hs he => h.gives_up hs he⟩

theorem inheritance_books_chained : InheritanceBooks chained.system :=
  inheritance_books chained_reach

end Rpitos
