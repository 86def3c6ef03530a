import Rpitos.Kernel.LockedPrograms

/-!
# Samples.SharedCounter

`mutex_counter_task` of `multicore_full_demo`, run by any tasks on any cores. `g_shared_counter++` is
a load and a store, and so are the argument of `uart_printf` and its print two steps: between any two
steps of a task other tasks run, on its own core and on the others.

`shared_counter_exact`: the numbers printed are 1, 2, 3 and so on, each once and in order.
-/

namespace Rpitos

open Function StatusCode

/-- The loop of `busy_work_ms` goes on. -/
def busy_work_ms (start now ms : Nat) : Bool := u64 (now + (2 ^ 64 - start)) < ms

/-- `g_shared_counter`, and what was given to `uart_printf` so far. -/
structure SharedCounter where
  g_shared_counter : UInt32
  printed : List (CoreId × UInt32)

/-- The next statement of `mutex_counter_task`. -/
inductive CounterPc where
  | entry
  | lock
  | load
  | store
  | argument
  | print
  | busy
  | churn
  | unlock
  | delay
  deriving DecidableEq, Repr

/-- A task that runs it: `value` is the register of `g_shared_counter++`, and the argument. -/
structure CounterTask where
  pc : CounterPc
  my_core : CoreId
  value : UInt32
  start : Nat

def mutex_counter_task (g_counter_mutex : MutexId) (s : CounterTask) :
    Instr CounterTask SharedCounter :=
  match s.pc with
  | .entry => .own fun core _ m => (m, { s with my_core := core, pc := .lock })
  | .lock => .call (.mutex_lock g_counter_mutex (-1)) fun _ => { s with pc := .load }
  | .load => .own fun _ _ m => (m, { s with value := m.g_shared_counter, pc := .store })
  | .store => .own fun _ _ m =>
    ({ m with g_shared_counter := s.value + 1 }, { s with pc := .argument })
  | .argument => .own fun _ _ m => (m, { s with value := m.g_shared_counter, pc := .print })
  | .print => .own fun _ _ m =>
    ({ m with printed := m.printed ++ [(s.my_core, s.value)] }, { s with pc := .busy })
  | .busy => .own fun _ now m => (m, { s with start := now, pc := .churn })
  | .churn => .own fun _ now m =>
    (m, if busy_work_ms s.start now 30 = true then s else { s with pc := .unlock })
  | .unlock => .call (.mutex_unlock g_counter_mutex) fun _ => { s with pc := .delay }
  | .delay => .call (.task_delay_ms 300) fun _ => { s with pc := .lock }

/-- The tasks in `tasks` run it; nobody else uses the mutex. -/
def counter_program (g_counter_mutex : MutexId) (tasks : Tcb → Bool) :
    Program CounterTask SharedCounter where
  code := mutex_counter_task g_counter_mutex
  tasks := tasks
  entry _ := { pc := .entry, my_core := 0, value := 0, start := 0 }
  uses S a := S.locks g_counter_mutex a

namespace CounterTask

/-- Between `mutex_lock` and `mutex_unlock`. -/
def inside (s : CounterTask) : Prop :=
  s.pc ≠ .entry ∧ s.pc ≠ .lock ∧ s.pc ≠ .delay

/-- It has counted, and not yet printed. -/
def ahead (s : CounterTask) : Prop := s.pc = .argument ∨ s.pc = .print

theorem ahead_inside {s : CounterTask} (h : s.ahead) : s.inside := by
  rcases h with h | h <;> simp [inside, h]

end CounterTask

section Discipline

variable (g_counter_mutex : MutexId) (tasks : Tcb → Bool)

theorem counter_call {p : CounterTask} {c : KernelCall} {k : StatusCode → CounterTask}
    (hc : mutex_counter_task g_counter_mutex p = .call c k) :
    p.pc = .lock ∧ c = .mutex_lock g_counter_mutex (-1) ∧ (∀ code, k code = { p with pc := .load }) ∨
    p.pc = .unlock ∧ c = .mutex_unlock g_counter_mutex ∧ (∀ code, k code = { p with pc := .delay }) ∨
    p.pc = .delay ∧ c = .task_delay_ms 300 ∧ (∀ code, k code = { p with pc := .lock }) := by
  unfold mutex_counter_task at hc
  cases hpc : p.pc <;> rw [hpc] at hc <;> cases hc <;> simp

theorem counter_locks_in_turn :
    (counter_program g_counter_mutex tasks).LocksInTurn g_counter_mutex CounterTask.inside where
  lock hc := by
    obtain ⟨hpc, he, hk⟩ | ⟨-, he, -⟩ | ⟨-, he, -⟩ := counter_call _ hc
    · cases he
      exact ⟨by decide, by simp [CounterTask.inside, hpc], by simp [CounterTask.inside, hk]⟩
    · cases he
    · cases he
  unlock hc := by
    obtain ⟨-, he, -⟩ | ⟨hpc, -, hk⟩ | ⟨-, he, -⟩ := counter_call _ hc
    · cases he
    · exact ⟨by simp [CounterTask.inside, hpc], by simp [CounterTask.inside, hk]⟩
    · cases he
  call hc hm code := by
    obtain ⟨-, rfl, -⟩ | ⟨-, rfl, -⟩ | ⟨hpc, -, hk⟩ := counter_call _ hc
    · exact absurd rfl hm
    · exact absurd rfl hm
    · simp [CounterTask.inside, hk, hpc]
  own {p f} hc core ticks m := by
    simp only [counter_program, mutex_counter_task] at hc
    cases hpc : p.pc <;> rw [hpc] at hc <;> cases hc
    case churn =>
      dsimp only
      split <;> simp [CounterTask.inside, hpc]
    all_goals simp [CounterTask.inside, hpc]
  entry _ := by simp [counter_program, CounterTask.inside]
  uses _ _ h := h

end Discipline

/-! ## What the tasks have counted -/

/-- The counter, the numbers printed, and what the tasks hold in their registers. -/
structure CounterInv (tasks : Tcb → Bool) (m : SharedCounter) (place : Tcb → CounterTask) :
    Prop where
  printed : m.printed.map Prod.snd =
    (List.range m.printed.length).map fun i => UInt32.ofNat (i + 1)
  cores : ∀ e ∈ m.printed, ∃ t, tasks t = true ∧ t.home = e.1
  level : (∀ t, tasks t = true → ¬ (place t).ahead) →
    m.g_shared_counter = UInt32.ofNat m.printed.length
  ahead : ∀ t, tasks t = true → (place t).ahead →
    m.g_shared_counter = UInt32.ofNat (m.printed.length + 1)
  value : ∀ t, tasks t = true → (place t).pc = .store ∨ (place t).pc = .print →
    (place t).value = m.g_shared_counter
  core : ∀ t, tasks t = true → (place t).pc ≠ .entry → (place t).my_core = t.home

namespace CounterInv

variable {tasks : Tcb → Bool} {m m' : SharedCounter} {place : Tcb → CounterTask} {t : Tcb}
  {s : CounterTask}

/-- The task moves, and touches nothing that counts. -/
theorem moves (hi : CounterInv tasks m place) (ht : tasks t = true)
    (ha : s.ahead ↔ (place t).ahead) (hv : s.pc = .store ∨ s.pc = .print → s.value = m.g_shared_counter)
    (hc : s.pc ≠ .entry → s.my_core = t.home) : CounterInv tasks m (update place t s) := by
  have hahead : ∀ u, (update place t s u).ahead ↔ (place u).ahead := fun u => by
    by_cases hut : u = t
    · subst hut; rw [update_self]; exact ha
    · rw [update_of_ne hut]
  refine ⟨hi.printed, hi.cores, fun h => hi.level fun u hu => mt (hahead u).mpr (h u hu),
    fun u hu h => hi.ahead u hu ((hahead u).mp h), fun u hu h => ?_, fun u hu h => ?_⟩
  · by_cases hut : u = t
    · subst hut; rw [update_self] at h ⊢; exact hv h
    · rw [update_of_ne hut] at h ⊢; exact hi.value u hu h
  · by_cases hut : u = t
    · subst hut; rw [update_self] at h ⊢; exact hc h
    · rw [update_of_ne hut] at h ⊢; exact hi.core u hu h

section Alone

variable (halone : ∀ u, tasks u = true → (place u).inside → u = t)
include halone

/-- The others are not inside, so they hold nothing. -/
theorem others_idle {u : Tcb} (hu : tasks u = true) (hut : u ≠ t) :
    ¬ (place u).ahead ∧ ¬ ((place u).pc = .store ∨ (place u).pc = .print) := by
  have hn : ¬ (place u).inside := fun h => hut (halone u hu h)
  refine ⟨mt CounterTask.ahead_inside hn, fun h => hn ?_⟩
  rcases h with h | h <;> simp [CounterTask.inside, h]

variable (hi : CounterInv tasks m place) (ht : tasks t = true)
include hi ht

/-- The store of `g_shared_counter++`. -/
theorem counts (hpc : (place t).pc = .store) :
    CounterInv tasks { m with g_shared_counter := (place t).value + 1 }
      (update place t { place t with pc := .argument }) := by
  have hlevel : m.g_shared_counter = UInt32.ofNat m.printed.length := by
    refine hi.level fun u hu => ?_
    by_cases hut : u = t
    · subst hut; simp [CounterTask.ahead, hpc]
    · exact (others_idle halone hu hut).1
  have hnext : (place t).value + 1 = UInt32.ofNat (m.printed.length + 1) := by
    rw [hi.value t ht (.inl hpc), hlevel, UInt32.ofNat_add]
    rfl
  refine ⟨hi.printed, hi.cores, fun h => ?_, fun u _ _ => hnext, fun u hu h => ?_,
    fun u hu h => ?_⟩
  · exact absurd (by simp [CounterTask.ahead]) (h t ht)
  · by_cases hut : u = t
    · subst hut; simp at h
    · rw [update_of_ne hut] at h
      exact absurd h (others_idle halone hu hut).2
  · by_cases hut : u = t
    · subst hut
      rw [update_self]
      exact hi.core u hu (by rw [hpc]; decide)
    · rw [update_of_ne hut] at h ⊢; exact hi.core u hu h

/-- The print. -/
theorem prints (hpc : (place t).pc = .print) :
    CounterInv tasks { m with printed := m.printed ++ [((place t).my_core, (place t).value)] }
      (update place t { place t with pc := .busy }) := by
  have hahead := hi.ahead t ht (.inr hpc)
  have hvalue : (place t).value = UInt32.ofNat (m.printed.length + 1) :=
    (hi.value t ht (.inr hpc)).trans hahead
  have hidle : ∀ u, tasks u = true →
      ¬ (update place t { place t with pc := .busy } u).ahead ∧
        ¬ ((update place t { place t with pc := .busy } u).pc = .store ∨
          (update place t { place t with pc := .busy } u).pc = .print) := fun u hu => by
    by_cases hut : u = t
    · subst hut; simp [CounterTask.ahead]
    · rw [update_of_ne hut]; exact others_idle halone hu hut
  refine ⟨?_, fun e he => ?_, fun _ => ?_, fun u hu h => absurd h (hidle u hu).1,
    fun u hu h => absurd h (hidle u hu).2, fun u hu h => ?_⟩
  · rw [List.map_append, hi.printed, List.length_append, List.length_singleton, List.range_succ,
      List.map_append, List.map_singleton, List.map_singleton, hvalue]
  · rcases List.mem_append.mp he with he | he
    · exact hi.cores e he
    · rw [List.mem_singleton.mp he]
      exact ⟨t, ht, (hi.core t ht (by rw [hpc]; decide)).symm⟩
  · rw [List.length_append, List.length_singleton]
    exact hahead
  · by_cases hut : u = t
    · subst hut
      rw [update_self]
      exact hi.core u hu (by rw [hpc]; decide)
    · rw [update_of_ne hut] at h ⊢; exact hi.core u hu h

end Alone

/-- A statement of the task's own. -/
theorem own {g : MutexId} {f : CoreId → Nat → SharedCounter → SharedCounter × CounterTask}
    (hi : CounterInv tasks m place) (ht : tasks t = true)
    (halone : (place t).inside → ∀ u, tasks u = true → (place u).inside → u = t)
    (hc : mutex_counter_task g (place t) = .own f) (now : Nat) :
    CounterInv tasks (f t.home now m).1 (update place t (f t.home now m).2) := by
  unfold mutex_counter_task at hc
  cases hpc : (place t).pc <;> rw [hpc] at hc <;> cases hc
  case store => exact counts (halone (by simp [CounterTask.inside, hpc])) hi ht hpc
  case print => exact prints (halone (by simp [CounterTask.inside, hpc])) hi ht hpc
  case entry => exact hi.moves ht (by simp [CounterTask.ahead, hpc]) (by simp) fun _ => rfl
  case churn =>
    have hcore := hi.core t ht (by rw [hpc]; decide)
    dsimp only
    split
    · exact hi.moves ht Iff.rfl (by simp [hpc]) fun _ => hcore
    · exact hi.moves ht (by simp [CounterTask.ahead, hpc]) (by simp) fun _ => hcore
  all_goals
    have hcore := hi.core t ht (by rw [hpc]; decide)
    exact hi.moves ht (by simp [CounterTask.ahead, hpc]) (by simp) fun _ => hcore

/-- A call that returns. -/
theorem returns {g : MutexId} {c : KernelCall} {k : StatusCode → CounterTask}
    (hi : CounterInv tasks m place) (ht : tasks t = true)
    (hc : mutex_counter_task g (place t) = .call c k) (code : StatusCode) :
    CounterInv tasks m (update place t (k code)) := by
  have hcore : (place t).pc ≠ .entry → (place t).my_core = t.home := hi.core t ht
  obtain ⟨hpc, -, hk⟩ | ⟨hpc, -, hk⟩ | ⟨hpc, -, hk⟩ := counter_call g hc <;>
  · rw [hk]
    exact hi.moves ht (by simp [CounterTask.ahead, hpc]) (by simp)
      fun _ => hcore (by rw [hpc]; decide)

end CounterInv

/-! ## Runs -/

/-- What a user of `multicore_full_demo` sees, and what its tasks rely on. -/
structure CounterSafe (g_counter_mutex : MutexId) (tasks : Tcb → Bool)
    (X : Tasks CounterTask SharedCounter) : Prop where
  /-- The `i`-th number printed is `i + 1`: no count is lost, repeated or out of order. -/
  exact : ∀ i v, X.mem.printed[i]? = some v → v.2 = UInt32.ofNat (i + 1)
  cores : ∀ e ∈ X.mem.printed, ∃ t, tasks t = true ∧ t.home = e.1
  /-- Nothing is counted that is not printed, or about to be. -/
  counter : X.mem.g_shared_counter = UInt32.ofNat X.mem.printed.length ∨
    X.mem.g_shared_counter = UInt32.ofNat (X.mem.printed.length + 1)
  one_inside : ∀ t u, tasks t = true → tasks u = true → (X.place t).inside → (X.place u).inside →
    t = u
  /-- The task that comes to its `mutex_unlock` is the owner, and is let go. -/
  unlocks : ∀ t, tasks t = true → X.system.kernel.runs t = true → (X.place t).pc = .unlock →
    ((counter_program g_counter_mutex tasks).step X (.run t)).isSome = true

/-- In every run, whatever the rest of the system does, the tasks of `mutex_counter_task` count
exactly. -/
theorem shared_counter_exact {g_counter_mutex : MutexId} {tasks : Tcb → Bool}
    {max_count initial_count : SemaphoreId → Nat} {X : Tasks CounterTask SharedCounter}
    (hr : (counter_program g_counter_mutex tasks).Reached max_count initial_count ⟨0, []⟩ X) :
    CounterSafe g_counter_mutex tasks X := by
  have hd := counter_locks_in_turn g_counter_mutex tasks
  have hinv : CounterInv tasks X.mem X.place := by
    refine hr.invariant (I := fun X => CounterInv tasks X.mem X.place)
      ⟨rfl, by simp [Program.boot], fun _ => rfl, fun t _ h => ?_, fun t _ h => ?_, fun t _ h => ?_⟩
      fun {X Y a} hr hi hm => ?_
    · simp [Program.boot, counter_program, CounterTask.ahead] at h
    · simp [Program.boot, counter_program] at h
    · simp [Program.boot, counter_program] at h
    · cases hm with
      | own ht _ hc =>
        exact hi.own ht (fun hit u hu hiu => (hr.guarded hd).exclusive hu ht hiu hit) hc _
      | call ht _ hc _ =>
        dsimp only
        split
        · exact hi.returns ht hc _
        · exact hi
      | kernel _ _ => exact hi
  refine ⟨fun i v hv => ?_, hinv.cores, ?_,
    fun t u ht hu hit hiu => (hr.guarded hd).exclusive ht hu hit hiu, fun t ht hrun hpc => ?_⟩
  · have hmap : (X.mem.printed.map Prod.snd)[i]? = some v.2 := by rw [List.getElem?_map, hv]; rfl
    rw [hinv.printed, List.getElem?_map] at hmap
    obtain ⟨j, hj, hval⟩ := Option.map_eq_some_iff.mp hmap
    obtain ⟨hlt, rfl⟩ := List.getElem?_eq_some_iff.mp hj
    simpa using hval.symm
  · by_cases ha : ∃ t, tasks t = true ∧ (X.place t).ahead
    · obtain ⟨t, ht, ha⟩ := ha
      exact .inr (hinv.ahead t ht ha)
    · exact .inl (hinv.level fun t ht h => ha ⟨t, ht, h⟩)
  · refine hr.unlocks hd ht hrun (k := fun _ => { X.place t with pc := .delay }) ?_
    simp only [counter_program, mutex_counter_task, hpc]

/-- Two cores: a task prints, while the other waits for the mutex. -/
def count_on_two_cores : List TaskAction :=
  [.kernel (.scheduler_init 0), .kernel (.task_create 0 100 1), .kernel (.scheduler_start 0),
   .kernel (.scheduler_init 1), .kernel (.task_create 1 100 1), .kernel (.scheduler_start 1),
   .run (.pool 0 0), .run (.pool 1 0), .run (.pool 0 0), .run (.pool 0 0), .run (.pool 1 0),
   .run (.pool 0 0), .run (.pool 0 0), .run (.pool 0 0)]

theorem count_on_two_cores_run :
    (execute (counter_program 0 Tcb.is_task).step anything
      ((counter_program 0 Tcb.is_task).boot (fun _ => 1) (fun _ => 0) ⟨0, []⟩)
      count_on_two_cores).isSome = true := by rfl

theorem shared_counter_exact_two_cores : CounterSafe 0 Tcb.is_task
    ((execute (counter_program 0 Tcb.is_task).step anything
      ((counter_program 0 Tcb.is_task).boot (fun _ => 1) (fun _ => 0) ⟨0, []⟩)
      count_on_two_cores).get count_on_two_cores_run) :=
  shared_counter_exact (Reach.of_exec _ .start (Option.some_get count_on_two_cores_run).symm)

end Rpitos
