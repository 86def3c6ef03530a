import Mathlib.Data.Finset.Card
import Rpitos.Lib.Best
import Rpitos.Lib.Inheritance
import Rpitos.Kernel.MutexRuns

/-!
# Kernel.Inheritance

The priority inheritance of `mutex.c` as an `Inheritance`: tasks, the mutexes with inheritance
enabled, and the priorities. `Watched` adds the record of the run that an `Inheritance` keeps;
`Watched.view_step` says that every step of the kernel is one operation of the library, on the view
of its state.
-/

namespace Rpitos

open Function ListOps StatusCode

instance : OrderBot TaskPriorityLevel where
  bot := TASK_PRIORITY_IDLE
  bot_le := fun p => Nat.zero_le p.val

/-! ## What the functions store -/

section Stores

variable {L : Type} [ListOps L ItemRef ListRef]

/-- The priority inheritance of a waiter, where the mutex has an owner. -/
theorem mutex_inherit_stores {K : Kernel L} {mtx : MutexId} {t o : Tcb}
    (he : K.inheritance_enabled mtx = true) (ho : K.mutex_owner mtx = some o) :
    ∃ lists, mutex_inherit K mtx t = { K with
      lists := lists
      inherited_priority := update K.inherited_priority mtx
        (max (K.inherited_priority mtx) (K.priority t))
      priority := update K.priority o
        (max (K.priority o) (max (K.inherited_priority mtx) (K.priority t))) } := by
  have hinh : (if K.inherited_priority mtx < K.priority t then
      update K.inherited_priority mtx (K.priority t) else K.inherited_priority) =
      update K.inherited_priority mtx (max (K.inherited_priority mtx) (K.priority t)) := by
    split
    · rename_i h; rw [max_eq_right h.le]
    · rename_i h; rw [max_eq_left (not_lt.mp h), update_eq_self]
  unfold mutex_inherit mutex_boost_holder
  rw [if_pos he, hinh]
  dsimp only
  rw [ho]
  simp only [update_self]
  by_cases hb : K.priority o < max (K.inherited_priority mtx) (K.priority t)
  · rw [if_pos hb]
    obtain ⟨lists, h⟩ := change_task_priority_effect { K with
      inherited_priority := update K.inherited_priority mtx
        (max (K.inherited_priority mtx) (K.priority t)) } o
      (max (K.inherited_priority mtx) (K.priority t))
    exact ⟨lists, by rw [h, max_eq_right hb.le]⟩
  · rw [if_neg hb]
    exact ⟨K.lists, by rw [max_eq_left (not_lt.mp hb), update_eq_self]⟩

theorem mutex_inherit_disabled {K : Kernel L} {mtx : MutexId} {t : Tcb}
    (he : K.inheritance_enabled mtx = false) : mutex_inherit K mtx t = K := by
  unfold mutex_inherit
  rw [if_neg (by simp [he])]

/-- `mutexes_held` of `t`, one down. -/
def Kernel.held_down (K : Kernel L) (t : Tcb) : Tcb → Nat :=
  update K.mutexes_held t (u32 (K.mutexes_held t + (2 ^ 32 - 1)))

/-- The priorities after the holder has given up one mutex. -/
def Kernel.priority_down (K : Kernel L) (t : Tcb) : Tcb → TaskPriorityLevel :=
  if K.held_down t t = 0 then update K.priority t (K.base_priority t) else K.priority

theorem mutex_restore_holder_stores {K : Kernel L} {mtx : MutexId} {o : Tcb}
    (he : K.inheritance_enabled mtx = true) :
    ∃ lists, mutex_restore_holder K mtx (some o) = { K with
      lists := lists, mutexes_held := K.held_down o, priority := K.priority_down o } := by
  unfold mutex_restore_holder Kernel.priority_down
  dsimp only
  rw [if_pos he]
  by_cases hz : K.held_down o o = 0
  · rw [if_pos hz]
    by_cases hp : K.priority o ≠ K.base_priority o
    · rw [if_pos ⟨hz, hp⟩]
      obtain ⟨lists, h⟩ := change_task_priority_effect
        { K with mutexes_held := K.held_down o } o (K.base_priority o)
      exact ⟨lists, h⟩
    · rw [if_neg fun h => hp h.2, ← not_not.mp hp, update_eq_self]
      exact ⟨K.lists, rfl⟩
  · rw [if_neg hz, if_neg fun h => hz h.1]
    exact ⟨K.lists, rfl⟩

theorem mutex_restore_holder_disabled {K : Kernel L} {mtx : MutexId} {o : Option Tcb}
    (he : K.inheritance_enabled mtx = false) : mutex_restore_holder K mtx o = K := by
  unfold mutex_restore_holder
  cases o with
  | none => rfl
  | some o => exact if_neg (by simp [he])

/-- The new owner holds one mutex more, and is boosted. -/
theorem mutex_transfer_stores {K : Kernel L} {mtx : MutexId} {w : Tcb}
    (he : K.inheritance_enabled mtx = true) :
    ∃ lists, mutex_transfer K mtx w = { K with
      lists := lists
      mutex_owner := update K.mutex_owner mtx (some w)
      mutexes_held := update K.mutexes_held w (u32 (K.mutexes_held w + 1))
      priority := update K.priority w (max (K.priority w) (K.inherited_priority mtx))
      current_state := update K.current_state w .READY } := by
  have hb : ∃ lists, mutex_boost_owner { K with mutex_owner := update K.mutex_owner mtx (some w) }
      mtx w = { K with
        lists := lists
        mutex_owner := update K.mutex_owner mtx (some w)
        mutexes_held := update K.mutexes_held w (u32 (K.mutexes_held w + 1))
        priority := update K.priority w (max (K.priority w) (K.inherited_priority mtx)) } := by
    unfold mutex_boost_owner
    dsimp only
    rw [if_pos he]
    by_cases hb : K.priority w < K.inherited_priority mtx
    · rw [if_pos hb]
      obtain ⟨lists, h⟩ := change_task_priority_effect { K with
        mutex_owner := update K.mutex_owner mtx (some w)
        mutexes_held := update K.mutexes_held w (u32 (K.mutexes_held w + 1)) } w
        (K.inherited_priority mtx)
      exact ⟨lists, by rw [h, max_eq_right hb.le]⟩
    · rw [if_neg hb]
      exact ⟨K.lists, by rw [max_eq_left (not_lt.mp hb), update_eq_self]⟩
  obtain ⟨lists, hb⟩ := hb
  obtain ⟨lists', h⟩ := rejoin_effect (mutex_boost_owner
    { K with mutex_owner := update K.mutex_owner mtx (some w) } mtx w) w
  refine ⟨lists', ?_⟩
  show rejoin _ w = _
  rw [h, hb]

theorem mutex_transfer_disabled {K : Kernel L} {mtx : MutexId} {w : Tcb}
    (he : K.inheritance_enabled mtx = false) :
    ∃ lists, mutex_transfer K mtx w = { K with
      lists := lists
      mutex_owner := update K.mutex_owner mtx (some w)
      current_state := update K.current_state w .READY } := by
  obtain ⟨lists, h⟩ := rejoin_effect (mutex_boost_owner
    { K with mutex_owner := update K.mutex_owner mtx (some w) } mtx w) w
  refine ⟨lists, ?_⟩
  show rejoin _ w = _
  rw [h]
  unfold mutex_boost_owner
  dsimp only
  rw [if_neg (by simp [he])]

end Stores

/-! ## The scan -/

/-- After the scan of `done`: the best waiter is one of them, and the second value is the highest
priority of the others. -/
structure Scanned (priority : Tcb → TaskPriorityLevel) (done : List Tcb)
    (r : Tcb × TaskPriorityLevel) : Prop where
  mem : r.1 ∈ done
  le : ∀ t ∈ done, t ≠ r.1 → priority t ≤ r.2
  source : r.2 = TASK_PRIORITY_IDLE ∨ ∃ t ∈ done, t ≠ r.1 ∧ priority t = r.2

/-- The scan is a pass for the first of the best. -/
theorem scan_eq_best (priority : Tcb → TaskPriorityLevel) (rest : List ItemRef) :
    ∀ r : Tcb × TaskPriorityLevel,
      rest.foldl (scan_step priority) r =
        (rest.map ItemRef.owner).foldl (bestStep priority) r := by
  induction rest with
  | nil => intro r; rfl
  | cons x rest ih =>
    intro r
    have hstep : scan_step priority r x = bestStep priority r x.owner := by
      unfold scan_step bestStep
      rw [max_def_lt, max_def_lt]
    rw [List.foldl_cons, List.map_cons, List.foldl_cons, hstep, ih]

/-- The scan of a whole wait list: the first of the best waiters, and the highest priority of the
others. -/
theorem scan_best (priority : Tcb → TaskPriorityLevel) (first : ItemRef) (rest : List ItemRef) :
    ∃ before w after,
      rest.foldl (scan_step priority) (first.owner, TASK_PRIORITY_IDLE) =
        (w, highest priority (before ++ after)) ∧
      (first :: rest).map ItemRef.owner = before ++ w :: after ∧
      FirstBest priority before w after := by
  rw [scan_eq_best]
  exact best_scan priority first.owner (rest.map ItemRef.owner)

theorem Scanned.scan (priority : Tcb → TaskPriorityLevel) {first : ItemRef} {rest : List ItemRef}
    (hn : ((first :: rest).map ItemRef.owner).Nodup) :
    Scanned priority ((first :: rest).map ItemRef.owner)
      (rest.foldl (scan_step priority) (first.owner, TASK_PRIORITY_IDLE)) := by
  obtain ⟨before, w, after, hr, hs, -⟩ := scan_best priority first rest
  rw [hr]
  rw [hs] at hn ⊢
  have hnot : ∀ t ∈ before ++ after, t ≠ w := by
    rintro t ht rfl
    exact (List.nodup_cons.mp (List.nodup_middle.mp hn)).1 ht
  refine ⟨by simp, fun t ht hne => le_highest ?_, ?_⟩
  · simpa [hne] using ht
  · rcases highest_source (f := priority) (before ++ after) with h | ⟨t, ht, h⟩
    · exact .inl h
    · refine .inr ⟨t, ?_, hnot t ht, h⟩
      rcases List.mem_append.mp ht with ht | ht <;> simp [ht]

/-- The tasks in the wait list of the mutex. -/
def waiters {L : Type} [ListOps L ItemRef ListRef] (K : Kernel L) (mtx : MutexId) : List Tcb :=
  (walk K.lists (.mutex_blocked_list mtx) MAX_TCBS).map ItemRef.owner

/-- No task is twice in a wait list. -/
theorem waiters_nodup {K : Kernel Links} {A : Kernel Sequences} {call : Tcb → Call}
    {fl : Tcb → Flight} (h : Sim K A call fl) (mtx : MutexId) : (waiters K mtx).Nodup := by
  unfold waiters
  rw [h.walk_left]
  refine List.Nodup.map_on (fun x hx y hy e => ?_) (h.linked.exact.nodup _)
  rw [h.linked.mem_kind hx, h.linked.mem_kind hy, e]

/-- What `mutex_unlock` of a mutex with inheritance stores: it releases the mutex when nobody waits,
and hands it to the best waiter otherwise. -/
theorem mutex_unlock_stores {K : Kernel Links} {A : Kernel Sequences} {call : Tcb → Call}
    {fl : Tcb → Flight} {mtx : MutexId} {o : Tcb} (h : Sim K A call fl)
    (hl : K.mutex_state mtx = .LOCKED) (ho : K.mutex_owner mtx = some o)
    (he : K.inheritance_enabled mtx = true) :
    (waiters K mtx = [] ∧ ∃ lists, mutex_unlock K mtx = (none, { K with
      lists := lists
      mutex_owner := update K.mutex_owner mtx none
      mutex_state := update K.mutex_state mtx .UNLOCKED
      inherited_priority := update K.inherited_priority mtx TASK_PRIORITY_IDLE
      mutexes_held := K.held_down o
      priority := K.priority_down o })) ∨
    ∃ w top lists, Scanned K.priority (waiters K mtx) (w, top) ∧
      mutex_unlock K mtx = (some w, { K with
        lists := lists
        mutex_owner := update K.mutex_owner mtx (some w)
        inherited_priority := update K.inherited_priority mtx top
        mutexes_held := update (K.held_down o) w (u32 (K.held_down o w + 1))
        priority := update (K.priority_down o) w (max (K.priority_down o w) top)
        current_state := update K.current_state w .READY }) := by
  have hzero : num_items A.lists (ListRef.mutex_blocked_list mtx) = 0 ↔ waiters K mtx = [] := by
    unfold waiters
    rw [h.num_items_zero, h.walk_left, List.map_eq_nil_iff]
  unfold mutex_unlock
  rw [if_pos hl, h.num_items_eq]
  by_cases hn : waiters K mtx = []
  · left
    rw [if_pos (hzero.mpr hn)]
    unfold mutex_release
    rw [ho]
    obtain ⟨lists, hr⟩ := mutex_restore_holder_stores (K := { K with
      mutex_owner := update K.mutex_owner mtx none
      mutex_state := update K.mutex_state mtx .UNLOCKED
      inherited_priority := update K.inherited_priority mtx TASK_PRIORITY_IDLE })
      (o := o) he
    exact ⟨hn, lists, by rw [hr]; rfl⟩
  · right
    rw [if_neg (mt hzero.mp hn)]
    cases hw : walk K.lists (ListRef.mutex_blocked_list mtx) MAX_TCBS with
    | nil => exact absurd (by unfold waiters; rw [hw]; rfl) hn
    | cons first rest =>
      have hnodup : ((first :: rest).map ItemRef.owner).Nodup := by
        have := waiters_nodup h mtx
        unfold waiters at this
        rwa [hw] at this
      have hscan := Scanned.scan K.priority hnodup
      unfold mutex_pop_best
      rw [hw]
      dsimp only
      generalize rest.foldl (scan_step K.priority) (first.owner, TASK_PRIORITY_IDLE) = r at hscan ⊢
      obtain ⟨w, top⟩ := r
      dsimp only
      rw [ho]
      obtain ⟨lists, hr⟩ := mutex_restore_holder_stores (K := { K with
        lists := unlink K.lists (ListRef.mutex_blocked_list mtx) (.event_list_item w)
        inherited_priority := update K.inherited_priority mtx top }) (o := o) he
      rw [hr]
      obtain ⟨lists', ht⟩ := mutex_transfer_stores (K := { K with
        lists := lists
        inherited_priority := update K.inherited_priority mtx top
        mutexes_held := K.held_down o
        priority := K.priority_down o }) (w := w) he
      refine ⟨w, top, lists', ?_, ?_⟩
      · have hws : waiters K mtx = (first :: rest).map ItemRef.owner := by
          unfold waiters; rw [hw]
        rw [hws]; exact hscan
      · refine Prod.ext rfl (ht.trans ?_)
        simp only [update_self]

/-- `mutex_unlock` of a mutex without inheritance. -/
theorem mutex_unlock_disabled {K : Kernel Links} {A : Kernel Sequences} {call : Tcb → Call}
    {fl : Tcb → Flight} {mtx : MutexId} (h : Sim K A call fl)
    (hl : K.mutex_state mtx = .LOCKED) (he : K.inheritance_enabled mtx = false) :
    (A.lists.list (.mutex_blocked_list mtx) = [] ∧ ∃ lists, mutex_unlock K mtx = (none, { K with
      lists := lists
      mutex_owner := update K.mutex_owner mtx none
      mutex_state := update K.mutex_state mtx .UNLOCKED
      inherited_priority := update K.inherited_priority mtx TASK_PRIORITY_IDLE })) ∨
    ∃ w top lists, .event_list_item w ∈ A.lists.list (.mutex_blocked_list mtx) ∧
      mutex_unlock K mtx = (some w, { K with
        lists := lists
        mutex_owner := update K.mutex_owner mtx (some w)
        inherited_priority := update K.inherited_priority mtx top
        current_state := update K.current_state w .READY }) := by
  unfold mutex_unlock
  rw [if_pos hl, h.num_items_eq]
  by_cases hn : A.lists.list (.mutex_blocked_list mtx) = []
  · left
    rw [if_pos ((h.num_items_zero _).mpr hn)]
    unfold mutex_release
    rw [mutex_restore_holder_disabled (by exact he)]
    exact ⟨hn, K.lists, rfl⟩
  · right
    rw [if_neg (mt (h.num_items_zero _).mp hn)]
    obtain ⟨w, h1, -, hm, -⟩ := h.pop_best hn
    have hpop : ∃ lists top, mutex_pop_best K mtx = (some w, { K with
        lists := lists, inherited_priority := update K.inherited_priority mtx top }) := by
      revert h1
      unfold mutex_pop_best
      split
      · intro h1; cases h1
      · intro h1
        dsimp only at h1 ⊢
        rw [Option.some.inj h1]
        exact ⟨_, _, rfl⟩
    obtain ⟨lists, top, hpop⟩ := hpop
    rw [hpop]
    dsimp only
    rw [mutex_restore_holder_disabled (by exact he)]
    obtain ⟨lists', ht⟩ := mutex_transfer_disabled (K := { K with
      lists := lists, inherited_priority := update K.inherited_priority mtx top })
      (w := w) he
    exact ⟨w, top, lists', hm, by rw [ht]⟩

/-! ## The record of a run -/

/-- `seen t` is the priority `t` had when it began to wait for a mutex, or when that mutex was last
handed over; `kept t` the highest `inherited_priority` of the mutexes that `t` has unlocked since
`mutexes_held` was last 0. `stale mtx` says that a tick has taken the last waiter as high as
`inherited_priority` off the wait list, and that no task as high has begun to wait since. -/
structure History where
  seen : Tcb → TaskPriorityLevel
  kept : Tcb → TaskPriorityLevel
  stale : MutexId → Bool

/-- One event, of a step from `K` to `K'`. -/
def History.note (K K' : Kernel Links) (H : History) : Event → History
  | .lock_waits t mtx =>
    if K.inheritance_enabled mtx then
      { H with
        seen := update H.seen t (K.priority t)
        stale := update H.stale mtx
          (H.stale mtx && decide (K.priority t < K.inherited_priority mtx)) }
    else H
  | .lock_handed w mtx =>
    if K.inheritance_enabled mtx then
      { H with seen := fun t => if t ∈ waiters K mtx ∧ t ≠ w then K.priority t else H.seen t }
    else H
  | .unlocks t mtx =>
    if K.inheritance_enabled mtx then
      { H with
        kept := update H.kept t (if K'.mutexes_held t = 0 then TASK_PRIORITY_IDLE
          else max (H.kept t) (K.inherited_priority mtx))
        stale := update H.stale mtx false }
    else H
  | .expires t =>
    { H with stale := fun mtx => H.stale mtx || (K.inheritance_enabled mtx &&
        decide (t ∈ waiters K mtx ∧ K.priority t = K.inherited_priority mtx ∧
          ∀ u ∈ waiters K' mtx, K.priority u ≠ K.inherited_priority mtx)) }
  | _ => H

/-- The kernel, and the record of its run. -/
structure Watched where
  system : System Links
  history : History

/-- A `Mutex *` is a 32-bit pointer that is not NULL. -/
def MAX_MUTEXES : Nat := 2 ^ 32 - 1

/-- The step names a mutex that has an address. -/
def addressed (_ : Watched) : Action → Prop
  | .mutex_lock _ mtx _ => mtx < MAX_MUTEXES
  | _ => True

instance (X : Watched) : (a : Action) → Decidable (addressed X a)
  | .mutex_lock _ _ _ => inferInstanceAs (Decidable (_ < _))
  | .scheduler_init _ | .scheduler_start _ | .tick _ _ | .task_create _ _ _ | .stack_write _ _
  | .task_delay_ms _ _ | .task_delay_until_ms _ _ _ | .mutex_set_inheritance _ _
  | .mutex_unlock _ _ | .semaphore_take _ _ _ | .semaphore_give _ | .proceed _ => .isTrue trivial

namespace Watched

def step (X : Watched) (a : Action) : Option Watched :=
  match X.system.step a with
  | some (es, S) => some ⟨S, es.foldl (History.note X.system.kernel S.kernel) X.history⟩
  | none => none

def boot (max_count initial_count : SemaphoreId → Nat) : Watched where
  system := Rpitos.boot max_count initial_count
  history := ⟨fun _ => TASK_PRIORITY_IDLE, fun _ => TASK_PRIORITY_IDLE, fun _ => false⟩

end Watched

/-! ## The view -/

/-- The task spins in `mutex_lock` of the mutex. -/
def System.spins (S : System Links) (t : Tcb) (mtx : MutexId) : Prop :=
  S.kernel.current_state t = .BLOCKED ∧ (S.call t).locks = some mtx

/-- The mutex with inheritance that a blocked task waits for. -/
def System.waits_for (S : System Links) (t : Tcb) : Option MutexId :=
  if S.kernel.current_state t = .BLOCKED then
    match (S.call t).locks with
    | some mtx => if S.kernel.inheritance_enabled mtx then some mtx else none
    | none => none
  else none

/-- The mutexes with inheritance, and the tasks' priorities. -/
def Watched.view (X : Watched) : Inheritance Tcb MutexId TaskPriorityLevel where
  base := X.system.kernel.base_priority
  priority := X.system.kernel.priority
  owner mtx :=
    if X.system.kernel.inheritance_enabled mtx then X.system.kernel.mutex_owner mtx else none
  inherited mtx :=
    if X.system.kernel.inheritance_enabled mtx then X.system.kernel.inherited_priority mtx else ⊥
  waits := X.system.waits_for
  seen := X.history.seen
  kept := X.history.kept
  stale mtx := X.history.stale mtx = true

theorem view_owner_iff {X : Watched} {mtx : MutexId} {o : Tcb} : X.view.owner mtx = some o ↔
    X.system.kernel.inheritance_enabled mtx = true ∧
      X.system.kernel.mutex_owner mtx = some o := by
  unfold Watched.view
  dsimp only
  by_cases he : X.system.kernel.inheritance_enabled mtx = true <;> simp [he]

theorem waits_for_iff {S : System Links} {t : Tcb} {mtx : MutexId} :
    S.waits_for t = some mtx ↔ S.spins t mtx ∧ S.kernel.inheritance_enabled mtx = true := by
  unfold System.waits_for System.spins
  by_cases hb : S.kernel.current_state t = .BLOCKED
  · rw [if_pos hb]
    cases hl : (S.call t).locks with
    | none => simp
    | some m =>
      by_cases he : S.kernel.inheritance_enabled m = true
      · simp only [he, if_true, Option.some.injEq]
        exact ⟨fun h => ⟨⟨hb, h⟩, h ▸ he⟩, fun h => h.1.2⟩
      · simp only [he]
        simp only [Bool.false_eq_true, if_false, Option.some.injEq]
        constructor
        · intro h; cases h
        · rintro ⟨⟨-, rfl⟩, h⟩; exact absurd h he
  · rw [if_neg hb]
    constructor
    · intro h; cases h
    · intro h; exact absurd h.1.1 hb

/-- The wait list holds the blocked tasks whose call waits for the mutex. -/
theorem mem_waiters {S : System Links} {A : System Sequences} (h : SSim S A grounded) {t : Tcb}
    {mtx : MutexId} : t ∈ waiters S.kernel mtx ↔ S.spins t mtx := by
  have hmem := h.kernel.mem_wait (l := .mutex_blocked_list mtx) (t := t) rfl
  rw [← Call.locks_iff] at hmem
  unfold waiters System.spins
  rw [h.kernel.walk_left, ← hmem, List.mem_map]
  constructor
  · rintro ⟨x, hx, rfl⟩
    rwa [h.kernel.linked.mem_kind hx] at hx
  · intro hx
    exact ⟨_, hx, rfl⟩

/-! ## The table of mutexes -/

/-- What holds of the mutexes in every run. -/
structure MutexTable (S : System Links) : Prop where
  locked : ∀ mtx, S.kernel.mutex_state mtx = .LOCKED ↔ S.kernel.mutex_owner mtx ≠ none
  waiting : ∀ t mtx, S.spins t mtx → S.kernel.mutex_state mtx = .LOCKED
  idle : ∀ mtx, S.kernel.mutex_state mtx ≠ .LOCKED →
    S.kernel.inherited_priority mtx = TASK_PRIORITY_IDLE
  held : ∀ t, ∃ ms : Finset MutexId, (∀ mtx, mtx ∈ ms ↔
    S.kernel.inheritance_enabled mtx = true ∧ S.kernel.mutex_owner mtx = some t) ∧
    S.kernel.mutexes_held t = ms.card
  address : ∀ mtx, S.kernel.mutex_owner mtx ≠ none → mtx < MAX_MUTEXES

namespace MutexTable

variable {S S' : System Links} {t o w : Tcb} {mtx : MutexId}

theorem boot (max_count initial_count : SemaphoreId → Nat) :
    MutexTable (boot max_count initial_count) :=
  ⟨fun _ => by simp [Rpitos.boot, System.boot, Kernel.boot],
    fun t _ h => by simp [System.spins, Rpitos.boot, System.boot, Kernel.boot] at h, fun _ _ => rfl,
    fun t => ⟨∅, by simp [Rpitos.boot, System.boot, Kernel.boot], rfl⟩,
    fun _ h => absurd rfl h⟩

theorem unlocked (h : MutexTable S) (hs : S.kernel.mutex_state mtx ≠ .LOCKED) :
    S.kernel.mutex_owner mtx = none := by
  by_contra ho
  exact hs ((h.locked mtx).mpr ho)

/-- `mutexes_held` cannot wrap: there are fewer mutexes than addresses. -/
theorem card_le {ms : Finset MutexId} (hms : ∀ m ∈ ms, m < MAX_MUTEXES) : ms.card ≤ MAX_MUTEXES := by
  have hsub : ms ⊆ Finset.range MAX_MUTEXES := fun m hm => Finset.mem_range.mpr (hms m hm)
  simpa using Finset.card_le_card hsub

/-- One mutex more. -/
theorem held_up (h : MutexTable S) (hm : mtx < MAX_MUTEXES)
    (he : S.kernel.inheritance_enabled mtx = true) (ho : S.kernel.mutex_owner mtx ≠ some t) :
    ∃ ms : Finset MutexId, (∀ m, m ∈ ms ↔ S.kernel.inheritance_enabled m = true ∧
      update S.kernel.mutex_owner mtx (some t) m = some t) ∧
      u32 (S.kernel.mutexes_held t + 1) = ms.card := by
  obtain ⟨ms, hms, hcard⟩ := h.held t
  have hnot : mtx ∉ ms := fun hmem => ho ((hms mtx).mp hmem).2
  have hnew : (insert mtx ms).card = ms.card + 1 := Finset.card_insert_of_notMem hnot
  have hle : (insert mtx ms).card ≤ MAX_MUTEXES := card_le fun m hmem => by
    rcases Finset.mem_insert.mp hmem with rfl | hmem
    · exact hm
    · exact h.address m (by rw [((hms m).mp hmem).2]; simp)
  refine ⟨insert mtx ms, fun m => ?_, ?_⟩
  · by_cases hmm : m = mtx
    · subst hmm; simp [he]
    · simp [hmm, hms m]
  · rw [hnew] at hle ⊢
    unfold MAX_MUTEXES at hle
    unfold u32
    omega

/-- An owner's `mutexes_held` is not 0, and goes down by one. -/
theorem held_pos (h : MutexTable S) (he : S.kernel.inheritance_enabled mtx = true)
    (ho : S.kernel.mutex_owner mtx = some o) :
    0 < S.kernel.mutexes_held o ∧ S.kernel.held_down o o + 1 = S.kernel.mutexes_held o := by
  obtain ⟨ms, hms, hcard⟩ := h.held o
  have hpos : 0 < ms.card := Finset.card_pos.mpr ⟨mtx, (hms mtx).mpr ⟨he, ho⟩⟩
  have hle : ms.card ≤ MAX_MUTEXES := card_le fun m hm =>
    h.address m (by rw [((hms m).mp hm).2]; simp)
  unfold MAX_MUTEXES at hle
  rw [Kernel.held_down, update_self, hcard]
  unfold u32
  omega

/-- One mutex less. -/
theorem held_down (h : MutexTable S) {x : Option Tcb} (he : S.kernel.inheritance_enabled mtx = true)
    (ho : S.kernel.mutex_owner mtx = some o) (hx : x ≠ some o) :
    ∃ ms : Finset MutexId, (∀ m, m ∈ ms ↔ S.kernel.inheritance_enabled m = true ∧
      update S.kernel.mutex_owner mtx x m = some o) ∧ S.kernel.held_down o o = ms.card := by
  obtain ⟨ms, hms, hcard⟩ := h.held o
  have hmem : mtx ∈ ms := (hms mtx).mpr ⟨he, ho⟩
  have hdown := (h.held_pos he ho).2
  refine ⟨ms.erase mtx, fun m => ?_, ?_⟩
  · by_cases hmm : m = mtx
    · subst hmm; simp [hx]
    · simp [hmm, hms m]
  · rw [Finset.card_erase_of_mem hmem]
    omega

/-- `mutexes_held` is 0 when the task holds no other mutex with inheritance. -/
theorem held_zero (h : MutexTable S) (he : S.kernel.inheritance_enabled mtx = true)
    (ho : S.kernel.mutex_owner mtx = some o) :
    S.kernel.held_down o o = 0 ↔ ¬ ∃ m, m ≠ mtx ∧ S.kernel.inheritance_enabled m = true ∧
      S.kernel.mutex_owner m = some o := by
  obtain ⟨ms, hms, hcard⟩ := h.held_down (x := none) he ho nofun
  rw [hcard, Finset.card_eq_zero, Finset.eq_empty_iff_forall_notMem]
  constructor
  · rintro hn ⟨m, hmm, hm⟩
    exact hn m ((hms m).mpr (by simpa [hmm] using hm))
  · intro hn m hm
    have hmo := (hms m).mp hm
    have hmm : m ≠ mtx := by rintro rfl; simp at hmo
    exact hn ⟨m, hmm, by simpa [hmm] using hmo⟩

end MutexTable
end Rpitos
