import Rpitos.Kernel.Linked

/-!
# Kernel.Invariant

The invariant of the kernel, as a relation between the kernel on pointers and the same kernel on
sequences. `stateHome` and `eventHome` say which list each of a task's two items belongs to, from
the task's state and the call it is in; `Sim` says that they are there, and that the two kernels
agree on everything else.

A task taken off a wait list and not yet ready is in flight: `semaphore_give` has popped it (its
event item still names the list), or `mutex_unlock` has unlinked it. So is one that `semaphore_take`
has put in a wait list and that is not blocked yet.
-/

namespace Rpitos

open Function ListOps

variable {L : Type}

/-- Whether the task exists: `task_create` has filled its slot, `scheduler_init` its idle task. -/
def is_created (initialised : CoreId → Bool) (task_counter : CoreId → Nat) : Tcb → Bool
  | .idle c => initialised c
  | .pool c slot => slot.val < task_counter c

abbrev Kernel.created (K : Kernel L) : Tcb → Bool := is_created K.initialised K.task_counter

/-- Whether the call spins on BLOCKED. -/
def Call.spins : Call → Bool
  | .delayed => true
  | .mutex_lock _ _ => true
  | .semaphore_wait _ _ _ => true
  | _ => false

/-- Whether the wait ends at a wake-up time. -/
def Call.timed : Call → Bool
  | .delayed => true
  | .mutex_lock _ timeout_ms => 0 < timeout_ms
  | .semaphore_wait _ timeout_ms _ => 0 < timeout_ms
  | _ => false

/-- The semaphore the call is about. -/
def Call.about : Call → Option SemaphoreId
  | .semaphore_take smph _ _ => some smph
  | .semaphore_wait smph _ _ => some smph
  | _ => none

/-- The wait list of the call. -/
def Call.waits_on : Call → Option ListRef
  | .mutex_lock mtx _ => some (.mutex_blocked_list mtx)
  | .semaphore_wait smph _ _ => some (.semaphore_blocked_list smph)
  | _ => none

inductive Flight where
  | no | popped | unlinked
  /-- In the wait list of the semaphore, and not blocked. -/
  | entering (smph : SemaphoreId)
  /-- Out of its ready list too, and not blocked. -/
  | leaving (smph : SemaphoreId) (timed : Bool)
  deriving DecidableEq

/-- The wait list of a task that is not blocked yet. -/
def Flight.entered : Flight → Option ListRef
  | .no => none
  | .popped => none
  | .unlinked => none
  | .entering smph => some (.semaphore_blocked_list smph)
  | .leaving smph _ => some (.semaphore_blocked_list smph)

/-- Whether the wait is timed, for a task that has left its ready list and is not blocked. -/
def Flight.left : Flight → Option Bool
  | .no => none
  | .popped => none
  | .unlinked => none
  | .entering _ => none
  | .leaving _ timed => some timed

@[simp] theorem Flight.entered_no : Flight.no.entered = none := rfl
@[simp] theorem Flight.entered_popped : Flight.popped.entered = none := rfl
@[simp] theorem Flight.entered_unlinked : Flight.unlinked.entered = none := rfl
@[simp] theorem Flight.entered_entering (smph : SemaphoreId) :
    (Flight.entering smph).entered = some (.semaphore_blocked_list smph) := rfl
@[simp] theorem Flight.entered_leaving (smph : SemaphoreId) (timed : Bool) :
    (Flight.leaving smph timed).entered = some (.semaphore_blocked_list smph) := rfl
@[simp] theorem Flight.left_no : Flight.no.left = none := rfl
@[simp] theorem Flight.left_popped : Flight.popped.left = none := rfl
@[simp] theorem Flight.left_unlinked : Flight.unlinked.left = none := rfl
@[simp] theorem Flight.left_entering (smph : SemaphoreId) : (Flight.entering smph).left = none := rfl
@[simp] theorem Flight.left_leaving (smph : SemaphoreId) (timed : Bool) :
    (Flight.leaving smph timed).left = some timed := rfl

theorem Flight.left_of_entered {f : Flight} (h : f.entered = none) : f.left = none := by
  cases f <;> simp_all

theorem Flight.entered_ne_mutex (f : Flight) (mtx : MutexId) :
    f.entered ≠ some (.mutex_blocked_list mtx) := by
  cases f <;> simp

/-- The list of a task's state item. -/
def stateList (created : Bool) (st : TaskState) (core : CoreId) (priority : TaskPriorityLevel)
    (call : Call) : Option ListRef :=
  match created, st with
  | true, .READY => some (.ready_list core priority)
  | true, .RUNNING => some (.ready_list core priority)
  | true, .BLOCKED => if call.timed then some (.blocked_task_list core) else none
  | _, _ => none

/-- The list of a task's event item. -/
def eventList (created : Bool) (st : TaskState) (call : Call) (fl : Flight) : Option ListRef :=
  match created, st, fl with
  | true, _, .entering smph => some (.semaphore_blocked_list smph)
  | true, _, .leaving smph _ => some (.semaphore_blocked_list smph)
  | true, .BLOCKED, .no => call.waits_on
  | _, _, _ => none

def stateHome (K : Kernel L) (call : Tcb → Call) (fl : Tcb → Flight) (t : Tcb) :
    Option ListRef :=
  match (fl t).left with
  | some timed => if timed then some (.blocked_task_list (K.core_id t)) else none
  | none => stateList (K.created t) (K.current_state t) (K.core_id t) (K.priority t) (call t)

def eventHome (K : Kernel L) (call : Tcb → Call) (fl : Tcb → Flight) (t : Tcb) :
    Option ListRef :=
  eventList (K.created t) (K.current_state t) (call t) (fl t)

@[simp] theorem stateList_ready (c : CoreId) (p : TaskPriorityLevel) (k : Call) :
    stateList true .READY c p k = some (.ready_list c p) := rfl
@[simp] theorem stateList_running (c : CoreId) (p : TaskPriorityLevel) (k : Call) :
    stateList true .RUNNING c p k = some (.ready_list c p) := rfl
@[simp] theorem stateList_blocked (c : CoreId) (p : TaskPriorityLevel) (k : Call) :
    stateList true .BLOCKED c p k = if k.timed then some (.blocked_task_list c) else none := rfl
@[simp] theorem eventList_blocked (k : Call) : eventList true .BLOCKED k .no = k.waits_on := rfl

theorem eventList_of_ne {b : Bool} {st : TaskState} {k : Call} {f : Flight} (h : st ≠ .BLOCKED) :
    eventList b st k f = if b then f.entered else none := by
  cases b <;> cases st <;> cases f <;> first | rfl | exact absurd rfl h

theorem eventList_flight {b : Bool} {st : TaskState} {k : Call} {f : Flight} (h : f ≠ .no) :
    eventList b st k f = if b then f.entered else none := by
  cases b <;> cases st <;> cases f <;> first | rfl | exact absurd rfl h

@[simp] theorem stateList_fresh (st : TaskState) (c : CoreId) (p : TaskPriorityLevel) (k : Call) :
    stateList false st c p k = none := by cases st <;> rfl

@[simp] theorem eventList_fresh (st : TaskState) (k : Call) (f : Flight) :
    eventList false st k f = none := by cases st <;> cases f <;> rfl

/-- What holds of the tasks besides their lists. -/
structure TaskTable (core_id : Tcb → CoreId) (created : Tcb → Bool) (current_state : Tcb → TaskState)
    (p_task_control_block : CoreId → Option Tcb) (call : Tcb → Call) (fl : Tcb → Flight) :
    Prop where
  home : ∀ t, created t = true → core_id t = t.home
  state : ∀ t, created t = true →
    current_state t = .READY ∨ current_state t = .RUNNING ∨ current_state t = .BLOCKED
  blocked : ∀ t, created t = true → current_state t = .BLOCKED → (call t).spins = true
  fresh : ∀ t, created t = false → call t = .own
  idle : ∀ c, call (.idle c) = .own
  flight : ∀ t, fl t ≠ .no → created t = true ∧
    ((fl t).entered = none ↔ current_state t = .BLOCKED)
  current : ∀ c t, p_task_control_block c = some t → created t = true ∧ t.home = c

structure Sim (K : Kernel Links) (S : Kernel Sequences) (call : Tcb → Call) (fl : Tcb → Flight) :
    Prop where
  same : S = K.over S.lists
  linked : Linked K.lists S.lists K.wakeup_time (stateHome K call fl) (eventHome K call fl)
    (fun t => fl t = .popped)
  tasks : TaskTable K.core_id K.created K.current_state K.p_task_control_block call fl
  counter : ∀ c, 0 < K.task_counter c → K.initialised c = true
  owners : ∀ mtx t, K.mutex_owner mtx = some t → K.created t = true

theorem waits_on_isWait {call : Call} {l : ListRef} (h : call.waits_on = some l) :
    l.isWait = true := by
  cases call with
  | mutex_lock mtx timeout_ms => cases h; rfl
  | semaphore_wait smph timeout_ms deadline => cases h; rfl
  | _ => cases h

namespace Sim

variable {K : Kernel Links} {S : Kernel Sequences} {call : Tcb → Call} {fl : Tcb → Flight}
  {t : Tcb}

theorem exists_over (h : Sim K S call fl) : ∃ s, S = K.over s := ⟨_, h.same⟩

theorem state_left (h : Sim K S call fl) (t : Tcb) :
    container K.lists (ItemRef.state_list_item t) = stateHome K call fl t := by
  rw [← h.linked.state t]; exact congrFun h.linked.refines.container _

theorem state_right (h : Sim K S call fl) (t : Tcb) :
    container S.lists (ItemRef.state_list_item t) = stateHome K call fl t := h.linked.state t

theorem ready_or_running (h : Sim K S call fl) (hc : K.created t = true)
    (hs : K.current_state t ≠ .BLOCKED) :
    K.current_state t = .READY ∨ K.current_state t = .RUNNING := by
  rcases h.tasks.state t hc with e | e | e
  · exact .inl e
  · exact .inr e
  · exact absurd e hs

/-- A task that is not blocked is in the ready list of its priority. -/
theorem ready_home (h : Sim K S call fl) (hc : K.created t = true)
    (hs : K.current_state t ≠ .BLOCKED) (hl : (fl t).left = none) :
    stateHome K call fl t = some (.ready_list (K.core_id t) (K.priority t)) := by
  unfold stateHome
  rw [hl]
  dsimp only
  rcases h.ready_or_running hc hs with e | e
  · rw [hc, e]; rfl
  · rw [hc, e]; rfl

theorem no_flight (h : Sim K S call fl) (hs : K.current_state t ≠ .BLOCKED)
    (he : (fl t).entered = none) : fl t = .no := by
  by_contra hf
  exact hs ((h.tasks.flight t hf).2.mp he)

theorem in_flight (h : Sim K S call fl) (hf : fl t ≠ .no) (he : (fl t).entered = none) :
    K.created t = true ∧ K.current_state t = .BLOCKED :=
  ⟨(h.tasks.flight t hf).1, (h.tasks.flight t hf).2.mp he⟩

/-- Linked lists are unaffected by what else changes. -/
theorem relink {K' : Kernel Links} {S' : Kernel Sequences} {call' : Tcb → Call}
    {fl' : Tcb → Flight} {wake : Tcb → Nat} {sh eh : Tcb → Option ListRef} {f : Tcb → Prop}
    (hl : Linked K'.lists S'.lists wake sh eh f) (ho : S' = K'.over S'.lists)
    (hw : K'.wakeup_time = wake) (hsh : ∀ u, stateHome K' call' fl' u = sh u)
    (heh : ∀ u, eventHome K' call' fl' u = eh u) (hf : ∀ u, fl' u = .popped ↔ f u)
    (ht : TaskTable K'.core_id K'.created K'.current_state K'.p_task_control_block call' fl')
    (hc : ∀ c, 0 < K'.task_counter c → K'.initialised c = true)
    (hown : ∀ mtx t, K'.mutex_owner mtx = some t → K'.created t = true) : Sim K' S' call' fl' :=
  ⟨ho, hw ▸ hl.congr hsh heh hf, ht, hc, hown⟩

end Sim
end Rpitos
