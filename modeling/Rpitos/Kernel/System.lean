import Rpitos.Kernel.Mutex
import Rpitos.Kernel.Semaphore

/-!
# Kernel.System

The kernel as a transition system. A step is one critical section of one call, or one tick. Between
two sections anything may happen: a tick of any core, a section of a task of another core, a
`semaphore_give` from an interrupt handler.

Sections run with interrupts masked and under the locks of what they touch. Three steps are longer
than what that makes atomic, and are cut up in modules of their own:
* `task_create` masks interrupts in `heap_malloc` and for its report only: a tick of its core can
  fall into the append to the ready list (`Kernel.UnmaskedCreate`);
* `semaphore_give` and `mutex_unlock` unlink a waiter under the lock of the object and make it ready
  later, under the scheduler lock of its core: a tick of that core can fall in between
  (`Kernel.CrossCore`);
* `semaphore_take` stores BLOCKED after it has released the scheduler lock: a `mutex_lock` of another
  core can boost the task before (`Kernel.BlockingTake`).

A task inside a blocking call is at a `Call`. It runs when it is the current task of its core and is
not blocked: a blocked task spins until the tick switches away from it, and when it is woken before
that it goes on at once.

Each step has a list of events, what the callers of the API see; a run carries their history.
-/

namespace Rpitos

open StatusCode

variable {L : Type}

/-- Where a task is in a call. -/
inductive Call where
  /-- In its own code. -/
  | own
  /-- About to enter the critical section of `block_until`. -/
  | block_until (wakeup_time : Nat)
  /-- Spinning in `block_until`. -/
  | delayed
  /-- Spinning in `mutex_lock`. -/
  | mutex_lock (mtx : MutexId) (timeout_ms : Int)
  /-- At the head of the loop of `semaphore_take`. -/
  | semaphore_take (smph : SemaphoreId) (timeout_ms : Int) (deadline : Nat)
  /-- Spinning in `semaphore_take`. -/
  | semaphore_wait (smph : SemaphoreId) (timeout_ms : Int) (deadline : Nat)
  deriving DecidableEq, Repr

inductive Action where
  | scheduler_init (core : CoreId)
  | scheduler_start (core : CoreId)
  /-- A tick; on core 0 with the gives of `software_timer_tick`. -/
  | tick (core : CoreId) (timer_gives : List SemaphoreId)
  | task_create (core : CoreId) (stack_depth priority : Nat)
  /-- The task's own code stores to the lowest word of its stack. -/
  | stack_write (tcb : Tcb) (word : Nat)
  | task_delay_ms (tcb : Tcb) (ticks : Nat)
  | task_delay_until_ms (tcb : Tcb) (last_wake_time period : Nat)
  | mutex_set_inheritance (mtx : MutexId) (enable : Bool)
  | mutex_lock (tcb : Tcb) (mtx : MutexId) (timeout_ms : Int)
  | mutex_unlock (tcb : Tcb) (mtx : MutexId)
  | semaphore_take (tcb : Tcb) (smph : SemaphoreId) (timeout_ms : Int)
  | semaphore_give (smph : SemaphoreId)
  /-- The next section of the call the task is in. -/
  | proceed (tcb : Tcb)
  deriving DecidableEq, Repr

inductive Event where
  | lock_waits (tcb : Tcb) (mtx : MutexId)
  | lock_returns (tcb : Tcb) (mtx : MutexId) (code : StatusCode)
  | unlocks (tcb : Tcb) (mtx : MutexId)
  /-- `mutex_unlock` made the task the owner. -/
  | lock_handed (tcb : Tcb) (mtx : MutexId)
  | take_calls (tcb : Tcb) (smph : SemaphoreId) (timeout_ms : Int) (deadline : Nat)
  | take_waits (tcb : Tcb) (smph : SemaphoreId)
  | take_returns (tcb : Tcb) (smph : SemaphoreId) (code : StatusCode)
  /-- `semaphore_give` woke the task with a unit. -/
  | take_handed (tcb : Tcb) (smph : SemaphoreId)
  | give_returns (smph : SemaphoreId) (code : StatusCode)
  /-- A tick took the task off its blocked list. -/
  | expires (tcb : Tcb)
  deriving DecidableEq, Repr

structure System (L : Type) where
  kernel : Kernel L
  call : Tcb → Call

/-- Whether the task was made by `task_create`; the idle task calls nothing. -/
def Tcb.is_task : Tcb → Bool
  | .pool _ _ => true
  | .idle _ => false

/-- The task executes: it is its core's current task, and does not spin on BLOCKED. -/
def Kernel.runs (K : Kernel L) (t : Tcb) : Bool :=
  t.is_task && !K.hung t.home && K.p_task_control_block t.home == some t &&
    K.current_state t != .BLOCKED

/-- The wake-up time `task_delay_ms` computes. -/
def task_delay_ms (K : Kernel L) (t : Tcb) (ticks : Nat) : Nat := u64 (K.tick_count t.home + ticks)

/-- The wake-up time `task_delay_until_ms` computes. -/
def task_delay_until_ms (last_wake_time period : Nat) : Nat := u64 (last_wake_time + period)

namespace System

def setCall (S : System L) (t : Tcb) (call : Call) : System L :=
  { S with call := Function.update S.call t call }

def withKernel (S : System L) (K : Kernel L) : System L := { S with kernel := K }

@[simp] theorem setCall_kernel (S : System L) (t : Tcb) (k : Call) :
    (S.setCall t k).kernel = S.kernel := rfl
@[simp] theorem setCall_call (S : System L) (t : Tcb) (k : Call) :
    (S.setCall t k).call = Function.update S.call t k := rfl
@[simp] theorem withKernel_kernel (S : System L) (K : Kernel L) : (S.withKernel K).kernel = K := rfl
@[simp] theorem withKernel_call (S : System L) (K : Kernel L) :
    (S.withKernel K).call = S.call := rfl

variable [ListOps L ItemRef ListRef]

/-- One `semaphore_give`. -/
def give (S : System L) (smph : SemaphoreId) : List Event × System L :=
  let r := semaphore_give S.kernel smph
  ((match r.2.1 with | some t => [.take_handed t smph] | none => []) ++ [.give_returns smph r.1],
    S.withKernel r.2.2)

/-- The gives of `software_timer_tick`, one for each timer that expires. -/
def gives (S : System L) : List SemaphoreId → List Event × System L
  | [] => ([], S)
  | smph :: rest =>
    let r := S.give smph
    let r' := gives r.2 rest
    (r.1 ++ r'.1, r'.2)

/-- One tick: the tick handler, then the context switch. -/
def tick (S : System L) (c : CoreId) (timer_gives : List SemaphoreId) : List Event × System L :=
  let r := timer_tick_handler S.kernel c
  let g := (S.withKernel r.2).gives timer_gives
  (r.1.map .expires ++ g.1, g.2.withKernel (scheduler_switch_context g.2.kernel c))

/-- The call of `mutex_lock` up to its spin. -/
def lock (S : System L) (t : Tcb) (mtx : MutexId) (timeout_ms : Int) : List Event × System L :=
  match mutex_lock S.kernel mtx t timeout_ms with
  | (some code, K) => ([.lock_returns t mtx code], S.withKernel K)
  | (none, K) => ([.lock_waits t mtx], (S.withKernel K).setCall t (.mutex_lock mtx timeout_ms))

def unlock (S : System L) (t : Tcb) (mtx : MutexId) : List Event × System L :=
  let r := mutex_unlock S.kernel mtx
  (.unlocks t mtx :: (match r.1 with | some w => [.lock_handed w mtx] | none => []),
    S.withKernel r.2)

/-- The first section of a round of `semaphore_take`. -/
def take (S : System L) (t : Tcb) (smph : SemaphoreId) (timeout_ms : Int) (deadline : Nat) :
    List Event × System L :=
  match semaphore_take S.kernel smph t timeout_ms deadline with
  | (some code, K) => ([.take_returns t smph code], (S.withKernel K).setCall t .own)
  | (none, K) =>
    ([.take_waits t smph], (S.withKernel K).setCall t (.semaphore_wait smph timeout_ms deadline))

/-- The second section of a round of `semaphore_take`. -/
def takeWake (S : System L) (t : Tcb) (smph : SemaphoreId) (timeout_ms : Int) (deadline : Nat) :
    List Event × System L :=
  match semaphore_take_wake S.kernel t with
  | (true, K) => ([.take_returns t smph E_OK], (S.withKernel K).setCall t .own)
  | (false, K) => ([], (S.withKernel K).setCall t (.semaphore_take smph timeout_ms deadline))

/-- The next section of the call `t` is in. -/
def proceed (S : System L) (t : Tcb) : Option (List Event × System L) :=
  match S.call t with
  | .own => none
  | .block_until w => some ([], (S.withKernel (block_until S.kernel t w)).setCall t .delayed)
  | .delayed => some ([], S.setCall t .own)
  | .mutex_lock mtx _ =>
    some ([.lock_returns t mtx (mutex_lock_result S.kernel mtx t)], S.setCall t .own)
  | .semaphore_take smph timeout_ms deadline => some (S.take t smph timeout_ms deadline)
  | .semaphore_wait smph timeout_ms deadline => some (S.takeWake t smph timeout_ms deadline)

/-- The task runs and is in no call. -/
def free (S : System L) (t : Tcb) : Prop := S.kernel.runs t = true ∧ S.call t = .own

instance (S : System L) (t : Tcb) : Decidable (S.free t) := inferInstanceAs (Decidable (_ ∧ _))

/-- One step, `none` where it is not possible. -/
def step (S : System L) : Action → Option (List Event × System L)
  | .scheduler_init c =>
    if S.kernel.initialised c = false then some ([], S.withKernel (scheduler_init S.kernel c))
    else none
  | .scheduler_start c =>
    if S.kernel.initialised c = true ∧ S.kernel.p_task_control_block c = none then
      some ([], S.withKernel (scheduler_switch_context S.kernel c))
    else none
  | .tick c timer_gives =>
    if S.kernel.initialised c = true ∧ S.kernel.hung c = false ∧ (c = 0 ∨ timer_gives = []) then
      some (S.tick c timer_gives)
    else none
  | .task_create c stack_depth priority =>
    if S.kernel.initialised c = true then
      some ([], S.withKernel (task_create S.kernel c stack_depth priority).2.2)
    else none
  | .stack_write t w =>
    if S.kernel.runs t = true then
      some ([], S.withKernel
        { S.kernel with stack_base0 := Function.update S.kernel.stack_base0 t (some w) })
    else none
  | .task_delay_ms t ticks =>
    if S.free t then some ([], S.setCall t (.block_until (task_delay_ms S.kernel t ticks)))
    else none
  | .task_delay_until_ms t last_wake_time period =>
    if S.free t then some ([], S.setCall t (.block_until (task_delay_until_ms last_wake_time period)))
    else none
  | .mutex_set_inheritance mtx enable =>
    some ([], S.withKernel (mutex_set_inheritance S.kernel mtx enable).2)
  | .mutex_lock t mtx timeout_ms => if S.free t then some (S.lock t mtx timeout_ms) else none
  | .mutex_unlock t mtx =>
    if S.free t ∧ S.kernel.mutex_owner mtx = some t then some (S.unlock t mtx) else none
  | .semaphore_take t smph timeout_ms =>
    if S.free t then
      some ([.take_calls t smph timeout_ms (take_deadline S.kernel t timeout_ms)],
        S.setCall t (.semaphore_take smph timeout_ms (take_deadline S.kernel t timeout_ms)))
    else none
  | .semaphore_give smph => some (S.give smph)
  | .proceed t => if S.kernel.runs t = true then S.proceed t else none

/-- The next section of the call `t` is in. -/
inductive Proceeds (S : System L) (t : Tcb) : List Event → System L → Prop
  | block_until {w : Nat} (hc : S.call t = .block_until w) :
      Proceeds S t [] ((S.withKernel (block_until S.kernel t w)).setCall t .delayed)
  | delayed (hc : S.call t = .delayed) : Proceeds S t [] (S.setCall t .own)
  | mutex_lock {mtx : MutexId} {timeout_ms : Int} (hc : S.call t = .mutex_lock mtx timeout_ms) :
      Proceeds S t [.lock_returns t mtx (mutex_lock_result S.kernel mtx t)] (S.setCall t .own)
  | semaphore_take {smph : SemaphoreId} {timeout_ms : Int} {deadline : Nat}
      (hc : S.call t = .semaphore_take smph timeout_ms deadline) :
      Proceeds S t (S.take t smph timeout_ms deadline).1 (S.take t smph timeout_ms deadline).2
  | semaphore_wait {smph : SemaphoreId} {timeout_ms : Int} {deadline : Nat}
      (hc : S.call t = .semaphore_wait smph timeout_ms deadline) :
      Proceeds S t (S.takeWake t smph timeout_ms deadline).1
        (S.takeWake t smph timeout_ms deadline).2

theorem proceeds {S S' : System L} {t : Tcb} {es : List Event}
    (h : S.proceed t = some (es, S')) : Proceeds S t es S' := by
  unfold proceed at h
  cases hc : S.call t with
  | own => rw [hc] at h; cases h
  | block_until w => rw [hc] at h; cases h; exact .block_until hc
  | delayed => rw [hc] at h; cases h; exact .delayed hc
  | mutex_lock mtx timeout_ms => rw [hc] at h; cases h; exact .mutex_lock hc
  | semaphore_take smph timeout_ms deadline =>
    rw [hc] at h
    obtain ⟨rfl, rfl⟩ := Prod.mk.inj (Option.some.inj h)
    exact .semaphore_take hc
  | semaphore_wait smph timeout_ms deadline =>
    rw [hc] at h
    obtain ⟨rfl, rfl⟩ := Prod.mk.inj (Option.some.inj h)
    exact .semaphore_wait hc

/-- A step of the system, with what made it possible. -/
inductive Move (S : System L) : Action → List Event → System L → Prop
  | scheduler_init {c : CoreId} (hi : S.kernel.initialised c = false) :
      Move S (.scheduler_init c) [] (S.withKernel (scheduler_init S.kernel c))
  | scheduler_start {c : CoreId} (hi : S.kernel.initialised c = true)
      (hn : S.kernel.p_task_control_block c = none) :
      Move S (.scheduler_start c) [] (S.withKernel (scheduler_switch_context S.kernel c))
  | tick {c : CoreId} {timer_gives : List SemaphoreId} (hi : S.kernel.initialised c = true) :
      Move S (.tick c timer_gives) (S.tick c timer_gives).1 (S.tick c timer_gives).2
  | task_create {c : CoreId} {stack_depth priority : Nat} (hi : S.kernel.initialised c = true) :
      Move S (.task_create c stack_depth priority) []
        (S.withKernel (task_create S.kernel c stack_depth priority).2.2)
  | stack_write {t : Tcb} {w : Nat} (hr : S.kernel.runs t = true) : Move S (.stack_write t w) []
      (S.withKernel
        { S.kernel with stack_base0 := Function.update S.kernel.stack_base0 t (some w) })
  | task_delay_ms {t : Tcb} {ticks : Nat} (hf : S.free t) : Move S (.task_delay_ms t ticks) []
      (S.setCall t (.block_until (task_delay_ms S.kernel t ticks)))
  | task_delay_until_ms {t : Tcb} {last_wake_time period : Nat} (hf : S.free t) :
      Move S (.task_delay_until_ms t last_wake_time period) []
        (S.setCall t (.block_until (task_delay_until_ms last_wake_time period)))
  | mutex_set_inheritance {mtx : MutexId} {enable : Bool} :
      Move S (.mutex_set_inheritance mtx enable) []
        (S.withKernel (mutex_set_inheritance S.kernel mtx enable).2)
  | mutex_lock {t : Tcb} {mtx : MutexId} {timeout_ms : Int} (hf : S.free t) :
      Move S (.mutex_lock t mtx timeout_ms) (S.lock t mtx timeout_ms).1 (S.lock t mtx timeout_ms).2
  | mutex_unlock {t : Tcb} {mtx : MutexId} (hf : S.free t)
      (ho : S.kernel.mutex_owner mtx = some t) :
      Move S (.mutex_unlock t mtx) (S.unlock t mtx).1 (S.unlock t mtx).2
  | semaphore_take {t : Tcb} {smph : SemaphoreId} {timeout_ms : Int} (hf : S.free t) :
      Move S (.semaphore_take t smph timeout_ms)
        [.take_calls t smph timeout_ms (take_deadline S.kernel t timeout_ms)]
        (S.setCall t (.semaphore_take smph timeout_ms (take_deadline S.kernel t timeout_ms)))
  | semaphore_give {smph : SemaphoreId} :
      Move S (.semaphore_give smph) (S.give smph).1 (S.give smph).2
  | proceed {t : Tcb} {es : List Event} {S' : System L} (hr : S.kernel.runs t = true)
      (hp : S.proceed t = some (es, S')) : Move S (.proceed t) es S'

theorem step_move {S S' : System L} {a : Action} {es : List Event}
    (h : S.step a = some (es, S')) : Move S a es S' := by
  unfold step at h
  cases a with
  | scheduler_init c =>
    obtain ⟨hi, h⟩ := Option.ite_none_right_eq_some.mp h
    cases h
    exact .scheduler_init hi
  | scheduler_start c =>
    obtain ⟨⟨hi, hn⟩, h⟩ := Option.ite_none_right_eq_some.mp h
    cases h
    exact .scheduler_start hi hn
  | tick c timer_gives =>
    obtain ⟨⟨hi, -⟩, h⟩ := Option.ite_none_right_eq_some.mp h
    obtain ⟨rfl, rfl⟩ := Prod.mk.inj (Option.some.inj h)
    exact .tick hi
  | task_create c stack_depth priority =>
    obtain ⟨hi, h⟩ := Option.ite_none_right_eq_some.mp h
    cases h
    exact .task_create hi
  | stack_write t w =>
    obtain ⟨hr, h⟩ := Option.ite_none_right_eq_some.mp h
    cases h
    exact .stack_write hr
  | task_delay_ms t ticks =>
    obtain ⟨hf, h⟩ := Option.ite_none_right_eq_some.mp h
    cases h
    exact .task_delay_ms hf
  | task_delay_until_ms t last_wake_time period =>
    obtain ⟨hf, h⟩ := Option.ite_none_right_eq_some.mp h
    cases h
    exact .task_delay_until_ms hf
  | mutex_set_inheritance mtx enable =>
    cases h
    exact .mutex_set_inheritance
  | mutex_lock t mtx timeout_ms =>
    obtain ⟨hf, h⟩ := Option.ite_none_right_eq_some.mp h
    obtain ⟨rfl, rfl⟩ := Prod.mk.inj (Option.some.inj h)
    exact .mutex_lock hf
  | mutex_unlock t mtx =>
    obtain ⟨⟨hf, ho⟩, h⟩ := Option.ite_none_right_eq_some.mp h
    obtain ⟨rfl, rfl⟩ := Prod.mk.inj (Option.some.inj h)
    exact .mutex_unlock hf ho
  | semaphore_take t smph timeout_ms =>
    obtain ⟨hf, h⟩ := Option.ite_none_right_eq_some.mp h
    cases h
    exact .semaphore_take hf
  | semaphore_give smph =>
    obtain ⟨rfl, rfl⟩ := Prod.mk.inj (Option.some.inj h)
    exact .semaphore_give
  | proceed t =>
    obtain ⟨hr, h⟩ := Option.ite_none_right_eq_some.mp h
    exact .proceed hr h

end System

/-- The memory before `scheduler_init`, with every mutex and semaphore initialised. -/
def Kernel.boot (lists : L) (max_count initial_count : SemaphoreId → Nat) : Kernel L where
  lists := lists
  stack_base0 _ := none
  stack_depth _ := 0
  task_id _ := 0
  core_id _ := 0
  current_state _ := .READY
  priority _ := TASK_PRIORITY_IDLE
  wakeup_time _ := 0
  wakeup_reason _ := .NONE
  base_priority _ := TASK_PRIORITY_IDLE
  mutexes_held _ := 0
  mutex_state _ := .UNLOCKED
  mutex_owner _ := none
  inheritance_enabled _ := false
  inherited_priority _ := TASK_PRIORITY_IDLE
  max_count := max_count
  count := initial_count
  tick_count _ := 0
  p_task_control_block _ := none
  task_counter _ := 0
  initialised _ := false
  hung _ := false
  heap_offset := 0

def System.boot (lists : L) (max_count initial_count : SemaphoreId → Nat) : System L where
  kernel := Kernel.boot lists max_count initial_count
  call _ := .own

/-- Which steps a run may take, from which states. -/
abbrev Guard (L : Type) := System L → Action → Prop

/-- Every step is allowed. -/
def anyStep : Guard L := fun _ _ => True

instance (S : System L) (a : Action) : Decidable (anyStep S a) := inferInstanceAs (Decidable True)

/-- The steps `as` one after the other, `none` when one of them is not possible or not allowed. -/
def System.exec [ListOps L ItemRef ListRef] (ok : Guard L) [∀ S a, Decidable (ok S a)]
    (S : System L) : List Action → Option (List Event × System L)
  | [] => some ([], S)
  | a :: as =>
    if ok S a then
      match S.step a with
      | none => none
      | some r =>
        match exec ok r.2 as with
        | none => none
        | some r' => some (r.1 ++ r'.1, r'.2)
    else none

/-- `Run ok S₀ h S`: from `S₀` to `S` by steps that `ok` allows, with history `h`. -/
inductive Run [ListOps L ItemRef ListRef] (ok : Guard L) (S₀ : System L) :
    List Event → System L → Prop
  | start : Run ok S₀ [] S₀
  | step {h evs : List Event} {S S' : System L} {a : Action} :
      Run ok S₀ h S → ok S a → S.step a = some (evs, S') → Run ok S₀ (h ++ evs) S'

section Runs

variable [ListOps L ItemRef ListRef] {ok : Guard L}

variable [∀ S a, Decidable (ok S a)]

/-- Executing a list of steps is a run. -/
theorem Run.exec {S₀ : System L} (as : List Action) :
    ∀ {S : System L} {h : List Event} {r : List Event × System L}, Run ok S₀ h S →
      S.exec ok as = some r → Run ok S₀ (h ++ r.1) r.2 := by
  induction as with
  | nil => intro S h r hr he; cases he; simpa using hr
  | cons a as ih =>
    intro S h r hr he
    unfold System.exec at he
    obtain ⟨ha, he⟩ := Option.ite_none_right_eq_some.mp he
    cases hs : S.step a with
    | none => rw [hs] at he; cases he
    | some q =>
      rw [hs] at he
      dsimp only at he
      cases hx : q.2.exec ok as with
      | none => rw [hx] at he; cases he
      | some q' =>
        rw [hx] at he
        cases he
        have := ih (hr.step ha hs) hx
        rwa [List.append_assoc] at this

theorem Run.of_exec {S : System L} {as : List Action} {r : List Event × System L}
    (he : S.exec ok as = some r) : Run ok S r.1 r.2 := by
  simpa using Run.exec as .start he

end Runs

end Rpitos
