import Rpitos.Lib.Reach
import Rpitos.Lib.SList
import Rpitos.Kernel.Types

/-!
# Kernel.SoftwareTimer

`software_timer.c` over `n` timers, as a step relation: the calls of the API, the tick, and the
service task one section at a time, so that calls can come between any two sections, also while a
callback is in progress.

A call takes the tick count it reads as an argument. A loop over a list is `none` when it visits more
nodes than there are timers: it would not end.
-/

namespace Rpitos

open Function StatusCode

inductive TimerMode where
  | TIMER_MODE_ONE_SHOT | TIMER_MODE_PERIODIC
  deriving DecidableEq, Repr

inductive TimerListId where
  | TIMER_LIST_NONE | TIMER_LIST_BLOCKED | TIMER_LIST_ACTIVE
  deriving DecidableEq, Repr

open TimerMode TimerListId

/-- Where a callback's code is; what it does are calls that come while it is in progress. -/
abbrev TimerCallback := Nat

abbrev SEMAPHORE_MAX_COUNT_UNLIMITED : Nat := 0xFFFFFFFF

/-- Where `software_timer_service_task` is. -/
inductive ServicePc (n : Nat) where
  /-- Before `semaphore_take`. -/
  | take
  /-- Blocked in `semaphore_take`. -/
  | waiting
  /-- Before the section that pulls a timer off the active list. -/
  | pull
  /-- Before the test of `expired->callback`. -/
  | pulled (expired : Fin n)
  /-- In the callback. -/
  | callback (expired : Fin n)
  /-- Before the test of `expired->timer_mode`. -/
  | called (expired : Fin n)
  /-- Before the section that re-arms. -/
  | rearm (expired : Fin n)
  deriving DecidableEq, Repr

/-- The timers (struct SoftwareTimer), the two heads, and the semaphore with its only taker. -/
structure Timers (n : Nat) where
  expiry_tick : Fin n → Nat
  period : Fin n → Nat
  timer_mode : Fin n → TimerMode
  callback : Fin n → Option TimerCallback
  list_id : Fin n → TimerListId
  next : Fin n → Option (Fin n)
  blocked_list_head : Option (Fin n)
  active_list_head : Option (Fin n)
  count : Nat
  service : ServicePc n

variable {n : Nat}

/-- `software_timer_unlink(&blocked_list_head, timer)`. -/
def software_timer_unlink_blocked (X : Timers n) (timer : Fin n) : Option (Bool × Timers n) :=
  match unlinkNode X.next X.blocked_list_head timer (n + 1) with
  | some (found, next, head) => some (found, { X with next := next, blocked_list_head := head })
  | none => none

/-- `software_timer_unlink(&active_list_head, timer)`. -/
def software_timer_unlink_active (X : Timers n) (timer : Fin n) : Option (Bool × Timers n) :=
  match unlinkNode X.next X.active_list_head timer (n + 1) with
  | some (found, next, head) => some (found, { X with next := next, active_list_head := head })
  | none => none

def software_timer_add_to_blocked_list (X : Timers n) (timer : Fin n) : Option (Timers n) :=
  match insertNode X.next X.blocked_list_head X.expiry_tick timer (n + 1) with
  | some (next, head) => some { X with
      list_id := update X.list_id timer TIMER_LIST_BLOCKED, next := next,
      blocked_list_head := head }
  | none => none

def software_timer_pop_to_active (X : Timers n) (timer : Fin n) : Option (Timers n) :=
  match software_timer_unlink_blocked X timer with
  | some (true, X) => some { X with
      next := update X.next timer X.active_list_head
      active_list_head := some timer
      list_id := update X.list_id timer TIMER_LIST_ACTIVE }
  | some (false, X) => some X
  | none => none

/-- `semaphore_give(&software_timer_semaphore)`: the unit goes to the waiting service task. -/
def software_timer_give (X : Timers n) : Timers n :=
  if X.service = .waiting then { X with service := .pull }
  else if X.count < SEMAPHORE_MAX_COUNT_UNLIMITED then { X with count := X.count + 1 } else X

/-- The unlinking at the start of `software_timer_stop` and `software_timer_reset`. -/
def software_timer_leave (X : Timers n) (timer : Fin n) : Option (Timers n) :=
  match X.list_id timer with
  | TIMER_LIST_BLOCKED => (software_timer_unlink_blocked X timer).map Prod.snd
  | TIMER_LIST_ACTIVE => (software_timer_unlink_active X timer).map Prod.snd
  | TIMER_LIST_NONE => some X

/-- `now` is `scheduler_get_tick_count()`, `none` when there is no current task. -/
def software_timer_create (X : Timers n) (software_timer : Option (Fin n)) (period : Nat)
    (callback_function : Option TimerCallback) (timer_mode : TimerMode) (now : Option Nat) :
    Option (StatusCode × Timers n) :=
  match software_timer with
  | none => some (E_INVALID_ARGS, X)
  | some t =>
    if period = 0 then some (E_INVALID_ARGS, X)
    else
      let X := { X with
        period := update X.period t period
        callback := update X.callback t callback_function
        timer_mode := update X.timer_mode t timer_mode
        expiry_tick := update X.expiry_tick t 0
        list_id := update X.list_id t TIMER_LIST_NONE
        next := update X.next t none }
      match now with
      | none => some (E_OK, X)
      | some now =>
        let X := { X with expiry_tick := update X.expiry_tick t (u64 (now + period)) }
        (software_timer_add_to_blocked_list X t).map (E_OK, ·)

def software_timer_stop (X : Timers n) (software_timer : Option (Fin n)) :
    Option (StatusCode × Timers n) :=
  match software_timer with
  | none => some (E_INVALID_ARGS, X)
  | some t =>
    match software_timer_leave X t with
    | some X => some (E_OK, { X with list_id := update X.list_id t TIMER_LIST_NONE })
    | none => none

def software_timer_reset (X : Timers n) (software_timer : Option (Fin n)) (now : Nat) :
    Option (StatusCode × Timers n) :=
  match software_timer with
  | none => some (E_INVALID_ARGS, X)
  | some t =>
    match software_timer_leave X t with
    | some X =>
      let X := { X with expiry_tick := update X.expiry_tick t (u64 (now + X.period t)) }
      (software_timer_add_to_blocked_list X t).map (E_OK, ·)
    | none => none

/-- The loop of `software_timer_tick`. -/
def software_timer_tick_loop (now_tick : Nat) : Nat → Timers n → Option (Timers n)
  | 0, _ => none
  | fuel + 1, X =>
    match X.blocked_list_head with
    | none => some X
    | some expired =>
      if X.expiry_tick expired ≤ now_tick then
        match software_timer_pop_to_active X expired with
        | some X => software_timer_tick_loop now_tick fuel (software_timer_give X)
        | none => none
      else some X

def software_timer_tick (X : Timers n) (now_tick : Nat) : Option (Timers n) :=
  software_timer_tick_loop now_tick (n + 1) X

/-- The next section of `software_timer_service_task`. -/
def software_timer_service_task (X : Timers n) : Option (Timers n) :=
  match X.service with
  | .take =>
    if 0 < X.count then some { X with count := X.count - 1, service := .pull }
    else some { X with service := .waiting }
  | .waiting => none
  | .pull =>
    match X.active_list_head with
    | none => some { X with service := .take }
    | some expired => some { X with
        active_list_head := X.next expired
        next := update X.next expired none
        list_id := update X.list_id expired TIMER_LIST_NONE
        service := .pulled expired }
  | .pulled expired =>
    some { X with service := if X.callback expired = none then .called expired
      else .callback expired }
  | .callback expired => some { X with service := .called expired }
  | .called expired =>
    some { X with service := if X.timer_mode expired = TIMER_MODE_PERIODIC then .rearm expired
      else .take }
  | .rearm expired =>
    let X := { X with
      expiry_tick := update X.expiry_tick expired
        (u64 (X.expiry_tick expired + X.period expired)) }
    (software_timer_add_to_blocked_list X expired).map ({ · with service := .take })

inductive TimerAction (n : Nat) where
  | create (timer : Option (Fin n)) (period : Nat) (callback : Option TimerCallback)
      (timer_mode : TimerMode) (now : Option Nat)
  | stop (timer : Option (Fin n))
  | reset (timer : Option (Fin n)) (now : Nat)
  | tick (now_tick : Nat)
  | service

namespace Timers

/-- One step; a timer is created only while it is in no list. -/
def step (X : Timers n) : TimerAction n → Option (Timers n)
  | .create timer period callback timer_mode now =>
    if ∀ t ∈ timer, X.list_id t = TIMER_LIST_NONE then
      (software_timer_create X timer period callback timer_mode now).map Prod.snd
    else none
  | .stop timer => (software_timer_stop X timer).map Prod.snd
  | .reset timer now => (software_timer_reset X timer now).map Prod.snd
  | .tick now_tick => software_timer_tick X now_tick
  | .service => software_timer_service_task X

/-- After `software_timer_init` and `software_timer_start`; the timers are zero-initialised. -/
def boot (n : Nat) : Timers n where
  expiry_tick _ := 0
  period _ := 0
  timer_mode _ := TIMER_MODE_ONE_SHOT
  callback _ := none
  list_id _ := TIMER_LIST_NONE
  next _ := none
  blocked_list_head := none
  active_list_head := none
  count := 0
  service := .take

/-- A step that re-arms a timer finds it in no list. -/
def rearmsUnlisted (X : Timers n) (a : TimerAction n) : Prop :=
  match a, X.service with
  | .service, .rearm expired => X.list_id expired = TIMER_LIST_NONE
  | _, _ => True

instance (X : Timers n) (a : TimerAction n) : Decidable (X.rearmsUnlisted a) := by
  unfold rearmsUnlisted
  split <;> infer_instance

/-- `bs` is the blocked list and `as` the active list. -/
structure Lists (X : Timers n) (bs as : List (Fin n)) : Prop where
  blocked : Chain X.next X.blocked_list_head bs
  active : Chain X.next X.active_list_head as
  /-- No timer is twice in a list or in both. -/
  nodup : (bs ++ as).Nodup
  sorted : bs.Pairwise fun a b => X.expiry_tick a ≤ X.expiry_tick b

/-- The tags say which list a timer is in. -/
structure Tags (list_id : Fin n → TimerListId) (bs as : List (Fin n)) : Prop where
  blocked : ∀ t, list_id t = TIMER_LIST_BLOCKED ↔ t ∈ bs
  active : ∀ t, list_id t = TIMER_LIST_ACTIVE ↔ t ∈ as
  none : ∀ t, list_id t = TIMER_LIST_NONE ↔ t ∉ bs ∧ t ∉ as

/-- The lists are chains that end, without repetition, tagged and sorted. -/
def Sound (X : Timers n) : Prop := ∃ bs as, X.Lists bs as ∧ Tags X.list_id bs as

end Timers
end Rpitos
