import Rpitos.Kernel.WaitOrder
import Mathlib.Data.Finset.Card
import Mathlib.Data.Finset.Insert

/-!
# Kernel.SemaphoreRuns

One semaphore over a whole run. A unit is in the counter, or handed to a task that has not returned
yet, or taken by a call that returned `E_OK`. `takeStatus` reads from the history where a task
stands, `System.taking` the same from the kernel; `TakeInv` says that they agree, that no unit is
lost or made, and that the wait list is in the order of waiting.
-/

namespace Rpitos

open Function ListOps StatusCode

/-! ## What the history says -/

/-- Where a task stands with a semaphore, with the time-out and the deadline of its call. -/
inductive TakeStatus where
  | out
  | trying (timeout_ms : Int) (deadline : Nat)
  | waiting (timeout_ms : Int) (deadline : Nat)
  | handed (timeout_ms : Int) (deadline : Nat)
  deriving DecidableEq, Repr

namespace TakeStatus

@[simp] def isWaiting : TakeStatus → Bool
  | waiting _ _ => true
  | _ => false

@[simp] def isHanded : TakeStatus → Bool
  | handed _ _ => true
  | _ => false

@[simp] def wait : TakeStatus → TakeStatus
  | trying timeout_ms deadline => waiting timeout_ms deadline
  | st => st

@[simp] def hand : TakeStatus → TakeStatus
  | waiting timeout_ms deadline => handed timeout_ms deadline
  | st => st

@[simp] def expire : TakeStatus → TakeStatus
  | waiting timeout_ms deadline => trying timeout_ms deadline
  | st => st

end TakeStatus

/-- One event, seen from task `t` and semaphore `smph`. -/
def takeStep (smph : SemaphoreId) (t : Tcb) (st : TakeStatus) : Event → TakeStatus
  | .take_calls u s timeout_ms deadline =>
    if u = t ∧ s = smph then .trying timeout_ms deadline else st
  | .take_waits u s => if u = t ∧ s = smph then st.wait else st
  | .take_handed u s => if u = t ∧ s = smph then st.hand else st
  | .take_returns u s _ => if u = t ∧ s = smph then .out else st
  | .expires u => if u = t then st.expire else st
  | _ => st

/-- Where `t` stands with `smph` after the history `h`. -/
def takeStatus (smph : SemaphoreId) (t : Tcb) (h : List Event) : TakeStatus :=
  h.foldl (takeStep smph t) .out

/-- How many events there were when `t` last began to wait for `smph`. -/
def waitingSince (smph : SemaphoreId) (t : Tcb) (h : List Event) : Nat :=
  h.length - h.reverse.idxOf (.take_waits t smph)

/-- The gives of `smph` that returned `E_OK`. -/
def gives_ok (smph : SemaphoreId) (h : List Event) : Nat := h.count (.give_returns smph E_OK)

/-- The takes of `smph` that returned `E_OK`. -/
def takes_ok (smph : SemaphoreId) (h : List Event) : Nat :=
  h.countP fun
    | .take_returns _ s code => s = smph ∧ code = E_OK
    | _ => false

/-- How many tasks satisfy `p`. -/
def count_tasks (p : Tcb → Bool) : Nat := (Finset.univ.filter fun t => p t = true).card

/-- The units handed to a task that has not returned yet. -/
def handed_units (smph : SemaphoreId) (h : List Event) : Nat :=
  count_tasks fun t => (takeStatus smph t h).isHanded

/-- What may happen after the history `h`. -/
def TakeAllowed (smph : SemaphoreId) (h : List Event) : Event → Prop
  | .take_handed t s => s = smph → (takeStatus smph t h).isWaiting = true ∧
    ∀ u, (takeStatus smph u h).isWaiting = true → waitingSince smph t h ≤ waitingSince smph u h
  | .take_returns t s code => s = smph → code = E_TIMED_OUT →
    (takeStatus smph t h).isWaiting = false ∧ (takeStatus smph t h).isHanded = false
  | _ => True

/-- Every event of the history was allowed where it happened. -/
def TakeLegal (smph : SemaphoreId) (h : List Event) : Prop :=
  ∀ h₁ e h₂, h = h₁ ++ e :: h₂ → TakeAllowed smph h₁ e

/-- Whether the event can matter to the semaphore. -/
def Event.concerns (smph : SemaphoreId) : Event → Bool
  | .take_calls _ s _ _ => s = smph
  | .take_waits _ s => s = smph
  | .take_returns _ s _ => s = smph
  | .take_handed _ s => s = smph
  | .give_returns s code => s = smph ∧ code = E_OK
  | .expires _ => true
  | _ => false

section History

variable {smph : SemaphoreId} {t : Tcb} {e : Event} {h es : List Event}

theorem takeStatus_concat :
    takeStatus smph t (h ++ [e]) = takeStep smph t (takeStatus smph t h) e := by
  simp [takeStatus]

theorem takeStep_other (he : e.concerns smph = false) (st : TakeStatus) :
    takeStep smph t st e = st := by
  cases e <;> simp_all [Event.concerns, takeStep]

theorem waitingSince_concat : waitingSince smph t (h ++ [e]) =
    if e = .take_waits t smph then h.length + 1 else waitingSince smph t h := by
  unfold waitingSince
  by_cases he : e = .take_waits t smph
  · simp [he]
  · simp [he]

theorem waitingSince_le : waitingSince smph t h ≤ h.length := Nat.sub_le _ _

theorem gives_ok_concat : gives_ok smph (h ++ [e]) =
    gives_ok smph h + if e = .give_returns smph E_OK then 1 else 0 := by
  simp only [gives_ok, List.count_append, List.count_singleton, beq_iff_eq]

theorem takes_ok_concat : takes_ok smph (h ++ [e]) =
    takes_ok smph h + match e with
      | .take_returns _ s code => if s = smph ∧ code = E_OK then 1 else 0
      | _ => 0 := by
  unfold takes_ok
  rw [List.countP_append, List.countP_singleton]
  cases e <;> simp

theorem takeLegal_concat :
    TakeLegal smph (h ++ [e]) ↔ TakeLegal smph h ∧ TakeAllowed smph h e := by
  constructor
  · intro hl
    exact ⟨fun h₁ e' h₂ he => hl h₁ e' (h₂ ++ [e]) (by simp [he]), hl h e [] rfl⟩
  · rintro ⟨hl, ha⟩ h₁ e' h₂ he
    rcases List.eq_nil_or_concat' h₂ with rfl | ⟨h₃, x, rfl⟩
    · obtain ⟨rfl, hx⟩ := List.append_inj' he rfl
      cases hx; exact ha
    · rw [← List.cons_append, ← List.append_assoc] at he
      exact hl h₁ e' h₃ (List.append_inj' he rfl).1

/-- Expiry ends the waits of some tasks; it moves no unit. -/
theorem expires_history (smph : SemaphoreId) (ts : List Tcb) : ∀ h : List Event,
    (∀ t, takeStatus smph t (h ++ ts.map .expires) =
      if t ∈ ts then (takeStatus smph t h).expire else takeStatus smph t h) ∧
    gives_ok smph (h ++ ts.map .expires) = gives_ok smph h ∧
    takes_ok smph (h ++ ts.map .expires) = takes_ok smph h ∧
    (∀ t, waitingSince smph t (h ++ ts.map .expires) = waitingSince smph t h) ∧
    (TakeLegal smph h → TakeLegal smph (h ++ ts.map .expires)) := by
  induction ts with
  | nil => intro h; simp
  | cons u ts ih =>
    intro h
    obtain ⟨h1, h2, h3, h4, h5⟩ := ih (h ++ [.expires u])
    rw [List.append_assoc] at h1 h2 h3 h4 h5
    refine ⟨fun t => ?_, h2.trans ?_, h3.trans ?_, fun t => (h4 t).trans ?_, fun hl => h5 ?_⟩
    · refine (h1 t).trans ?_
      rw [takeStatus_concat]
      by_cases htu : u = t
      · subst htu
        cases takeStatus smph u h <;> simp [takeStep]
      · simp [takeStep, htu, Ne.symm htu]
    · rw [gives_ok_concat]; simp
    · rw [takes_ok_concat]; simp
    · rw [waitingSince_concat]; simp
    · exact takeLegal_concat.mpr ⟨hl, trivial⟩

/-- A task is added to a set of tasks. -/
theorem count_tasks_add {p q : Tcb → Bool} (hp : p t = false) (hq : q t = true)
    (ho : ∀ u, u ≠ t → q u = p u) : count_tasks q = count_tasks p + 1 := by
  unfold count_tasks
  rw [← Finset.card_insert_of_notMem (a := t) (s := Finset.univ.filter fun t => p t = true)
    (by simp [hp])]
  congr 1
  ext u
  by_cases hu : u = t
  · subst hu; simp [hq]
  · simp [hu, ho u hu]

end History

/-! ## What the kernel says -/

/-- The semaphore the call waits for. -/
def Call.takes : Call → Option SemaphoreId
  | .semaphore_wait smph _ _ => some smph
  | _ => none

theorem Call.takes_iff {call : Call} {smph : SemaphoreId} :
    call.takes = some smph ↔ call.waits_on = some (.semaphore_blocked_list smph) := by
  cases call <;> simp [Call.takes, Call.waits_on]

theorem Call.takes_wait {call : Call} {smph : SemaphoreId} (h : call.takes = some smph) :
    ∃ timeout_ms deadline, call = .semaphore_wait smph timeout_ms deadline := by
  cases call <;> simp_all [Call.takes]

/-- Where `t` stands with `smph`, from the call it is in, its state and its wake-up reason. -/
def System.taking {L : Type} (S : System L) (smph : SemaphoreId) (t : Tcb) : TakeStatus :=
  match S.call t with
  | .semaphore_take s timeout_ms deadline => if s = smph then .trying timeout_ms deadline else .out
  | .semaphore_wait s timeout_ms deadline =>
    if s = smph then
      if S.kernel.current_state t = .BLOCKED then .waiting timeout_ms deadline
      else if S.kernel.wakeup_reason t = .RESOURCE_ACQUIRED then .handed timeout_ms deadline
      else .trying timeout_ms deadline
    else .out
  | _ => .out

section Taking

variable {S S' : System Links} {smph : SemaphoreId} {t : Tcb}

theorem taking_congr (hc : S'.call t = S.call t)
    (hb : S'.kernel.current_state t = .BLOCKED ↔ S.kernel.current_state t = .BLOCKED)
    (hr : S'.kernel.wakeup_reason t = S.kernel.wakeup_reason t) :
    S'.taking smph t = S.taking smph t := by
  unfold System.taking
  rw [hc, hr]
  simp only [hb]

/-- Only the state of a task that waits for `smph` matters. -/
theorem taking_of_takes (hc : S'.call t = S.call t) (hw : (S.call t).takes ≠ some smph) :
    S'.taking smph t = S.taking smph t := by
  unfold System.taking
  rw [hc]
  cases hk : S.call t <;> try rfl
  rename_i s timeout_ms deadline
  have hs : s ≠ smph := by rintro rfl; exact hw (by rw [hk]; rfl)
  simp [hs]

theorem taking_out (h : (S.call t).about ≠ some smph) : S.taking smph t = .out := by
  unfold System.taking
  cases hk : S.call t <;> simp_all [Call.about]

theorem taking_waiting (h : (S.taking smph t).isWaiting = true) :
    (S.call t).takes = some smph ∧ S.kernel.current_state t = .BLOCKED := by
  unfold System.taking at h
  split at h
  · split at h <;> cases h
  · rename_i s _ _ hk
    split at h
    · rename_i hs
      split at h
      · rename_i hb
        exact ⟨by rw [hk, hs]; rfl, hb⟩
      · split at h <;> cases h
    · cases h
  · cases h

theorem taking_blocked (hc : (S.call t).takes = some smph)
    (hb : S.kernel.current_state t = .BLOCKED) : (S.taking smph t).isWaiting = true := by
  obtain ⟨timeout_ms, deadline, hk⟩ := Call.takes_wait hc
  simp [System.taking, hk, hb]

end Taking

/-! ## The invariant -/

/-- The history of `smph` and the kernel's fields agree. -/
structure TakeInv (max initial : Nat) (S : System Links) (A : System Sequences)
    (smph : SemaphoreId) (h : List Event) : Prop where
  status : ∀ t, takeStatus smph t h = S.taking smph t
  /-- A wake-up reason is there for a task that has yet to read it. -/
  reason : ∀ t, S.kernel.wakeup_reason t = .RESOURCE_ACQUIRED →
    (S.call t).takes ≠ none ∧ S.kernel.current_state t ≠ .BLOCKED
  units : initial + gives_ok smph h = S.kernel.count smph + takes_ok smph h + handed_units smph h
  max_eq : S.kernel.max_count smph = max
  bound : S.kernel.count smph ≤ max
  waiting : ∀ t, (S.taking smph t).isWaiting = true → S.kernel.count smph = 0
  order : (A.kernel.lists.list (.semaphore_blocked_list smph)).Pairwise
    (fun x y => waitingSince smph x.owner h < waitingSince smph y.owner h)
  legal : TakeLegal smph h

namespace TakeInv

variable {max initial : Nat} {S S' : System Links} {A A' : System Sequences} {smph : SemaphoreId}
  {h es : List Event} {e : Event} {t : Tcb}

/-- An event of something else. -/
theorem event (hi : TakeInv max initial S A smph h) (he : e.concerns smph = false) :
    TakeInv max initial S A smph (h ++ [e]) := by
  have hst : ∀ t, takeStatus smph t (h ++ [e]) = takeStatus smph t h := fun t => by
    rw [takeStatus_concat, takeStep_other he]
  have hsince : ∀ t, waitingSince smph t (h ++ [e]) = waitingSince smph t h := fun t => by
    rw [waitingSince_concat, if_neg]
    rintro rfl; simp [Event.concerns] at he
  have hg : gives_ok smph (h ++ [e]) = gives_ok smph h := by
    rw [gives_ok_concat, if_neg, Nat.add_zero]
    rintro rfl; simp [Event.concerns] at he
  have htk : takes_ok smph (h ++ [e]) = takes_ok smph h := by
    rw [takes_ok_concat]
    cases e <;> simp_all [Event.concerns]
  refine ⟨fun t => (hst t).trans (hi.status t), hi.reason, ?_, hi.max_eq, hi.bound, hi.waiting, ?_, ?_⟩
  · simp only [hg, htk, handed_units, hst]; exact hi.units
  · simp only [hsince]; exact hi.order
  · refine takeLegal_concat.mpr ⟨hi.legal, ?_⟩
    cases e <;> first | trivial | (intro hs; simp [Event.concerns, hs] at he)

theorem events : ∀ (es : List Event) {h : List Event}, TakeInv max initial S A smph h →
    (∀ e ∈ es, e.concerns smph = false) → TakeInv max initial S A smph (h ++ es) := by
  intro es
  induction es with
  | nil => intro h hi _; simpa using hi
  | cons e es ih =>
    intro h hi he
    have := ih (hi.event (he e (by simp))) (fun e' he' => he e' (by simp [he']))
    rwa [List.append_assoc] at this

/-- A step that does not concern the semaphore. -/
theorem frame (hi : TakeInv max initial S A smph h)
    (hc : S'.kernel.count smph = S.kernel.count smph)
    (hm : S'.kernel.max_count smph = S.kernel.max_count smph)
    (ht : ∀ t, S'.taking smph t = S.taking smph t)
    (hr : ∀ t, S'.kernel.wakeup_reason t = .RESOURCE_ACQUIRED →
      (S'.call t).takes ≠ none ∧ S'.kernel.current_state t ≠ .BLOCKED)
    (hs : Shrinks (.semaphore_blocked_list smph) A.kernel A'.kernel)
    (hn : ∀ e ∈ es, e.concerns smph = false) : TakeInv max initial S' A' smph (h ++ es) := by
  refine events es ⟨fun t => (hi.status t).trans (ht t).symm, hr, ?_, hm.trans hi.max_eq, ?_,
    fun t hw => ?_, hi.order.sublist hs, hi.legal⟩ hn
  · rw [hc]; exact hi.units
  · rw [hc]; exact hi.bound
  · rw [hc]; rw [ht] at hw; exact hi.waiting t hw

/-- The waiting tasks are the wait list. -/
theorem mem_iff (hi : TakeInv max initial S A smph h) (hs : SSim S A grounded) :
    .event_list_item t ∈ A.kernel.lists.list (.semaphore_blocked_list smph) ↔
      (takeStatus smph t h).isWaiting = true := by
  rw [hi.status]
  constructor
  · intro hm
    obtain ⟨-, -, hb, -, hw⟩ := hs.kernel.wait_mem rfl (grounded_entered _) hm
    exact taking_blocked (Call.takes_iff.mpr hw) hb
  · intro hw
    obtain ⟨hk, hb⟩ := taking_waiting hw
    have hc : S.kernel.created t = true := by
      by_contra hc
      rw [hs.kernel.tasks.fresh t (by simpa using hc)] at hk; cases hk
    rw [hs.kernel.linked.mem_event, eventHome, hc, hb]
    exact ⟨by simp [grounded], Call.takes_iff.mp hk⟩

theorem boot {max_count initial_count : SemaphoreId → Nat}
    (hle : initial_count smph ≤ max_count smph) :
    TakeInv (max_count smph) (initial_count smph) (boot max_count initial_count)
      (bootSeqs max_count initial_count) smph [] := by
  refine ⟨fun t => rfl, (fun t ht => by cases ht), ?_, rfl, hle, (fun t ht => by cases ht),
    List.Pairwise.nil, fun h₁ e h₂ he => ?_⟩
  · have : handed_units smph [] = 0 := by simp [handed_units, count_tasks, takeStatus]
    simp [this, gives_ok, takes_ok, Rpitos.boot, System.boot, Kernel.boot]
  · simp at he

/-! ## Gives -/

theorem give_other {s : SemaphoreId} (hi : TakeInv max initial S A smph h)
    (hs : SSim S A grounded) (hne : s ≠ smph) :
    TakeInv max initial (S.give s).2 (A.give s).2 smph (h ++ (S.give s).1) := by
  have hsh : Shrinks (.semaphore_blocked_list smph) A.kernel (A.give s).2.kernel :=
    Shrinks.semaphore_give rfl A.kernel s
  unfold System.give at hsh ⊢
  dsimp only at hsh ⊢
  obtain ⟨w, xs, lists, hl, he⟩ | ⟨-, -, he⟩ | ⟨-, -, he⟩ := semaphore_give_effect hs.kernel s
  · rw [he]
    have hw : (S.call w).takes = some s := Call.takes_iff.mpr
      (hs.kernel.wait_mem rfl (grounded_entered _) (x := .event_list_item w) (by rw [hl]; simp)).2.2.2.2
    refine hi.frame rfl rfl (fun u => ?_) (fun u hu => ?_) hsh ?_
    · by_cases huw : u = w
      · subst huw
        exact taking_of_takes rfl (by rw [hw]; simpa using hne)
      · exact taking_congr rfl (by simp [huw]) (by simp [huw])
    · by_cases huw : u = w
      · subst huw; simp [hw]
      · simpa [huw] using hi.reason u (by simpa [huw] using hu)
    · intro e he
      simp only [List.singleton_append, List.mem_cons, List.not_mem_nil, or_false] at he
      rcases he with rfl | rfl <;> simp [Event.concerns, hne]
  · rw [he]
    refine hi.frame (by simp [Ne.symm hne]) rfl (fun u => rfl) hi.reason hsh ?_
    intro e he; simp at he; subst he; simp [Event.concerns, hne]
  · rw [he]
    refine hi.frame rfl rfl (fun u => rfl) hi.reason hsh ?_
    intro e he; simp at he; subst he; simp [Event.concerns, hne]

/-- A give without waiters. -/
theorem give_counts (hi : TakeInv max initial S A smph h) (hs : SSim S A grounded)
    (hl : A.kernel.lists.list (.semaphore_blocked_list smph) = [])
    (hc : S.kernel.count smph < S.kernel.max_count smph) {A' : System Sequences}
    (hsh : Shrinks (.semaphore_blocked_list smph) A.kernel A'.kernel) :
    TakeInv max initial (S.withKernel { S.kernel with
      count := update S.kernel.count smph (S.kernel.count smph + 1) }) A' smph
      (h ++ [.give_returns smph E_OK]) := by
  have hst : ∀ t, takeStatus smph t (h ++ [.give_returns smph E_OK]) = takeStatus smph t h :=
    fun t => by rw [takeStatus_concat]; rfl
  have hnil : A'.kernel.lists.list (.semaphore_blocked_list smph) = [] := by
    rw [← List.sublist_nil, ← hl]; exact hsh
  refine ⟨fun t => (hst t).trans (hi.status t), hi.reason, ?_, hi.max_eq, ?_, fun t hw => ?_, ?_, ?_⟩
  · have := hi.units
    simp only [gives_ok_concat, takes_ok_concat, handed_units, hst, System.withKernel_kernel,
      update_self, if_true] at this ⊢
    omega
  · have := hi.max_eq
    simp only [System.withKernel_kernel, update_self]; omega
  · have hm := (hi.mem_iff hs).mpr ((congrArg TakeStatus.isWaiting (hi.status t)).trans hw)
    rw [hl] at hm; cases hm
  · rw [hnil]; exact .nil
  · exact takeLegal_concat.mpr ⟨hi.legal, trivial⟩

/-- A give that wakes the first waiter. -/
theorem give_wakes {w : Tcb} {xs : List ItemRef} (hi : TakeInv max initial S A smph h)
    (hs : SSim S A grounded)
    (hl : A.kernel.lists.list (.semaphore_blocked_list smph) = .event_list_item w :: xs)
    (hcall : S'.call = S.call) (hcount : S'.kernel.count = S.kernel.count)
    (hmax : S'.kernel.max_count = S.kernel.max_count)
    (hreason : S'.kernel.wakeup_reason = update S.kernel.wakeup_reason w .RESOURCE_ACQUIRED)
    (hstate : S'.kernel.current_state = update S.kernel.current_state w .READY)
    (hsh : Shrinks (.semaphore_blocked_list smph) A.kernel A'.kernel) :
    TakeInv max initial S' A' smph (h ++ [.take_handed w smph, .give_returns smph E_OK]) := by
  have hm := (hi.mem_iff hs (t := w)).mp (by rw [hl]; simp)
  rw [hi.status] at hm
  obtain ⟨hk, hb⟩ := taking_waiting hm
  obtain ⟨timeout_ms, deadline, hk⟩ := Call.takes_wait hk
  have hw : takeStatus smph w h = .waiting timeout_ms deadline := by
    rw [hi.status, System.taking, hk]; simp [hb]
  have hst : ∀ t, takeStatus smph t (h ++ [.take_handed w smph, .give_returns smph E_OK]) =
      if t = w then .handed timeout_ms deadline else takeStatus smph t h := fun t => by
    rw [List.append_cons, takeStatus_concat, takeStatus_concat]
    by_cases ht : t = w
    · subst ht; simp [takeStep, hw]
    · simp [takeStep, ht, Ne.symm ht]
  have hsince : ∀ t, waitingSince smph t (h ++ [.take_handed w smph, .give_returns smph E_OK]) =
      waitingSince smph t h := fun t => by
    rw [List.append_cons, waitingSince_concat, waitingSince_concat]; simp
  have hunits : handed_units smph (h ++ [.take_handed w smph, .give_returns smph E_OK]) =
      handed_units smph h + 1 :=
    count_tasks_add (t := w) (by simp [hw]) (by simp [hst]) (fun u hu => by simp [hst, hu])
  have hother : ∀ t, t ≠ w → S'.taking smph t = S.taking smph t := fun t ht =>
    taking_congr (congrFun hcall t) (by simp [hstate, ht]) (by simp [hreason, ht])
  have hnew : S'.taking smph w = .handed timeout_ms deadline := by
    simp [System.taking, hcall, hk, hstate, hreason]
  refine ⟨fun t => ?_, fun t ht => ?_, ?_, (congrFun hmax smph).trans hi.max_eq, ?_,
    fun t ht => ?_, ?_, ?_⟩
  · rw [hst]
    by_cases ht : t = w
    · subst ht; rw [if_pos rfl, hnew]
    · rw [if_neg ht, hi.status, hother t ht]
  · rw [hreason] at ht
    rw [hcall, hstate]
    by_cases htw : t = w
    · subst htw; simp [hk, Call.takes]
    · simpa [htw] using hi.reason t (by simpa [htw] using ht)
  · have := hi.units
    rw [hunits, List.append_cons, gives_ok_concat, gives_ok_concat, takes_ok_concat,
      takes_ok_concat, hcount]
    simp only [if_true, reduceCtorEq, if_false]
    omega
  · rw [hcount]; exact hi.bound
  · rw [hcount]
    by_cases htw : t = w
    · subst htw; rw [hnew] at ht; cases ht
    · rw [hother t htw] at ht; exact hi.waiting t ht
  · simp only [hsince]; exact hi.order.sublist hsh
  · rw [List.append_cons]
    refine takeLegal_concat.mpr ⟨takeLegal_concat.mpr ⟨hi.legal, fun _ => ⟨by simp [hw], ?_⟩⟩, trivial⟩
    intro u hu
    have hm := (hi.mem_iff hs).mpr hu
    have ho := hi.order
    rw [hl] at hm ho
    rcases List.mem_cons.mp hm with e | hm
    · cases e; exact Nat.le_refl _
    · exact Nat.le_of_lt (List.rel_of_pairwise_cons ho hm)

theorem give (hi : TakeInv max initial S A smph h) (hs : SSim S A grounded) (s : SemaphoreId) :
    TakeInv max initial (S.give s).2 (A.give s).2 smph (h ++ (S.give s).1) := by
  by_cases hne : s = smph
  · subst hne
    have hsh : Shrinks (.semaphore_blocked_list s) A.kernel (A.give s).2.kernel :=
      Shrinks.semaphore_give rfl A.kernel s
    rw [System.give.eq_1 S]
    obtain ⟨w, xs, lists, hl, he⟩ | ⟨hl, hc, he⟩ | ⟨hl, hc, he⟩ :=
      semaphore_give_effect hs.kernel s
    · rw [he]; exact hi.give_wakes hs hl rfl rfl rfl rfl rfl hsh
    · rw [he]; exact hi.give_counts hs hl hc hsh
    · rw [he]
      refine hi.frame rfl rfl (fun _ => rfl) hi.reason hsh ?_
      intro e he; simp at he; subst he; simp [Event.concerns]
  · exact hi.give_other hs hne

theorem gives : ∀ (smphs : List SemaphoreId) {S : System Links} {A : System Sequences}
    {h : List Event}, TakeInv max initial S A smph h → SSim S A grounded →
      TakeInv max initial (S.gives smphs).2 (A.gives smphs).2 smph (h ++ (S.gives smphs).1) := by
  intro smphs
  induction smphs with
  | nil => intro S A h hi _; simpa [System.gives] using hi
  | cons s rest ih =>
    intro S A h hi hs
    have := ih (hi.give hs s) (hs.give s (grounded_entered _)).2
    rwa [List.append_assoc] at this

/-! ## Ticks -/

theorem timer_tick {c : CoreId} (hi : TakeInv max initial S A smph h) :
    TakeInv max initial (S.withKernel (timer_tick_handler S.kernel c).2)
      (A.withKernel (timer_tick_handler A.kernel c).2) smph
      (h ++ (timer_tick_handler S.kernel c).1.map .expires) := by
  have hsh : Shrinks (.semaphore_blocked_list smph) A.kernel (timer_tick_handler A.kernel c).2 :=
    Shrinks.timer_tick_handler rfl A.kernel c
  obtain ⟨lists, he⟩ := timer_tick_handler_effect S.kernel c
  generalize (timer_tick_handler S.kernel c).1 = ts at he
  obtain ⟨hst, hg, htk, hsince, hlegal⟩ := expires_history smph ts h
  -- an expired wait is a call that tries again: no unit was handed to it
  have htaking : ∀ t, (S.withKernel (timer_tick_handler S.kernel c).2).taking smph t =
      if t ∈ ts then (S.taking smph t).expire else S.taking smph t := fun t => by
    rw [he]
    by_cases ht : t ∈ ts
    · have hr := hi.reason t
      unfold System.taking
      cases hk : S.call t <;> simp [hk, ht]
      · split <;> rfl
      · split
        · by_cases hb : S.kernel.current_state t = .BLOCKED
          · have hn : ¬ S.kernel.wakeup_reason t = .RESOURCE_ACQUIRED := fun e => (hr e).2 hb
            simp [hb, hn]
          · by_cases hn : S.kernel.wakeup_reason t = .RESOURCE_ACQUIRED <;> simp [hb, hn]
        · rfl
    · rw [if_neg ht]; exact taking_congr (S := S) rfl (by simp [ht]) rfl
  refine ⟨fun t => ?_, fun t ht => ?_, ?_, ?_, ?_, fun t ht => ?_, ?_, hlegal hi.legal⟩
  · rw [hst, htaking, hi.status]
  · rw [he] at ht ⊢
    obtain ⟨h1, h2⟩ := hi.reason t ht
    refine ⟨h1, ?_⟩
    by_cases hm : t ∈ ts
    · simp [hm]
    · simpa [hm] using h2
  · have hu : handed_units smph (h ++ ts.map .expires) = handed_units smph h := by
      unfold handed_units
      congr 1
      funext t
      rw [hst]
      split
      · cases takeStatus smph t h <;> rfl
      · rfl
    rw [hg, htk, hu, he]; exact hi.units
  · rw [he]; exact hi.max_eq
  · rw [he]; exact hi.bound
  · rw [htaking] at ht
    rw [he]
    split at ht
    · exfalso; revert ht; cases S.taking smph t <;> simp
    · exact hi.waiting t ht
  · simp only [hsince]; exact hi.order.sublist hsh

theorem switch_context (hi : TakeInv max initial S A smph h) (hs : SSim S A grounded)
    (c : CoreId) :
    TakeInv max initial (S.withKernel (scheduler_switch_context S.kernel c))
      (A.withKernel (scheduler_switch_context A.kernel c)) smph h := by
  obtain ⟨lists, st, cur, hung, he, hb⟩ := switch_context_effect hs.kernel (c := c) fun _ _ => rfl
  rw [he]
  have : TakeInv max initial (S.withKernel { S.kernel with
      lists := lists, current_state := st, p_task_control_block := cur, hung := hung })
      (A.withKernel (scheduler_switch_context A.kernel c)) smph (h ++ []) := hi.frame rfl rfl
    (fun t => taking_congr rfl (hb t) rfl)
    (fun t ht => ⟨(hi.reason t ht).1, mt (hb t).mp (hi.reason t ht).2⟩)
    (Shrinks.switch_context A.kernel c) (by simp)
  rwa [List.append_nil] at this

theorem tick {c : CoreId} (hi : TakeInv max initial S A smph h) (hs : SSim S A grounded)
    (smphs : List SemaphoreId) :
    TakeInv max initial (S.tick c smphs).2 (A.tick c smphs).2 smph (h ++ (S.tick c smphs).1) := by
  have hs1 : SSim (S.withKernel (timer_tick_handler S.kernel c).2)
      (A.withKernel (timer_tick_handler A.kernel c).2) grounded :=
    ⟨hs.call, (hs.kernel.timer_tick_handler (fun u hu => absurd rfl hu)).2⟩
  have h1 := (hi.timer_tick (c := c)).gives smphs hs1
  rw [List.append_assoc] at h1
  exact h1.switch_context (hs1.gives smphs (fun _ _ => grounded_entered _)).2 c

/-! ## Takes -/

theorem trying_of_call {timeout_ms : Int} {deadline : Nat}
    (hc : S.call t = .semaphore_take smph timeout_ms deadline) :
    S.taking smph t = .trying timeout_ms deadline := by
  simp [System.taking, hc]

theorem status_returns {code : StatusCode} (u : Tcb) :
    takeStatus smph u (h ++ [.take_returns t smph code]) =
      if u = t then .out else takeStatus smph u h := by
  rw [takeStatus_concat]
  by_cases hu : u = t
  · subst hu; simp [takeStep]
  · simp [takeStep, hu, Ne.symm hu]

/-- A call returns: what is left to prove is the account of the units. -/
theorem returns {code : StatusCode} (hi : TakeInv max initial S A smph h)
    (hcall : S'.call = update S.call t .own)
    (hstate : S'.kernel.current_state = S.kernel.current_state)
    (hreason : ∀ u, u ≠ t → S'.kernel.wakeup_reason u = S.kernel.wakeup_reason u)
    (hread : S'.kernel.wakeup_reason t ≠ .RESOURCE_ACQUIRED)
    (hmax : S'.kernel.max_count = S.kernel.max_count)
    (hcount : S'.kernel.count smph ≤ S.kernel.count smph)
    (hunits : initial + gives_ok smph h = S'.kernel.count smph +
      takes_ok smph (h ++ [.take_returns t smph code]) +
      handed_units smph (h ++ [.take_returns t smph code]))
    (hwait : code = E_TIMED_OUT →
      (S.taking smph t).isWaiting = false ∧ (S.taking smph t).isHanded = false)
    (hsh : Shrinks (.semaphore_blocked_list smph) A.kernel A'.kernel) :
    TakeInv max initial S' A' smph (h ++ [.take_returns t smph code]) := by
  have hother : ∀ u, u ≠ t → S'.taking smph u = S.taking smph u := fun u hu =>
    taking_congr (by simp [hcall, hu]) (by rw [hstate]) (hreason u hu)
  have hout : S'.taking smph t = .out := taking_out (by simp [hcall, Call.about])
  refine ⟨fun u => ?_, fun u hu => ?_, ?_, (congrFun hmax smph).trans hi.max_eq,
    Nat.le_trans hcount hi.bound, fun u hu => ?_, ?_, ?_⟩
  · rw [status_returns]
    by_cases hut : u = t
    · rw [if_pos hut, hut, hout]
    · rw [if_neg hut, hi.status, hother u hut]
  · have hut : u ≠ t := by rintro rfl; exact hread hu
    rw [hreason u hut] at hu
    simpa [hcall, hut, hstate] using hi.reason u hu
  · rw [gives_ok_concat]; simpa using hunits
  · have hut : u ≠ t := by rintro rfl; rw [hout] at hu; cases hu
    rw [hother u hut] at hu
    have := hi.waiting u hu
    omega
  · have hsince : ∀ u, waitingSince smph u (h ++ [.take_returns t smph code]) =
        waitingSince smph u h := fun u => by rw [waitingSince_concat]; simp
    simp only [hsince]; exact hi.order.sublist hsh
  · refine takeLegal_concat.mpr ⟨hi.legal, fun _ hcode => ?_⟩
    rw [hi.status]; exact hwait hcode

/-- The caller starts to wait. -/
theorem waits {timeout_ms : Int} {deadline : Nat} (hi : TakeInv max initial S A smph h)
    (hs : SSim S A grounded) (hc : S.call t = .semaphore_take smph timeout_ms deadline)
    (hcall : S'.call = update S.call t (.semaphore_wait smph timeout_ms deadline))
    (hstate : S'.kernel.current_state = update S.kernel.current_state t .BLOCKED)
    (hreason : S'.kernel.wakeup_reason = S.kernel.wakeup_reason)
    (hmax : S'.kernel.max_count = S.kernel.max_count) (hcount : S'.kernel.count = S.kernel.count)
    (hz : S.kernel.count smph = 0)
    (hsh : List.Sublist (A'.kernel.lists.list (.semaphore_blocked_list smph))
      (A.kernel.lists.list (.semaphore_blocked_list smph) ++ [.event_list_item t])) :
    TakeInv max initial S' A' smph (h ++ [.take_waits t smph]) := by
  have htry : S.taking smph t = .trying timeout_ms deadline := trying_of_call hc
  have hother : ∀ u, u ≠ t → S'.taking smph u = S.taking smph u := fun u hu =>
    taking_congr (by simp [hcall, hu]) (by simp [hstate, hu]) (by rw [hreason])
  have hnew : S'.taking smph t = .waiting timeout_ms deadline := by
    simp [System.taking, hcall, hstate]
  have hst : ∀ u, takeStatus smph u (h ++ [.take_waits t smph]) =
      if u = t then .waiting timeout_ms deadline else takeStatus smph u h := fun u => by
    rw [takeStatus_concat]
    by_cases hu : u = t
    · subst hu; simp [takeStep, hi.status, htry]
    · simp [takeStep, hu, Ne.symm hu]
  refine ⟨fun u => ?_, fun u hu => ?_, ?_, (congrFun hmax smph).trans hi.max_eq, ?_,
    fun u hu => ?_, ?_, ?_⟩
  · rw [hst]
    by_cases hut : u = t
    · rw [if_pos hut, hut, hnew]
    · rw [if_neg hut, hi.status, hother u hut]
  · rw [hreason] at hu
    have hr := hi.reason u hu
    have hut : u ≠ t := by rintro rfl; exact hr.1 (by rw [hc]; rfl)
    simpa [hcall, hstate, hut] using hr
  · have hu : handed_units smph (h ++ [.take_waits t smph]) = handed_units smph h := by
      unfold handed_units
      congr 1
      funext u
      rw [hst]
      by_cases hut : u = t
      · rw [if_pos hut, hut, hi.status, htry]; rfl
      · rw [if_neg hut]
    have := hi.units
    rw [hu, gives_ok_concat, takes_ok_concat, hcount]
    simpa using this
  · rw [hcount]; exact hi.bound
  · rw [hcount]; exact hz
  · -- `t` was in no wait list, so it is last, and the youngest
    have hmem : .event_list_item t ∉ A.kernel.lists.list (.semaphore_blocked_list smph) := by
      rw [hi.mem_iff hs, hi.status, htry]; simp
    have hsince : ∀ x ∈ A.kernel.lists.list (.semaphore_blocked_list smph),
        waitingSince smph x.owner (h ++ [.take_waits t smph]) = waitingSince smph x.owner h := by
      intro x hx
      rw [waitingSince_concat, if_neg]
      intro e
      have hxt : x.owner = t := by simpa using (Event.take_waits.inj e).1.symm
      have hx' : x = .event_list_item x.owner := (hs.kernel.wait_mem rfl (grounded_entered _) hx).1
      rw [hx', hxt] at hx
      exact hmem hx
    refine List.Pairwise.sublist hsh (List.pairwise_append.mpr ⟨?_, List.pairwise_singleton _ _, ?_⟩)
    · exact hi.order.imp_of_mem fun hx hy hlt => by rw [hsince _ hx, hsince _ hy]; exact hlt
    · intro x hx y hy
      rw [List.mem_singleton] at hy
      subst hy
      have ht : waitingSince smph t (h ++ [.take_waits t smph]) = h.length + 1 := by
        rw [waitingSince_concat, if_pos rfl]
      show _ < waitingSince smph t _
      rw [hsince x hx, ht]
      exact Nat.lt_succ_of_le waitingSince_le
  · exact takeLegal_concat.mpr ⟨hi.legal, trivial⟩

theorem take_kernel {L : Type} [ListOps L ItemRef ListRef] (S : System L) (t : Tcb)
    (smph : SemaphoreId) (timeout_ms : Int) (deadline : Nat) :
    (S.take t smph timeout_ms deadline).2.kernel =
      (semaphore_take S.kernel smph t timeout_ms deadline).2 := by
  unfold System.take
  rcases semaphore_take S.kernel smph t timeout_ms deadline with ⟨_ | code, K⟩ <;> rfl

/-- The first section of a round of `semaphore_take`. -/
theorem take_same {timeout_ms : Int} {deadline : Nat} (hi : TakeInv max initial S A smph h)
    (hs : SSim S A grounded) (hr : S.kernel.runs t = true)
    (hc : S.call t = .semaphore_take smph timeout_ms deadline) :
    TakeInv max initial (S.take t smph timeout_ms deadline).2 (A.take t smph timeout_ms deadline).2
      smph (h ++ (S.take t smph timeout_ms deadline).1) := by
  obtain ⟨hcr, hnb, hta⟩ := hs.running hr
  have hread : S.kernel.wakeup_reason t ≠ .RESOURCE_ACQUIRED := fun e =>
    (hi.reason t e).1 (by rw [hc]; rfl)
  have htry := trying_of_call hc
  have hout : ∀ code, handed_units smph (h ++ [.take_returns t smph code]) =
      handed_units smph h := fun code => by
    unfold handed_units
    congr 1
    funext u
    rw [status_returns]
    by_cases hut : u = t
    · rw [if_pos hut, hut, hi.status, htry]; rfl
    · rw [if_neg hut]
  have hret : ∀ code, takes_ok smph (h ++ [.take_returns t smph code]) =
      takes_ok smph h + if code = E_OK then 1 else 0 := fun code => by
    rw [takes_ok_concat]; simp
  have hunits := hi.units
  -- the wait list on the other side
  have hsh := Shrinks.semaphore_take (l := .semaphore_blocked_list smph) rfl A.kernel smph t
    timeout_ms deadline
  rw [← take_kernel, ← (hs.kernel.semaphore_take smph timeout_ms deadline hcr hnb hta rfl).1] at hsh
  generalize (A.take t smph timeout_ms deadline).2 = A' at hsh ⊢
  unfold System.take
  obtain ⟨hpos, he⟩ | ⟨-, -, he⟩ | ⟨hz, -, -, lists, wake, he⟩ :=
    semaphore_take_effect S.kernel smph t timeout_ms deadline
  · rw [he] at hsh ⊢
    refine hi.returns rfl rfl (fun _ _ => rfl) hread rfl ?_ ?_ (fun e => by cases e)
      (by simpa [Shrinks] using hsh)
    · simp
    · rw [hout, hret]
      simp only [System.setCall_kernel, System.withKernel_kernel, update_self, if_true]
      omega
  · rw [he] at hsh ⊢
    refine hi.returns rfl rfl (fun _ _ => rfl) hread rfl (Nat.le_refl _) ?_
      (fun _ => by rw [htry]; exact ⟨rfl, rfl⟩) (by simpa [Shrinks] using hsh)
    rw [hout, hret]; simpa using hunits
  · rw [he] at hsh ⊢
    exact hi.waits hs hc rfl rfl rfl rfl rfl hz (by simpa using hsh)

theorem takeWake_kernel {L : Type} [ListOps L ItemRef ListRef] (S : System L) (t : Tcb)
    (smph : SemaphoreId) (timeout_ms : Int) (deadline : Nat) :
    (S.takeWake t smph timeout_ms deadline).2.kernel.lists = S.kernel.lists := by
  unfold System.takeWake semaphore_take_wake
  by_cases hw : S.kernel.wakeup_reason t = .RESOURCE_ACQUIRED
  · rw [if_pos hw]; rfl
  · rw [if_neg hw]; rfl

/-- The second section of a round of `semaphore_take`. -/
theorem takeWake_same {timeout_ms : Int} {deadline : Nat} (hi : TakeInv max initial S A smph h)
    (hnb : S.kernel.current_state t ≠ .BLOCKED)
    (hc : S.call t = .semaphore_wait smph timeout_ms deadline) :
    TakeInv max initial (S.takeWake t smph timeout_ms deadline).2
      (A.takeWake t smph timeout_ms deadline).2
      smph (h ++ (S.takeWake t smph timeout_ms deadline).1) := by
  have hsh : Shrinks (.semaphore_blocked_list smph) A.kernel
      (A.takeWake t smph timeout_ms deadline).2.kernel :=
    Shrinks.same (by rw [takeWake_kernel])
  generalize (A.takeWake t smph timeout_ms deadline).2 = A' at hsh ⊢
  unfold System.takeWake semaphore_take_wake
  by_cases hw : S.kernel.wakeup_reason t = .RESOURCE_ACQUIRED
  · rw [if_pos hw]
    have hhand : takeStatus smph t h = .handed timeout_ms deadline := by
      simp [hi.status, System.taking, hc, hnb, hw]
    have hunit : handed_units smph h =
        handed_units smph (h ++ [.take_returns t smph E_OK]) + 1 := by
      refine count_tasks_add (t := t) ?_ ?_ (fun u hu => ?_)
      · simp [status_returns]
      · simp [hhand]
      · simp [status_returns, hu]
    have hunits := hi.units
    refine hi.returns rfl rfl (fun u hu => by simp [hu]) (by simp) rfl (Nat.le_refl _) ?_
      (fun e => by cases e) hsh
    rw [takes_ok_concat]
    simp only [System.setCall_kernel, System.withKernel_kernel, and_self, if_true]
    omega
  · rw [if_neg hw]
    refine hi.frame rfl rfl (fun u => ?_) (fun u hu => ?_) hsh (by simp)
    · by_cases hut : u = t
      · subst hut; simp [System.taking, hc, hnb, hw]
      · exact taking_congr (by simp [hut]) Iff.rfl rfl
    · have hut : u ≠ t := by rintro rfl; exact hw hu
      simpa [hut] using hi.reason u hu

/-! ## The other calls -/

theorem other_call {K : Kernel Links} {k : Call} (hi : TakeInv max initial S A smph h)
    (hcount : K.count = S.kernel.count) (hmax : K.max_count = S.kernel.max_count)
    (hc : (S.call t).about ≠ some smph) (hk : k.about ≠ some smph)
    (hst : ∀ u, u ≠ t → K.current_state u = S.kernel.current_state u)
    (hreason : ∀ u, u ≠ t → K.wakeup_reason u = S.kernel.wakeup_reason u)
    (hread : K.wakeup_reason t ≠ .RESOURCE_ACQUIRED)
    (hsh : Shrinks (.semaphore_blocked_list smph) A.kernel A'.kernel)
    (hn : ∀ e ∈ es, e.concerns smph = false) :
    TakeInv max initial ((S.withKernel K).setCall t k) A' smph (h ++ es) := by
  refine hi.frame (congrFun hcount smph) (congrFun hmax smph) (fun u => ?_) (fun u hu => ?_) hsh hn
  · by_cases hut : u = t
    · subst hut
      rw [taking_out hc, taking_out (by simpa using hk)]
    · exact taking_congr (by simp [hut]) (by simp [hst u hut]) (hreason u hut)
  · have hut : u ≠ t := by rintro rfl; exact hread hu
    have hr := hi.reason u ((hreason u hut).symm.trans hu)
    simpa [hut, hst u hut] using hr

/-- A task in no `semaphore_wait` has no wake-up reason. -/
theorem no_reason (hi : TakeInv max initial S A smph h) (hc : (S.call t).takes = none) :
    S.kernel.wakeup_reason t ≠ .RESOURCE_ACQUIRED := fun e => (hi.reason t e).1 hc

theorem take_other {s : SemaphoreId} {timeout_ms : Int} {deadline : Nat}
    (hi : TakeInv max initial S A smph h) (hne : s ≠ smph)
    (hc : S.call t = .semaphore_take s timeout_ms deadline) :
    TakeInv max initial (S.take t s timeout_ms deadline).2 (A.take t s timeout_ms deadline).2
      smph (h ++ (S.take t s timeout_ms deadline).1) := by
  have hsh : Shrinks (.semaphore_blocked_list smph) A.kernel
      (A.take t s timeout_ms deadline).2.kernel := by
    have := Shrinks.semaphore_take (l := .semaphore_blocked_list smph) rfl A.kernel s t
      timeout_ms deadline
    rw [take_kernel]
    simpa [Shrinks, Ne.symm hne] using this
  have hread := hi.no_reason (t := t) (by rw [hc]; rfl)
  have hab : (S.call t).about ≠ some smph := by simp [hc, Call.about, hne]
  generalize (A.take t s timeout_ms deadline).2 = A' at hsh ⊢
  unfold System.take
  obtain ⟨-, he⟩ | ⟨-, -, he⟩ | ⟨-, -, -, lists, wake, he⟩ :=
    semaphore_take_effect S.kernel s t timeout_ms deadline
  · rw [he]
    refine hi.frame (by simp [Ne.symm hne]) rfl (fun u => ?_) (fun u hu => ?_) hsh ?_
    · by_cases hut : u = t
      · subst hut; rw [taking_out hab, taking_out (by simp [Call.about])]
      · exact taking_congr (by simp [hut]) Iff.rfl rfl
    · have hut : u ≠ t := by rintro rfl; exact hread hu
      simpa [hut] using hi.reason u hu
    · intro e he; simp at he; subst he; simp [Event.concerns, hne]
  · rw [he]
    refine hi.other_call rfl rfl hab (by simp [Call.about]) (fun _ _ => rfl) (fun _ _ => rfl) hread
      hsh ?_
    intro e he; simp at he; subst he; simp [Event.concerns, hne]
  · rw [he]
    refine hi.other_call rfl rfl hab (by simp [Call.about, hne]) (fun u hu => by simp [hu])
      (fun _ _ => rfl) hread hsh ?_
    intro e he; simp at he; subst he; simp [Event.concerns, hne]

theorem takeWake_other {s : SemaphoreId} {timeout_ms : Int} {deadline : Nat}
    (hi : TakeInv max initial S A smph h) (hne : s ≠ smph)
    (hc : S.call t = .semaphore_wait s timeout_ms deadline) :
    TakeInv max initial (S.takeWake t s timeout_ms deadline).2
      (A.takeWake t s timeout_ms deadline).2
      smph (h ++ (S.takeWake t s timeout_ms deadline).1) := by
  have hsh : Shrinks (.semaphore_blocked_list smph) A.kernel
      (A.takeWake t s timeout_ms deadline).2.kernel := Shrinks.same (by rw [takeWake_kernel])
  have hab : (S.call t).about ≠ some smph := by simp [hc, Call.about, hne]
  generalize (A.takeWake t s timeout_ms deadline).2 = A' at hsh ⊢
  unfold System.takeWake semaphore_take_wake
  by_cases hw : S.kernel.wakeup_reason t = .RESOURCE_ACQUIRED
  · rw [if_pos hw]
    refine hi.other_call rfl rfl hab (by simp [Call.about]) (fun _ _ => rfl)
      (fun u hu => by simp [hu]) (by simp) hsh ?_
    intro e he; simp at he; subst he; simp [Event.concerns, hne]
  · rw [if_neg hw]
    exact hi.other_call rfl rfl hab (by simp [Call.about, hne]) (fun _ _ => rfl)
      (fun _ _ => rfl) hw hsh (by simp)

theorem lock_kernel {L : Type} [ListOps L ItemRef ListRef] (S : System L) (t : Tcb)
    (mtx : MutexId) (timeout_ms : Int) :
    (S.lock t mtx timeout_ms).2.kernel = (mutex_lock S.kernel mtx t timeout_ms).2 := by
  unfold System.lock
  rcases mutex_lock S.kernel mtx t timeout_ms with ⟨_ | code, K⟩ <;> rfl

theorem lock {mtx : MutexId} {timeout_ms : Int} (hi : TakeInv max initial S A smph h)
    (ho : S.call t = .own) :
    TakeInv max initial (S.lock t mtx timeout_ms).2 (A.lock t mtx timeout_ms).2 smph
      (h ++ (S.lock t mtx timeout_ms).1) := by
  have hsh : Shrinks (.semaphore_blocked_list smph) A.kernel
      (A.lock t mtx timeout_ms).2.kernel := by
    rw [lock_kernel]; exact Shrinks.mutex_lock rfl A.kernel mtx t timeout_ms (by simp)
  generalize (A.lock t mtx timeout_ms).2 = A' at hsh ⊢
  unfold System.lock
  obtain ⟨-, held, he⟩ | ⟨-, -, he⟩ | ⟨-, -, lists, wake, prio, inh, he⟩ :=
    mutex_lock_effect S.kernel mtx t timeout_ms
  · rw [he]
    exact hi.frame rfl rfl (fun _ => rfl) hi.reason hsh (by simp [Event.concerns])
  · rw [he]
    exact hi.frame rfl rfl (fun _ => rfl) hi.reason hsh (by simp [Event.concerns])
  · rw [he]
    exact hi.other_call rfl rfl (by simp [ho, Call.about]) (by simp [Call.about])
      (fun u hu => by simp [hu]) (fun _ _ => rfl) (hi.no_reason (by rw [ho]; rfl)) hsh
      (by simp [Event.concerns])

theorem unlock {mtx : MutexId} (hi : TakeInv max initial S A smph h) (hs : SSim S A grounded) :
    TakeInv max initial (S.unlock t mtx).2 (A.unlock t mtx).2 smph
      (h ++ (S.unlock t mtx).1) := by
  have hsh : Shrinks (.semaphore_blocked_list smph) A.kernel (A.unlock t mtx).2.kernel :=
    Shrinks.mutex_unlock rfl A.kernel mtx
  generalize (A.unlock t mtx).2 = A' at hsh ⊢
  unfold System.unlock
  dsimp only
  by_cases hl : S.kernel.mutex_state mtx = .LOCKED
  case neg =>
    rw [mutex_unlock, if_neg hl]
    exact hi.frame rfl rfl (fun _ => rfl) hi.reason hsh (by simp [Event.concerns])
  obtain ⟨-, lists, prio, held, inh, he⟩ | ⟨w, lists, prio, held, inh, hw, he⟩ :=
    mutex_unlock_effect hs.kernel hl
  · rw [he]
    exact hi.frame rfl rfl (fun _ => rfl) hi.reason hsh (by simp [Event.concerns])
  · rw [he]
    have hk : (S.call w).waits_on = some (.mutex_blocked_list mtx) :=
      (hs.kernel.wait_mem rfl (grounded_entered _) hw).2.2.2.2
    have hkt : (S.call w).takes = none := by
      cases hc : S.call w <;> simp_all [Call.takes, Call.waits_on]
    refine hi.frame rfl rfl (fun u => ?_) (fun u hu => ?_) hsh (by simp [Event.concerns])
    · by_cases huw : u = w
      · subst huw; exact taking_of_takes rfl (by simp [hkt])
      · exact taking_congr rfl (by simp [huw]) rfl
    · have huw : u ≠ w := by rintro rfl; exact hi.no_reason hkt hu
      simpa [huw] using hi.reason u hu

/-- The next section of a call. -/
theorem proceed {r : List Event × System Links} {r' : List Event × System Sequences}
    (hi : TakeInv max initial S A smph h) (hs : SSim S A grounded) (hr : S.kernel.runs t = true)
    (hp : S.proceed t = some r) (hp' : A.proceed t = some r') :
    TakeInv max initial r.2 r'.2 smph (h ++ r.1) := by
  have hnb := (hs.running hr).2.1
  unfold System.proceed at hp hp'
  rw [hs.call] at hp'
  cases hc : S.call t with
  | own => rw [hc] at hp; cases hp
  | block_until w =>
    rw [hc] at hp hp'; cases hp; cases hp'
    obtain ⟨lists, he⟩ := block_until_effect S.kernel t w
    rw [he]
    exact hi.other_call rfl rfl (by simp [hc, Call.about]) (by simp [Call.about])
      (fun u hu => by simp [hu]) (fun _ _ => rfl) (hi.no_reason (by rw [hc]; rfl))
      (Shrinks.block_until rfl A.kernel t w) (by simp)
  | delayed =>
    rw [hc] at hp hp'; cases hp; cases hp'
    exact hi.other_call (K := S.kernel) rfl rfl (by simp [hc, Call.about]) (by simp [Call.about])
      (fun _ _ => rfl) (fun _ _ => rfl) (hi.no_reason (by rw [hc]; rfl)) (Shrinks.same rfl)
      (by simp)
  | mutex_lock m timeout_ms =>
    rw [hc] at hp hp'; cases hp; cases hp'
    exact hi.other_call (K := S.kernel) rfl rfl (by simp [hc, Call.about]) (by simp [Call.about])
      (fun _ _ => rfl) (fun _ _ => rfl) (hi.no_reason (by rw [hc]; rfl)) (Shrinks.same rfl)
      (by simp [Event.concerns])
  | semaphore_take s timeout_ms deadline =>
    rw [hc] at hp hp'; cases hp; cases hp'
    by_cases hne : s = smph
    · subst hne; exact hi.take_same hs hr hc
    · exact hi.take_other hne hc
  | semaphore_wait s timeout_ms deadline =>
    rw [hc] at hp hp'; cases hp; cases hp'
    by_cases hne : s = smph
    · subst hne; exact hi.takeWake_same hnb hc
    · exact hi.takeWake_other hne hc

/-- A new task, or a core's idle task, is in no call. -/
theorem new_task {K : Kernel Links} (hi : TakeInv max initial S A smph h) (ho : S.call t = .own)
    (hcount : K.count = S.kernel.count) (hmax : K.max_count = S.kernel.max_count)
    (hreason : K.wakeup_reason = update S.kernel.wakeup_reason t .NONE)
    (hstate : K.current_state = update S.kernel.current_state t .READY)
    (hsh : Shrinks (.semaphore_blocked_list smph) A.kernel A'.kernel) :
    TakeInv max initial (S.withKernel K) A' smph (h ++ []) := by
  refine hi.frame (congrFun hcount smph) (congrFun hmax smph) (fun u => ?_) (fun u hu => ?_) hsh
    (by simp)
  · by_cases hut : u = t
    · subst hut
      exact taking_of_takes rfl (by simp [ho, Call.takes])
    · exact taking_congr rfl (by simp [hstate, hut]) (by simp [hreason, hut])
  · have hut : u ≠ t := by rintro rfl; simp [hreason] at hu
    simpa [hstate, hut] using hi.reason u (by simpa [hreason, hut] using hu)

/-- A call begins. -/
theorem set_call {k : Call} (hi : TakeInv max initial S A smph h) (ho : S.call t = .own)
    (hk : k.about ≠ some smph) (hA : A'.kernel = A.kernel)
    (hn : ∀ e ∈ es, e.concerns smph = false) :
    TakeInv max initial (S.setCall t k) A' smph (h ++ es) :=
  hi.other_call (K := S.kernel) rfl rfl (by simp [ho, Call.about]) hk (fun _ _ => rfl)
    (fun _ _ => rfl) (hi.no_reason (by rw [ho]; rfl)) (Shrinks.same (by rw [hA])) hn

theorem calls {timeout_ms : Int} {deadline : Nat} (hi : TakeInv max initial S A smph h)
    (ho : S.call t = .own) :
    TakeInv max initial (S.setCall t (.semaphore_take smph timeout_ms deadline))
      (A.setCall t (.semaphore_take smph timeout_ms deadline)) smph
      (h ++ [.take_calls t smph timeout_ms deadline]) := by
  have hout : S.taking smph t = .out := taking_out (by simp [ho, Call.about])
  have hst : ∀ u, takeStatus smph u (h ++ [.take_calls t smph timeout_ms deadline]) =
      if u = t then .trying timeout_ms deadline else takeStatus smph u h := fun u => by
    rw [takeStatus_concat]
    by_cases hu : u = t
    · subst hu; simp [takeStep]
    · simp [takeStep, hu, Ne.symm hu]
  have hother : ∀ u, u ≠ t →
      (S.setCall t (.semaphore_take smph timeout_ms deadline)).taking smph u = S.taking smph u :=
    fun u hu => taking_congr (by simp [hu]) Iff.rfl rfl
  have hnew : (S.setCall t (.semaphore_take smph timeout_ms deadline)).taking smph t =
      .trying timeout_ms deadline := trying_of_call (by simp)
  refine ⟨fun u => ?_, fun u hu => ?_, ?_, hi.max_eq, hi.bound, fun u hu => ?_, ?_, ?_⟩
  · rw [hst]
    by_cases hut : u = t
    · rw [if_pos hut, hut, hnew]
    · rw [if_neg hut, hi.status, hother u hut]
  · have hut : u ≠ t := by rintro rfl; exact hi.no_reason (by rw [ho]; rfl) hu
    simpa [hut] using hi.reason u hu
  · have hu : handed_units smph (h ++ [.take_calls t smph timeout_ms deadline]) =
        handed_units smph h := by
      unfold handed_units
      congr 1
      funext u
      rw [hst]
      by_cases hut : u = t
      · rw [if_pos hut, hut, hi.status, hout]; rfl
      · rw [if_neg hut]
    have := hi.units
    rw [hu, gives_ok_concat, takes_ok_concat]
    simpa using this
  · have hut : u ≠ t := by rintro rfl; rw [hnew] at hu; cases hu
    rw [hother u hut] at hu
    exact hi.waiting u hu
  · have hsince : ∀ u, waitingSince smph u (h ++ [.take_calls t smph timeout_ms deadline]) =
        waitingSince smph u h := fun u => by rw [waitingSince_concat]; simp
    simp only [hsince]; exact hi.order
  · exact takeLegal_concat.mpr ⟨hi.legal, trivial⟩

/-- Each step keeps the invariant. -/
theorem step {a : Action} {S' : System Links} {A' : System Sequences} {es es' : List Event}
    (hi : TakeInv max initial S A smph h) (hs : SSim S A grounded) (hr : S.step a = some (es, S'))
    (hr' : A.step a = some (es', A')) : TakeInv max initial S' A' smph (h ++ es) := by
  have hmove := System.step_move hr'
  cases System.step_move hr with
  | @scheduler_init c _ =>
    cases hmove
    obtain ⟨_, _, _, _, _, _, _, _, _, _, he⟩ := scheduler_init_effect S.kernel c
    rw [he]
    exact hi.new_task (hs.kernel.tasks.idle c) rfl rfl rfl rfl
      (Shrinks.scheduler_init rfl A.kernel c)
  | @scheduler_start c _ _ =>
    cases hmove
    rw [List.append_nil]
    exact hi.switch_context hs c
  | @tick c timer_gives _ =>
    cases hmove
    exact hi.tick hs timer_gives
  | @task_create c d p _ =>
    cases hmove
    have hsh := Shrinks.task_create (l := .semaphore_blocked_list smph) rfl A.kernel c d p
    obtain ⟨_, he⟩ | ⟨u, hu, _, _, _, _, _, _, _, _, _, _, _, he⟩ :=
      task_create_effect S.kernel c d p
    · rw [he]
      exact hi.frame rfl rfl (fun _ => rfl) hi.reason hsh (by simp)
    · rw [he]
      exact hi.new_task (hs.kernel.tasks.fresh u hu) rfl rfl rfl rfl hsh
  | stack_write _ =>
    cases hmove
    exact hi.frame rfl rfl (fun _ => rfl) hi.reason (Shrinks.same rfl) (by simp)
  | task_delay_ms hf =>
    cases hmove
    exact hi.set_call hf.2 (by simp [Call.about]) rfl (by simp)
  | task_delay_until_ms hf =>
    cases hmove
    exact hi.set_call hf.2 (by simp [Call.about]) rfl (by simp)
  | @mutex_set_inheritance m enable =>
    cases hmove
    obtain ⟨_, he⟩ := mutex_set_inheritance_effect S.kernel m enable
    obtain ⟨_, he'⟩ := mutex_set_inheritance_effect A.kernel m enable
    rw [he, he']
    exact hi.frame rfl rfl (fun _ => rfl) hi.reason (Shrinks.same rfl) (by simp)
  | mutex_lock hf =>
    cases hmove
    exact hi.lock hf.2
  | mutex_unlock _ _ =>
    cases hmove
    exact hi.unlock hs
  | @semaphore_take t s timeout_ms hf =>
    cases hmove
    have hd : take_deadline A.kernel t timeout_ms = take_deadline S.kernel t timeout_ms := by
      rw [hs.kernel.same]; rfl
    rw [hd]
    by_cases hne : s = smph
    · subst hne; exact hi.calls hf.2
    · exact hi.set_call hf.2 (by simp [Call.about, hne]) rfl (by simp [Event.concerns, hne])
  | @semaphore_give s =>
    cases hmove
    exact hi.give hs s
  | proceed hrun hp =>
    cases hmove with
    | proceed _ hp' => exact hi.proceed hs hrun hp hp'

end TakeInv

/-! ## Runs -/

variable {max_count initial_count : SemaphoreId → Nat} {h : List Event} {S : System Links}
  {smph : SemaphoreId}

/-- The invariant along every run. -/
theorem Run.takeInv {ok : Guard Links} (hr : Run ok (boot max_count initial_count) h S)
    (hle : initial_count smph ≤ max_count smph) :
    ∃ A, SSim S A grounded ∧ TakeInv (max_count smph) (initial_count smph) S A smph h := by
  induction hr with
  | start => exact ⟨_, SSim.boot _ _, TakeInv.boot hle⟩
  | @step h es S S' a _ _ hstep ih =>
    obtain ⟨A, hs, hi⟩ := ih
    obtain ⟨A', hA, hs'⟩ := hs.step_some hstep
    exact ⟨A', hs', hi.step hs hstep hA⟩

theorem give_quiet (S : System Links) (s : SemaphoreId) (t : Tcb) (code : StatusCode) :
    .take_returns t smph code ∉ (S.give s).1 := by
  unfold System.give
  dsimp only
  cases (semaphore_give S.kernel s).2.1 <;> simp

theorem gives_quiet (t : Tcb) (code : StatusCode) : ∀ (smphs : List SemaphoreId)
    (S : System Links), .take_returns t smph code ∉ (S.gives smphs).1 := by
  intro smphs
  induction smphs with
  | nil => intro S; simp [System.gives]
  | cons s rest ih =>
    intro S
    simp only [System.gives, List.mem_append, not_or]
    exact ⟨give_quiet S s t code, ih _⟩

theorem lock_quiet {m : MutexId} {u t : Tcb} {timeout_ms : Int} {code : StatusCode} :
    .take_returns t smph code ∉ (S.lock u m timeout_ms).1 := by
  unfold System.lock
  rcases mutex_lock S.kernel m u timeout_ms with ⟨_ | _, K⟩ <;> simp

theorem unlock_quiet {m : MutexId} {u t : Tcb} {code : StatusCode} :
    .take_returns t smph code ∉ (S.unlock u m).1 := by
  unfold System.unlock
  dsimp only
  cases (mutex_unlock S.kernel m).1 <;> simp

theorem take_returns {s : SemaphoreId} {u t : Tcb} {timeout_ms : Int} {deadline : Nat}
    {code : StatusCode} (hm : .take_returns t smph code ∈ (S.take u s timeout_ms deadline).1) :
    u = t := by
  revert hm
  unfold System.take
  rcases semaphore_take S.kernel s u timeout_ms deadline with ⟨_ | _, K⟩ <;> simp
  exact fun e _ _ => e.symm

theorem takeWake_returns {s : SemaphoreId} {u t : Tcb} {timeout_ms : Int} {deadline : Nat}
    {code : StatusCode} (hm : .take_returns t smph code ∈ (S.takeWake u s timeout_ms deadline).1) :
    u = t ∧ code = E_OK := by
  revert hm
  unfold System.takeWake
  rcases semaphore_take_wake S.kernel u with ⟨_ | _, K⟩ <;> simp
  exact fun e _ h => ⟨e.symm, h⟩

/-- A call returns in a section of its own task. -/
theorem returns_proceed {S' : System Links} {a : Action} {es : List Event} {t : Tcb}
    {code : StatusCode} (hstep : S.step a = some (es, S')) (hm : .take_returns t smph code ∈ es) :
    S.proceed t = some (es, S') := by
  cases System.step_move hstep with
  | tick _ =>
    rcases List.mem_append.mp hm with hm | hm
    · simp at hm
    · exact absurd hm (gives_quiet t code _ _)
  | @semaphore_give s => exact absurd hm (give_quiet S s t code)
  | mutex_lock _ => exact absurd hm lock_quiet
  | mutex_unlock _ _ => exact absurd hm unlock_quiet
  | @proceed u _ _ _ hp =>
    have hut : u = t := by
      cases System.proceeds hp with
      | block_until _ => cases hm
      | delayed _ => cases hm
      | mutex_lock _ => simp at hm
      | semaphore_take _ => exact take_returns hm
      | semaphore_wait _ => exact (takeWake_returns hm).1
    exact hut ▸ hp
  | _ => simp at hm

/-- What the API promises of `smph` in a state with history `h`. -/
structure SemaphoreSafe (max initial : Nat) (S : System Links) (smph : SemaphoreId)
    (h : List Event) : Prop where
  conservation : initial + gives_ok smph h =
    S.kernel.count smph + takes_ok smph h + handed_units smph h
  bound : S.kernel.count smph ≤ max
  /-- No unit is left while a task waits. -/
  waiting : ∀ t, (takeStatus smph t h).isWaiting = true → S.kernel.count smph = 0
  /-- The waiting tasks are those on the wait list, blocked. -/
  wait_list : ∃ xs, S.kernel.lists.IsList (.semaphore_blocked_list smph) xs ∧
    ∀ t, .event_list_item t ∈ xs ↔ (takeStatus smph t h).isWaiting = true
  /-- A give with waiters wakes the one that has waited longest, and no other. -/
  fifo : ∀ es S', S.step (.semaphore_give smph) = some (es, S') →
    0 < S.kernel.lists.num_items (.semaphore_blocked_list smph) →
    ∃ w, es = [.take_handed w smph, .give_returns smph E_OK] ∧
      (takeStatus smph w h).isWaiting = true ∧
      (∀ u, (takeStatus smph u h).isWaiting = true →
        waitingSince smph w h ≤ waitingSince smph u h) ∧
      S'.kernel.current_state w = .READY ∧
      (∀ u, u ≠ w → S'.kernel.current_state u = S.kernel.current_state u) ∧
      S'.kernel.count = S.kernel.count
  /-- So did every give before, those made by a tick included. -/
  handed : ∀ t h₁ h₂, h = h₁ ++ .take_handed t smph :: h₂ →
    (takeStatus smph t h₁).isWaiting = true ∧ ∀ u, (takeStatus smph u h₁).isWaiting = true →
      waitingSince smph t h₁ ≤ waitingSince smph u h₁
  exhausted : ∀ es S', S.step (.semaphore_give smph) = some (es, S') →
    .give_returns smph E_RESOURCE_EXHAUSTED ∈ es → S' = S
  /-- A call that times out has reached its deadline, and has no unit. -/
  timed_out : ∀ t a es S', S.step a = some (es, S') → .take_returns t smph E_TIMED_OUT ∈ es →
    ∃ timeout_ms deadline, takeStatus smph t h = .trying timeout_ms deadline ∧
      (timeout_ms = 0 ∨ 0 < timeout_ms ∧ deadline ≤ S.kernel.tick_count t.home) ∧
      S'.kernel = S.kernel

/-- In every run the units of a semaphore are conserved, its waiters are served in order, and no
call times out early or with a unit. -/
theorem semaphore_conservation {max_count initial_count : SemaphoreId → Nat} {h : List Event}
    {S : System Links} {smph : SemaphoreId}
    (hr : Run anyStep (boot max_count initial_count) h S)
    (hle : initial_count smph ≤ max_count smph) :
    SemaphoreSafe (max_count smph) (initial_count smph) S smph h := by
  obtain ⟨A, hs, hi⟩ := hr.takeInv hle
  refine ⟨hi.units, hi.bound, fun t ht => hi.waiting t (by rwa [← hi.status]),
    ⟨_, hs.kernel.linked.refines.rep _, fun t => hi.mem_iff hs⟩, fun es S' hstep hn => ?_,
    fun t h₁ h₂ he => hi.legal h₁ _ h₂ he rfl, fun es S' hstep hm => ?_,
    fun t a es S' hstep hm => ?_⟩
  · have hi' := hi.give hs smph
    have hstep : S.give smph = (es, S') := Option.some.inj hstep
    unfold System.give at hstep
    dsimp only at hstep
    have hne : A.kernel.lists.list (.semaphore_blocked_list smph) ≠ [] := by
      intro hnil
      have hz : S.kernel.lists.num_items (.semaphore_blocked_list smph) = 0 := by
        rw [← (hs.kernel.num_items_zero _).mpr hnil]; exact hs.kernel.num_items_eq _
      rw [hz] at hn; cases hn
    obtain ⟨w, xs, lists, hl, he⟩ | ⟨hl, -⟩ | ⟨hl, -⟩ := semaphore_give_effect hs.kernel smph
    · rw [he] at hstep
      cases hstep
      have hw : (takeStatus smph w h).isWaiting = true := (hi.mem_iff hs).mp (by rw [hl]; simp)
      refine ⟨w, rfl, hw, fun u hu => ?_, by simp, fun u hu => by simp [hu], rfl⟩
      have ho := hi.order
      have hm := (hi.mem_iff hs).mpr hu
      rw [hl] at ho hm
      rcases List.mem_cons.mp hm with e | hm
      · cases e; exact Nat.le_refl _
      · exact Nat.le_of_lt (List.rel_of_pairwise_cons ho hm)
    · exact absurd hl hne
    · exact absurd hl hne
  · have hstep : S.give smph = (es, S') := Option.some.inj hstep
    unfold System.give at hstep
    dsimp only at hstep
    obtain ⟨w, xs, lists, hl, he⟩ | ⟨hl, -, he⟩ | ⟨hl, -, he⟩ := semaphore_give_effect hs.kernel smph
    · rw [he] at hstep; cases hstep; simp at hm
    · rw [he] at hstep; cases hstep; simp at hm
    · rw [he] at hstep; cases hstep; rfl
  · have hp := returns_proceed hstep hm
    cases System.proceeds hp with
    | @semaphore_take s timeout_ms deadline hc =>
      unfold System.take at hm ⊢
      obtain ⟨-, he⟩ | ⟨-, hd, he⟩ | ⟨-, -, -, lists, wake, he⟩ :=
        semaphore_take_effect S.kernel s t timeout_ms deadline
      · rw [he] at hm; simp at hm
      · rw [he] at hm ⊢
        obtain rfl : smph = s := by simpa using hm
        exact ⟨timeout_ms, deadline, by rw [hi.status, TakeInv.trying_of_call hc], hd, rfl⟩
      · rw [he] at hm; simp at hm
    | semaphore_wait _ => cases (takeWake_returns hm).2
    | block_until _ => cases hm
    | delayed _ => cases hm
    | mutex_lock _ => simp at hm

/-- A timed take waits, is woken with a unit and returns; a second one times out. -/
def take_wait_give : List Action :=
  [.scheduler_init 0, .task_create 0 100 2, .task_create 0 100 2, .scheduler_start 0,
   .semaphore_take (.pool 0 0) 0 5, .proceed (.pool 0 0), .semaphore_give 0, .tick 0 [],
   .semaphore_take (.pool 0 1) 0 0, .proceed (.pool 0 1)]

theorem take_wait_give_run :
    ((boot (fun _ => 1) (fun _ => 0)).exec anyStep take_wait_give).isSome = true := by rfl

theorem semaphore_conservation_take_wait_give : SemaphoreSafe 1 0
    (((boot (fun _ => 1) (fun _ => 0)).exec anyStep take_wait_give).get take_wait_give_run).2 0
    (((boot (fun _ => 1) (fun _ => 0)).exec anyStep take_wait_give).get take_wait_give_run).1 :=
  semaphore_conservation (Run.of_exec (Option.some_get take_wait_give_run).symm) (by decide)

end Rpitos
