import Rpitos.Kernel.TickExpiry

/-!
# Kernel.MutexMoves

What a step does to one mutex. `lockStatus` reads from the history where a task stands with the
mutex: out, waiting, handed the mutex, timed out, or holding it; `Legal` says which events may happen
to a task in each status. `LockMove` has one case for each thing that can happen to the mutex, and
`LockMove.of_step` says that every step of the kernel is one of them.
-/

namespace Rpitos

open Function ListOps StatusCode

/-! ## What the history says -/

inductive LockStatus where
  | out | waiting | handed | expired | holding
  deriving DecidableEq, Repr

/-- One event, seen from task `t` and mutex `mtx`. -/
def lockStep (mtx : MutexId) (t : Tcb) (st : LockStatus) : Event → LockStatus
  | .lock_waits u m => if u = t ∧ m = mtx then .waiting else st
  | .lock_returns u m code =>
    if u = t ∧ m = mtx then (if code = E_OK then .holding else .out) else st
  | .unlocks u m => if u = t ∧ m = mtx then .out else st
  | .lock_handed u m => if u = t ∧ m = mtx then .handed else st
  | .expires u => if u = t ∧ st = .waiting then .expired else st
  | _ => st

/-- Where `t` stands with `mtx` after the history `h`. -/
def lockStatus (mtx : MutexId) (t : Tcb) (h : List Event) : LockStatus :=
  h.foldl (lockStep mtx t) .out

/-- `t` has an `E_OK` it has not yet matched by an unlock, or was handed the mutex and has not yet
returned. -/
def Holds (mtx : MutexId) (t : Tcb) (h : List Event) : Prop :=
  lockStatus mtx t h = .holding ∨ lockStatus mtx t h = .handed

/-- Which events may happen to a task in a status. -/
def Allowed (mtx : MutexId) (t : Tcb) (st : LockStatus) : Event → Prop
  | .lock_waits u m => u = t ∧ m = mtx → st = .out
  | .lock_returns u m code => u = t ∧ m = mtx →
    (code = E_OK ∧ (st = .out ∨ st = .handed)) ∨
      (code = E_TIMED_OUT ∧ (st = .out ∨ st = .expired))
  | .unlocks u m => u = t ∧ m = mtx → st = .holding
  | .lock_handed u m => u = t ∧ m = mtx → st = .waiting
  | _ => True

/-- Every event of the history is allowed where it happens. -/
def Legal (mtx : MutexId) (t : Tcb) : LockStatus → List Event → Prop
  | _, [] => True
  | st, e :: es => Allowed mtx t st e ∧ Legal mtx t (lockStep mtx t st e) es

theorem legal_append {mtx : MutexId} {t : Tcb} {es : List Event} (h : List Event) :
    ∀ st, Legal mtx t st (h ++ es) ↔
      Legal mtx t st h ∧ Legal mtx t (h.foldl (lockStep mtx t) st) es := by
  induction h with
  | nil => intro st; simp [Legal]
  | cons e h ih => intro st; simp [Legal, ih, and_assoc]

theorem lockStatus_append (mtx : MutexId) (t : Tcb) (h es : List Event) :
    lockStatus mtx t (h ++ es) = es.foldl (lockStep mtx t) (lockStatus mtx t h) :=
  List.foldl_append

theorem one_event {mtx : MutexId} {h : List Event} {st : LockStatus} {e : Event} (u : Tcb)
    (hst : lockStep mtx u (lockStatus mtx u h) e = st) : lockStatus mtx u (h ++ [e]) = st := by
  rw [lockStatus_append]; exact hst

/-- Events that say nothing about the mutex. -/
def Neutral (mtx : MutexId) (es : List Event) : Prop :=
  ∀ e ∈ es, ∀ t st, lockStep mtx t st e = st ∧ Allowed mtx t st e

theorem Neutral.nil {mtx : MutexId} : Neutral mtx [] := by intro e he; cases he

theorem Neutral.one {mtx : MutexId} {e : Event}
    (h : ∀ t st, lockStep mtx t st e = st ∧ Allowed mtx t st e) : Neutral mtx [e] := by
  intro e' he
  rw [List.mem_singleton.mp he]
  exact h

theorem Neutral.fold {mtx : MutexId} {es : List Event} (hn : Neutral mtx es) (t : Tcb) :
    ∀ st, es.foldl (lockStep mtx t) st = st ∧ Legal mtx t st es := by
  induction es with
  | nil => intro st; exact ⟨rfl, trivial⟩
  | cons e es ih =>
    intro st
    obtain ⟨h1, h2⟩ := hn e (by simp) t st
    have h3 := ih (fun e' he => hn e' (by simp [he])) st
    simp only [List.foldl_cons, Legal, h1]
    exact ⟨h3.1, h2, h3.2⟩

/-- Expiry turns a wait into a time-out, and touches nothing else. -/
theorem expires_fold (mtx : MutexId) (t : Tcb) (ts : List Tcb) : ∀ st,
    (ts.map Event.expires).foldl (lockStep mtx t) st =
      (if t ∈ ts ∧ st = .waiting then .expired else st) ∧
    Legal mtx t st (ts.map Event.expires) := by
  induction ts with
  | nil => intro st; exact ⟨by simp, trivial⟩
  | cons u ts ih =>
    intro st
    simp only [List.map_cons, List.foldl_cons, Legal]
    refine ⟨?_, trivial, (ih _).2⟩
    rw [(ih _).1]
    simp only [lockStep, List.mem_cons]
    by_cases hu : u = t
    · by_cases hs : st = .waiting
      · simp [hu, hs]
      · simp [hu, hs]
    · simp [hu, Ne.symm hu]

/-! ## What a step does to the mutex -/

/-- The mutex the call waits for. -/
def Call.locks : Call → Option MutexId
  | .mutex_lock mtx _ => some mtx
  | _ => none

theorem Call.locks_iff {call : Call} {mtx : MutexId} :
    call.locks = some mtx ↔ call.waits_on = some (.mutex_blocked_list mtx) := by
  cases call <;> simp [Call.locks, Call.waits_on]

/-- The mutex is left alone, and of the tasks in its `mutex_lock` those in `ts` are woken by a
tick. -/
structure LockQuiet (mtx : MutexId) (ts : List Tcb) (S : System Links) (es : List Event)
    (S' : System Links) : Prop where
  state : S'.kernel.mutex_state mtx = S.kernel.mutex_state mtx
  owner : S'.kernel.mutex_owner mtx = S.kernel.mutex_owner mtx
  call : ∀ t, S'.call t = S.call t ∨
    (S.call t).locks ≠ some mtx ∧ (S'.call t).locks ≠ some mtx
  blocked : ∀ t, (S.call t).locks = some mtx → (S'.kernel.current_state t = .BLOCKED ↔
    t ∉ ts ∧ S.kernel.current_state t = .BLOCKED)
  timed : ∀ t ∈ ts, S.kernel.current_state t = .BLOCKED ∧ (S.call t).timed = true
  events : ∀ t st, es.foldl (lockStep mtx t) st =
    (if t ∈ ts ∧ st = .waiting then .expired else st) ∧ Legal mtx t st es

/-- What a step can do to the mutex. -/
inductive LockMove (mtx : MutexId) (S : System Links) :
    Action → List Event → System Links → Prop
  | quiet {a : Action} {ts : List Tcb} {es : List Event} {S' : System Links} :
      LockQuiet mtx ts S es S' → LockMove mtx S a es S'
  /-- The caller finds the mutex unlocked. -/
  | found {t : Tcb} {timeout_ms : Int} {K : Kernel Links} : S.call t = .own →
      S.kernel.mutex_state mtx = .UNLOCKED → K.mutex_state mtx = .LOCKED →
      K.mutex_owner mtx = some t → K.current_state = S.kernel.current_state →
      LockMove mtx S (.mutex_lock t mtx timeout_ms) [.lock_returns t mtx E_OK] (S.withKernel K)
  /-- The caller finds it locked, and does not wait. -/
  | refused {t : Tcb} : S.call t = .own → S.kernel.mutex_state mtx = .LOCKED →
      LockMove mtx S (.mutex_lock t mtx 0) [.lock_returns t mtx E_TIMED_OUT] S
  | waits {t : Tcb} {timeout_ms : Int} {K : Kernel Links} : S.call t = .own →
      S.kernel.mutex_state mtx = .LOCKED → timeout_ms ≠ 0 →
      K.mutex_state mtx = S.kernel.mutex_state mtx →
      K.mutex_owner mtx = S.kernel.mutex_owner mtx →
      K.current_state = update S.kernel.current_state t .BLOCKED →
      LockMove mtx S (.mutex_lock t mtx timeout_ms) [.lock_waits t mtx]
        ((S.withKernel K).setCall t (.mutex_lock mtx timeout_ms))
  /-- The owner unlocks the mutex, for which nobody waits. -/
  | released {t : Tcb} {K : Kernel Links} : S.call t = .own →
      S.kernel.mutex_owner mtx = some t →
      (∀ u, (S.call u).locks = some mtx → S.kernel.current_state u ≠ .BLOCKED) →
      K.mutex_state mtx = .UNLOCKED → K.mutex_owner mtx = none →
      K.current_state = S.kernel.current_state →
      LockMove mtx S (.mutex_unlock t mtx) [.unlocks t mtx] (S.withKernel K)
  /-- The owner unlocks the mutex, and the waiter `w` gets it. -/
  | handed {t w : Tcb} {K : Kernel Links} : S.call t = .own →
      S.kernel.mutex_owner mtx = some t → (S.call w).locks = some mtx →
      S.kernel.current_state w = .BLOCKED → K.mutex_state mtx = S.kernel.mutex_state mtx →
      K.mutex_owner mtx = some w →
      K.current_state = update S.kernel.current_state w .READY →
      LockMove mtx S (.mutex_unlock t mtx) [.unlocks t mtx, .lock_handed w mtx] (S.withKernel K)
  /-- The end of a `mutex_lock` that waited. -/
  | returns {t : Tcb} {timeout_ms : Int} : S.call t = .mutex_lock mtx timeout_ms →
      S.kernel.current_state t ≠ .BLOCKED →
      LockMove mtx S (.proceed t) [.lock_returns t mtx (mutex_lock_result S.kernel mtx t)]
        (S.setCall t .own)

namespace LockQuiet

variable {S S' S'' : System Links} {mtx : MutexId} {ts : List Tcb} {es es' : List Event} {t : Tcb}

/-- Nothing happens to the mutex or to a task in its `mutex_lock`. -/
theorem frame (hst : S'.kernel.mutex_state mtx = S.kernel.mutex_state mtx)
    (hown : S'.kernel.mutex_owner mtx = S.kernel.mutex_owner mtx)
    (hcall : ∀ t, S'.call t = S.call t ∨
      (S.call t).locks ≠ some mtx ∧ (S'.call t).locks ≠ some mtx)
    (hblk : ∀ t, (S.call t).locks = some mtx →
      (S'.kernel.current_state t = .BLOCKED ↔ S.kernel.current_state t = .BLOCKED))
    (hn : Neutral mtx es) : LockQuiet mtx [] S es S' :=
  ⟨hst, hown, hcall, fun t ht => by simpa using hblk t ht, by simp,
    fun t st => by simpa using hn.fold t st⟩

theorem locks_iff (h : LockQuiet mtx ts S es S') :
    (S'.call t).locks = some mtx ↔ (S.call t).locks = some mtx := by
  rcases h.call t with e | ⟨h1, h2⟩
  · rw [e]
  · exact iff_of_false h2 h1

theorem trans (h : LockQuiet mtx ts S es S') (h' : LockQuiet mtx [] S' es' S'') :
    LockQuiet mtx ts S (es ++ es') S'' := by
  refine ⟨h'.state.trans h.state, h'.owner.trans h.owner, fun t => ?_, fun t ht => ?_, h.timed,
    fun t st => ?_⟩
  · rcases h'.call t with e | ⟨h1, h2⟩
    · rw [e]; exact h.call t
    · exact .inr ⟨mt h.locks_iff.mpr h1, h2⟩
  · rw [h'.blocked t (h.locks_iff.mpr ht), h.blocked t ht]
    simp
  · obtain ⟨h1, h2⟩ := h.events t st
    obtain ⟨h3, h4⟩ := h'.events t (if t ∈ ts ∧ st = .waiting then .expired else st)
    refine ⟨by rw [List.foldl_append, h1, h3]; simp, ?_⟩
    rw [legal_append, h1]
    exact ⟨h2, h4⟩

/-! ## Ticks and gives -/

theorem give {A : System Sequences} (hs : SSim S A grounded) (smph : SemaphoreId) :
    LockQuiet mtx [] S (S.give smph).1 (S.give smph).2 := by
  unfold System.give
  dsimp only
  obtain ⟨w, xs, lists, hl, he⟩ | ⟨-, -, he⟩ | ⟨-, -, he⟩ := semaphore_give_effect hs.kernel smph
  · rw [he]
    have hw : (S.call w).waits_on = some (.semaphore_blocked_list smph) :=
      (hs.kernel.wait_mem rfl (grounded_entered _) (x := .event_list_item w) (by rw [hl]; simp)).2.2.2.2
    refine frame rfl rfl (fun _ => .inl rfl) (fun u hu => ?_) ?_
    · have huw : u ≠ w := by
        rintro rfl
        rw [Call.locks_iff.mp hu] at hw; cases hw
      simp [huw]
    · intro e he t st
      simp only [List.singleton_append, List.mem_cons, List.not_mem_nil, or_false] at he
      rcases he with rfl | rfl <;> exact ⟨rfl, trivial⟩
  · rw [he]
    exact frame rfl rfl (fun _ => .inl rfl) (fun u hu => Iff.rfl) (.one fun _ _ => ⟨rfl, trivial⟩)
  · rw [he]
    exact frame rfl rfl (fun _ => .inl rfl) (fun u hu => Iff.rfl) (.one fun _ _ => ⟨rfl, trivial⟩)

theorem gives : ∀ (smphs : List SemaphoreId) {S : System Links} {A : System Sequences},
    SSim S A grounded → LockQuiet mtx [] S (S.gives smphs).1 (S.gives smphs).2 := by
  intro smphs
  induction smphs with
  | nil =>
    intro S A _
    exact frame rfl rfl (fun _ => .inl rfl) (fun _ _ => Iff.rfl) .nil
  | cons smph rest ih =>
    intro S A hs
    exact (give hs smph).trans (ih (hs.give smph (grounded_entered _)).2)

theorem timer_tick {A : System Sequences} {c : CoreId} (hs : SSim S A grounded) :
    LockQuiet mtx (timer_tick_handler S.kernel c).1 S
      ((timer_tick_handler S.kernel c).1.map .expires)
      (S.withKernel (timer_tick_handler S.kernel c).2) := by
  have hwoken : ∀ t ∈ (timer_tick_handler S.kernel c).1,
      S.kernel.current_state t = .BLOCKED ∧ (S.call t).timed = true :=
    fun t ht => timer_tick_woken hs.kernel ht
  obtain ⟨lists, he⟩ := timer_tick_handler_effect S.kernel c
  generalize (timer_tick_handler S.kernel c).1 = ts at he hwoken
  rw [he]
  refine ⟨rfl, rfl, fun _ => .inl rfl, fun t _ => ?_, hwoken, fun t st => expires_fold mtx t ts st⟩
  by_cases ht : t ∈ ts <;> simp [ht]

theorem switch {A : System Sequences} (hs : SSim S A grounded) (c : CoreId) :
    LockQuiet mtx [] S [] (S.withKernel (scheduler_switch_context S.kernel c)) := by
  obtain ⟨lists, st, cur, hung, he, hb⟩ := switch_context_effect hs.kernel (c := c) fun _ _ => rfl
  rw [he]
  exact frame rfl rfl (fun _ => .inl rfl) (fun u _ => hb u) .nil

theorem tick {A : System Sequences} {c : CoreId} (hs : SSim S A grounded)
    (smphs : List SemaphoreId) :
    ∃ ts, LockQuiet mtx ts S (S.tick c smphs).1 (S.tick c smphs).2 := by
  have hs1 : SSim (S.withKernel (timer_tick_handler S.kernel c).2)
      (A.withKernel (timer_tick_handler A.kernel c).2) grounded :=
    ⟨hs.call, (hs.kernel.timer_tick_handler (fun u hu => absurd rfl hu)).2⟩
  have hs2 := (hs1.gives smphs (fun _ _ => grounded_entered _)).2
  have h1 : LockQuiet mtx _ S _ _ := timer_tick (c := c) hs
  have h := (h1.trans (gives smphs hs1)).trans (switch hs2 c)
  rw [List.append_nil] at h
  exact ⟨_, h⟩

/-! ## Calls that do not concern the mutex -/

/-- A task outside the `mutex_lock` of this mutex changes its call to another such, and maybe
blocks. -/
theorem other_call {K : Kernel Links} {k : Call}
    (hst : K.mutex_state mtx = S.kernel.mutex_state mtx)
    (hown : K.mutex_owner mtx = S.kernel.mutex_owner mtx)
    (hc : (S.call t).locks ≠ some mtx) (hk : k.locks ≠ some mtx)
    (hblk : ∀ u, u ≠ t →
      (K.current_state u = .BLOCKED ↔ S.kernel.current_state u = .BLOCKED))
    (hn : Neutral mtx es) : LockQuiet mtx [] S es ((S.withKernel K).setCall t k) := by
  refine frame hst hown (fun u => ?_) (fun u hu => hblk u (by rintro rfl; exact hc hu)) hn
  by_cases hut : u = t
  · subst hut; exact .inr ⟨hc, by simpa using hk⟩
  · exact .inl (by simp [hut])

/-- A new task, or a core's idle task, is in no call. -/
theorem new_task {K : Kernel Links} (ho : S.call t = .own)
    (hst : K.mutex_state = S.kernel.mutex_state) (hown : K.mutex_owner = S.kernel.mutex_owner)
    (hs : K.current_state = update S.kernel.current_state t .READY) :
    LockQuiet mtx [] S [] (S.withKernel K) := by
  refine frame (congrFun hst mtx) (congrFun hown mtx) (fun u => .inl rfl) (fun u hu => ?_)
    .nil
  have hut : u ≠ t := by rintro rfl; simp [ho, Call.locks] at hu
  simp [hs, hut]

theorem lock_other {m : MutexId} {timeout_ms : Int} (hm : m ≠ mtx) (ho : S.call t = .own) :
    LockQuiet mtx [] S (S.lock t m timeout_ms).1 (S.lock t m timeout_ms).2 := by
  have hc : (S.call t).locks ≠ some mtx := by simp [ho, Call.locks]
  unfold System.lock
  obtain ⟨-, held, he⟩ | ⟨-, -, he⟩ | ⟨-, -, lists, wake, prio, inh, he⟩ :=
    mutex_lock_effect S.kernel m t timeout_ms
  · rw [he]
    exact frame (by simp [Ne.symm hm]) (by simp [Ne.symm hm]) (fun _ => .inl rfl)
      (fun _ _ => Iff.rfl) (.one fun _ _ => by simp [lockStep, Allowed, hm])
  · rw [he]
    exact frame rfl rfl (fun _ => .inl rfl) (fun _ _ => Iff.rfl)
      (.one fun _ _ => by simp [lockStep, Allowed, hm])
  · rw [he]
    exact other_call rfl rfl hc (by simp [Call.locks, hm]) (fun u hu => by simp [hu])
      (.one fun _ _ => by simp [lockStep, Allowed, hm])

theorem unlock_other {A : System Sequences} {m : MutexId} (hs : SSim S A grounded)
    (hm : m ≠ mtx) : LockQuiet mtx [] S (S.unlock t m).1 (S.unlock t m).2 := by
  unfold System.unlock
  dsimp only
  by_cases hl : S.kernel.mutex_state m = .LOCKED
  case neg =>
    rw [mutex_unlock, if_neg hl]
    exact frame rfl rfl (fun _ => .inl rfl) (fun _ _ => Iff.rfl)
      (.one fun _ _ => by simp [lockStep, Allowed, hm])
  obtain ⟨-, lists, prio, held, inh, he⟩ | ⟨w, lists, prio, held, inh, hw, he⟩ :=
    mutex_unlock_effect hs.kernel hl
  · rw [he]
    exact frame (by simp [Ne.symm hm]) (by simp [Ne.symm hm]) (fun _ => .inl rfl)
      (fun _ _ => Iff.rfl) (.one fun _ _ => by simp [lockStep, Allowed, hm])
  · rw [he]
    have hww : (S.call w).waits_on = some (.mutex_blocked_list m) :=
      (hs.kernel.wait_mem rfl (grounded_entered _) hw).2.2.2.2
    refine frame rfl (by simp [Ne.symm hm]) (fun _ => .inl rfl) (fun u hu => ?_) ?_
    · have huw : u ≠ w := by
        rintro rfl
        rw [Call.locks_iff.mp hu] at hww
        injection hww with hww; injection hww with hww; exact hm hww.symm
      simp [huw]
    · intro e he t st
      simp only [List.mem_cons, List.not_mem_nil, or_false] at he
      rcases he with rfl | rfl <;> simp [lockStep, Allowed, hm]

theorem take {smph : SemaphoreId} {timeout_ms : Int} {deadline : Nat}
    (hc : (S.call t).locks ≠ some mtx) :
    LockQuiet mtx [] S (S.take t smph timeout_ms deadline).1
      (S.take t smph timeout_ms deadline).2 := by
  unfold System.take
  obtain ⟨-, he⟩ | ⟨-, -, he⟩ | ⟨-, -, -, lists, wake, he⟩ :=
    semaphore_take_effect S.kernel smph t timeout_ms deadline
  · rw [he]
    exact other_call rfl rfl hc (by simp [Call.locks]) (fun _ _ => Iff.rfl) (.one fun _ _ => ⟨rfl, trivial⟩)
  · rw [he]
    exact other_call rfl rfl hc (by simp [Call.locks]) (fun _ _ => Iff.rfl) (.one fun _ _ => ⟨rfl, trivial⟩)
  · rw [he]
    exact other_call rfl rfl hc (by simp [Call.locks]) (fun u hu => by simp [hu])
      (.one fun _ _ => ⟨rfl, trivial⟩)

theorem takeWake {smph : SemaphoreId} {timeout_ms : Int} {deadline : Nat}
    (hc : (S.call t).locks ≠ some mtx) :
    LockQuiet mtx [] S (S.takeWake t smph timeout_ms deadline).1
      (S.takeWake t smph timeout_ms deadline).2 := by
  unfold System.takeWake semaphore_take_wake
  by_cases hw : S.kernel.wakeup_reason t = .RESOURCE_ACQUIRED
  · rw [if_pos hw]
    exact other_call rfl rfl hc (by simp [Call.locks]) (fun _ _ => Iff.rfl) (.one fun _ _ => ⟨rfl, trivial⟩)
  · rw [if_neg hw]
    exact other_call rfl rfl hc (by simp [Call.locks]) (fun _ _ => Iff.rfl) .nil

end LockQuiet

/-! ## Every step is a move -/

namespace LockMove

variable {S S' : System Links} {mtx : MutexId} {es : List Event} {t : Tcb}

theorem lock {m : MutexId} {timeout_ms : Int} (ho : S.call t = .own) :
    LockMove mtx S (.mutex_lock t m timeout_ms) (S.lock t m timeout_ms).1
      (S.lock t m timeout_ms).2 := by
  by_cases hm : m = mtx
  case neg => exact .quiet (LockQuiet.lock_other hm ho)
  subst hm
  have hlocked : S.kernel.mutex_state m ≠ .UNLOCKED → S.kernel.mutex_state m = .LOCKED := by
    intro h
    cases hst : S.kernel.mutex_state m with
    | LOCKED => rfl
    | UNLOCKED => exact absurd hst h
  unfold System.lock
  obtain ⟨hun, held, he⟩ | ⟨hlk, hz, he⟩ | ⟨hlk, hz, lists, wake, prio, inh, he⟩ :=
    mutex_lock_effect S.kernel m t timeout_ms
  · rw [he]
    exact .found ho hun (by simp) (by simp) rfl
  · rw [he, hz]
    exact .refused ho (hlocked hlk)
  · rw [he]
    exact .waits ho (hlocked hlk) hz rfl rfl rfl

theorem unlock {A : System Sequences} {m : MutexId} (hs : SSim S A grounded)
    (hl : S.kernel.mutex_owner mtx ≠ none → S.kernel.mutex_state mtx = .LOCKED)
    (ho : S.call t = .own) (hown : S.kernel.mutex_owner m = some t) :
    LockMove mtx S (.mutex_unlock t m) (S.unlock t m).1 (S.unlock t m).2 := by
  by_cases hm : m = mtx
  case neg => exact .quiet (LockQuiet.unlock_other hs hm)
  subst hm
  unfold System.unlock
  dsimp only
  obtain ⟨hnil, lists, prio, held, inh, he⟩ | ⟨w, lists, prio, held, inh, hw, he⟩ :=
    mutex_unlock_effect hs.kernel (hl (by simp [hown]))
  · rw [he]
    refine .released ho hown (fun u hu hb => ?_) (by simp) (by simp) rfl
    have hm := (hs.kernel.mem_wait (l := .mutex_blocked_list m) rfl).mpr ⟨hb, Call.locks_iff.mp hu⟩
    rw [hnil] at hm
    cases hm
  · rw [he]
    obtain ⟨hb, hww⟩ := (hs.kernel.mem_wait rfl).mp hw
    exact .handed ho hown (Call.locks_iff.mpr hww) hb rfl (by simp) rfl

/-- The next section of a call. -/
theorem proceed (hb : S.kernel.current_state t ≠ .BLOCKED) (hp : S.proceed t = some (es, S')) :
    LockMove mtx S (.proceed t) es S' := by
  cases System.proceeds hp with
  | @block_until w hc =>
    obtain ⟨lists, he⟩ := block_until_effect S.kernel t w
    rw [he]
    exact .quiet (.other_call rfl rfl (by simp [hc, Call.locks]) (by simp [Call.locks])
      (fun u hu => by simp [hu]) .nil)
  | delayed hc =>
    exact .quiet (.other_call (K := S.kernel) rfl rfl (by simp [hc, Call.locks])
      (by simp [Call.locks]) (fun u hu => Iff.rfl) .nil)
  | @mutex_lock m timeout_ms hc =>
    by_cases hm : m = mtx
    · subst hm; exact .returns hc hb
    · exact .quiet (.other_call (K := S.kernel) rfl rfl (by simp [hc, Call.locks, hm])
        (by simp [Call.locks]) (fun u hu => Iff.rfl)
        (.one fun _ _ => by simp [lockStep, Allowed, hm]))
  | semaphore_take hc => exact .quiet (.take (by simp [hc, Call.locks]))
  | semaphore_wait hc =>
    exact .quiet (.takeWake (by simp [hc, Call.locks]))

theorem set_call {a : Action} {k : Call} (ho : S.call t = .own) (hk : k.locks ≠ some mtx)
    (hn : Neutral mtx es) : LockMove mtx S a es (S.setCall t k) :=
  .quiet (.other_call (K := S.kernel) rfl rfl (by simp [ho, Call.locks]) hk
    (fun _ _ => Iff.rfl) hn)

/-- The mutexes, the calls and the states of the tasks are as before. -/
theorem same {a : Action} {K : Kernel Links} (hst : K.mutex_state = S.kernel.mutex_state)
    (hown : K.mutex_owner = S.kernel.mutex_owner)
    (hcs : K.current_state = S.kernel.current_state) : LockMove mtx S a [] (S.withKernel K) :=
  .quiet (.frame (congrFun hst mtx) (congrFun hown mtx) (fun _ => .inl rfl)
    (fun _ _ => by rw [System.withKernel_kernel, hcs]) .nil)

/-- Every step of the kernel is a move. -/
theorem of_step {A : System Sequences} {a : Action} (hs : SSim S A grounded)
    (hl : S.kernel.mutex_owner mtx ≠ none → S.kernel.mutex_state mtx = .LOCKED)
    (hstep : S.step a = some (es, S')) : LockMove mtx S a es S' := by
  cases System.step_move hstep with
  | @scheduler_init c _ =>
    obtain ⟨_, _, _, _, _, _, _, _, _, _, he⟩ := scheduler_init_effect S.kernel c
    rw [he]
    exact .quiet (.new_task (hs.kernel.tasks.idle c) rfl rfl rfl)
  | @scheduler_start c _ _ => exact .quiet (.switch hs c)
  | @tick _ timer_gives _ =>
    obtain ⟨ts, h⟩ := LockQuiet.tick hs timer_gives
    exact .quiet h
  | @task_create c d p _ =>
    obtain ⟨_, he⟩ | ⟨u, hu, _, _, _, _, _, _, _, _, _, _, _, he⟩ :=
      task_create_effect S.kernel c d p
    · rw [he]; exact .same rfl rfl rfl
    · rw [he]
      exact .quiet (.new_task (hs.kernel.tasks.fresh u hu) rfl rfl rfl)
  | stack_write _ => exact .same rfl rfl rfl
  | task_delay_ms hf => exact .set_call hf.2 (by simp [Call.locks]) .nil
  | task_delay_until_ms hf => exact .set_call hf.2 (by simp [Call.locks]) .nil
  | @mutex_set_inheritance m enable =>
    obtain ⟨_, he⟩ := mutex_set_inheritance_effect S.kernel m enable
    rw [he]
    exact .same rfl rfl rfl
  | mutex_lock hf => exact .lock hf.2
  | mutex_unlock hf ho => exact .unlock hs hl hf.2 ho
  | semaphore_take hf =>
    exact .set_call hf.2 (by simp [Call.locks]) (.one fun _ _ => ⟨rfl, trivial⟩)
  | @semaphore_give smph => exact .quiet (.give hs smph)
  | proceed hr hstep => exact .proceed (hs.running hr).2.1 hstep

end LockMove

end Rpitos
