import Rpitos.Kernel.SemaphoreRuns

/-!
# Kernel.Touches

A semaphore that only some of the program uses: which steps of the kernel touch it, and what the
history says of it after a step that does not, after a section of a take, and after a give.
-/

namespace Rpitos

open Function StatusCode ListOps

/-- The semaphore the event is about. -/
def Event.about : Event → Option SemaphoreId
  | .take_calls _ s _ _ => some s
  | .take_waits _ s => some s
  | .take_returns _ s _ => some s
  | .take_handed _ s => some s
  | .give_returns s _ => some s
  | _ => none

/-- Whether the step takes or gives the semaphore. -/
def System.touches {L : Type} (S : System L) (smph : SemaphoreId) : Action → Bool
  | .tick _ timer_gives => smph ∈ timer_gives
  | .semaphore_take _ s _ => s = smph
  | .semaphore_give s => s = smph
  | .proceed t => (S.call t).about = some smph
  | _ => false

section Touches

variable {S S' : System Links} {smph s : SemaphoreId} {t : Tcb} {es : List Event}

theorem give_about (S : System Links) (hs : s ≠ smph) : ∀ e ∈ (S.give s).1, e.about ≠ some smph := by
  unfold System.give
  dsimp only
  cases (semaphore_give S.kernel s).2.1 <;> simp [Event.about, hs]

theorem gives_about : ∀ (smphs : List SemaphoreId) (S : System Links), smph ∉ smphs →
    (∀ e ∈ (S.gives smphs).1, e.about ≠ some smph) ∧ (S.gives smphs).2.call = S.call := by
  intro smphs
  induction smphs with
  | nil => intro S _; exact ⟨by simp [System.gives], rfl⟩
  | cons s rest ih =>
    intro S hm
    obtain ⟨hs, hm⟩ := not_or.mp (mt List.mem_cons.mpr hm)
    obtain ⟨h1, h2⟩ := ih (S.give s).2 hm
    refine ⟨fun e he => ?_, h2⟩
    rcases List.mem_append.mp he with he | he
    · exact give_about S (Ne.symm hs) e he
    · exact h1 e he

theorem setCall_about {k : Call} (h₁ : (S.call t).about ≠ some smph) (h₂ : k.about ≠ some smph) :
    ∀ u, ((S.setCall t k).call u).about = some smph ↔ (S.call u).about = some smph := fun u => by
  by_cases hut : u = t
  · subst hut; simp [h₁, h₂]
  · simp [hut]

/-- The next section of a call about another semaphore. -/
theorem proceed_about (hp : S.proceed t = some (es, S')) (h : (S.call t).about ≠ some smph) :
    (∀ e ∈ es, e.about ≠ some smph) ∧
      ∀ u, (S'.call u).about = some smph ↔ (S.call u).about = some smph := by
  cases System.proceeds hp with
  | block_until hc =>
    exact ⟨by simp, setCall_about (S := S.withKernel _) h (by simp [Call.about])⟩
  | delayed hc => exact ⟨by simp, setCall_about h (by simp [Call.about])⟩
  | mutex_lock hc => exact ⟨by simp [Event.about], setCall_about h (by simp [Call.about])⟩
  | @semaphore_take s timeout_ms deadline hc =>
    have hs : s ≠ smph := by rintro rfl; exact h (by rw [hc]; rfl)
    unfold System.take
    rcases semaphore_take S.kernel s t timeout_ms deadline with ⟨_ | code, K⟩
    · exact ⟨by simp [Event.about, hs],
        setCall_about (S := S.withKernel K) h (by simp [Call.about, hs])⟩
    · exact ⟨by simp [Event.about, hs],
        setCall_about (S := S.withKernel K) h (by simp [Call.about])⟩
  | @semaphore_wait s timeout_ms deadline hc =>
    have hs : s ≠ smph := by rintro rfl; exact h (by rw [hc]; rfl)
    unfold System.takeWake
    rcases semaphore_take_wake S.kernel t with ⟨_ | _, K⟩
    · exact ⟨by simp, setCall_about (S := S.withKernel K) h (by simp [Call.about, hs])⟩
    · exact ⟨by simp [Event.about, hs],
        setCall_about (S := S.withKernel K) h (by simp [Call.about])⟩

/-- A step that does not touch a semaphore says nothing about it. -/
theorem step_about {a : Action} (hstep : S.step a = some (es, S'))
    (h : S.touches smph a = false) :
    (∀ e ∈ es, e.about ≠ some smph) ∧
      ∀ u, (S'.call u).about = some smph ↔ (S.call u).about = some smph := by
  have hown : ∀ {t}, S.call t = .own → (S.call t).about ≠ some smph := fun h => by
    simp [h, Call.about]
  cases System.step_move hstep with
  | @tick c timer_gives _ =>
    have hmem : smph ∉ timer_gives := by simpa [System.touches] using h
    obtain ⟨h1, h2⟩ :=
      gives_about timer_gives (S.withKernel (timer_tick_handler S.kernel c).2) hmem
    refine ⟨fun e he => ?_, fun u => ?_⟩
    · rcases List.mem_append.mp he with he | he
      · obtain ⟨u, -, rfl⟩ := List.mem_map.mp he; simp [Event.about]
      · exact h1 e he
    · show ((System.gives _ timer_gives).2.call u).about = _ ↔ _
      rw [h2]; rfl
  | task_delay_ms hf => exact ⟨by simp, setCall_about (hown hf.2) (by simp [Call.about])⟩
  | task_delay_until_ms hf => exact ⟨by simp, setCall_about (hown hf.2) (by simp [Call.about])⟩
  | mutex_set_inheritance => exact ⟨by simp, fun u => Iff.rfl⟩
  | @mutex_lock t m timeout_ms hf =>
    unfold System.lock
    rcases mutex_lock S.kernel m t timeout_ms with ⟨_ | code, K⟩
    · exact ⟨by simp [Event.about],
        setCall_about (S := S.withKernel K) (hown hf.2) (by simp [Call.about])⟩
    · exact ⟨by simp [Event.about], fun u => Iff.rfl⟩
  | @mutex_unlock _ m _ _ =>
    refine ⟨?_, fun u => Iff.rfl⟩
    unfold System.unlock
    dsimp only
    cases (mutex_unlock S.kernel m).1 <;> simp [Event.about]
  | @semaphore_take _ s _ hf =>
    have hs : s ≠ smph := by simpa [System.touches] using h
    exact ⟨by simp [Event.about, hs], setCall_about (hown hf.2) (by simp [Call.about, hs])⟩
  | semaphore_give => exact ⟨give_about S (by simpa [System.touches] using h), fun u => Iff.rfl⟩
  | proceed _ hstep => exact proceed_about hstep (by simpa [System.touches] using h)
  | _ => exact ⟨by simp, fun u => Iff.rfl⟩

theorem gives_ok_other {h : List Event} (hn : ∀ e ∈ es, e.about ≠ some smph) :
    gives_ok smph (h ++ es) = gives_ok smph h := by
  unfold gives_ok
  rw [List.count_append, List.count_eq_zero.mpr (fun hm => hn _ hm rfl), Nat.add_zero]

theorem takes_ok_other {h : List Event} (hn : ∀ e ∈ es, e.about ≠ some smph) :
    takes_ok smph (h ++ es) = takes_ok smph h := by
  unfold takes_ok
  rw [List.countP_append, Nat.add_eq_left, List.countP_eq_zero]
  intro e he
  have := hn e he
  cases e <;> simp_all [Event.about]

/-- The next section of a take: it returns, with a unit or with nothing changed, or it goes on. -/
theorem proceed_take (hp : S.proceed t = some (es, S')) (h : (S.call t).about = some smph) :
    (∃ code, es = [.take_returns t smph code] ∧ S'.call = update S.call t .own ∧
      (code = E_OK ∨ code = E_TIMED_OUT ∧ S'.kernel = S.kernel)) ∨
    ((es = [.take_waits t smph] ∨ es = []) ∧ S'.kernel.count = S.kernel.count ∧
      ∀ u s, (S'.call u).about = some s ↔ (S.call u).about = some s) := by
  cases System.proceeds hp with
  | @semaphore_take s timeout_ms deadline hc =>
    obtain rfl : s = smph := by rw [hc] at h; exact Option.some.inj h
    unfold System.take
    obtain ⟨-, he⟩ | ⟨-, -, he⟩ | ⟨-, -, -, lists, wake, he⟩ :=
      semaphore_take_effect S.kernel s t timeout_ms deadline
    · rw [he]; exact .inl ⟨_, rfl, rfl, .inl rfl⟩
    · rw [he]; exact .inl ⟨_, rfl, rfl, .inr ⟨rfl, rfl⟩⟩
    · rw [he]
      refine .inr ⟨.inl rfl, rfl, fun u s' => ?_⟩
      by_cases hut : u = t
      · subst hut; simp [hc, Call.about]
      · simp [hut]
  | @semaphore_wait s timeout_ms deadline hc =>
    obtain rfl : s = smph := by rw [hc] at h; exact Option.some.inj h
    unfold System.takeWake semaphore_take_wake
    by_cases hw : S.kernel.wakeup_reason t = .RESOURCE_ACQUIRED
    · rw [if_pos hw]; exact .inl ⟨_, rfl, rfl, .inl rfl⟩
    · rw [if_neg hw]
      refine .inr ⟨.inr rfl, rfl, fun u s' => ?_⟩
      by_cases hut : u = t
      · subst hut; simp [hc, Call.about]
      · simp [hut]
  | block_until hc | delayed hc | mutex_lock hc => rw [hc] at h; cases h

/-- What a give says. -/
theorem give_history {s : SemaphoreId} (h : List Event)
    (hok : (semaphore_give S.kernel s).1 = E_OK) :
    gives_ok s (h ++ (S.give s).1) = gives_ok s h + 1 ∧
      ∀ s', takes_ok s' (h ++ (S.give s).1) = takes_ok s' h := by
  unfold System.give
  dsimp only
  rw [hok]
  cases (semaphore_give S.kernel s).2.1 with
  | none => exact ⟨by simp [gives_ok_concat], fun s' => by simp [takes_ok_concat]⟩
  | some w =>
    rw [← List.append_assoc]
    exact ⟨by rw [gives_ok_concat, gives_ok_concat]; simp,
      fun s' => by rw [takes_ok_concat, takes_ok_concat]; rfl⟩

end Touches

/-! ## The calls of the tasks that do not act -/

section Calls

variable {L : Type} [ListOps L ItemRef ListRef] {S S' : System L} {smph : SemaphoreId} {t u : Tcb}
  {es : List Event}

theorem gives_call : ∀ (smphs : List SemaphoreId) (S : System L), (S.gives smphs).2.call = S.call := by
  intro smphs
  induction smphs with
  | nil => intro S; rfl
  | cons s rest ih => intro S; exact ih (S.give s).2

/-- A section of `u`'s call changes only where `u` is. -/
theorem proceed_call (hp : S.proceed u = some (es, S')) (hu : u ≠ t) : S'.call t = S.call t := by
  cases System.proceeds hp with
  | block_until _ => exact update_of_ne (Ne.symm hu) _ _
  | delayed _ => exact update_of_ne (Ne.symm hu) _ _
  | mutex_lock _ => exact update_of_ne (Ne.symm hu) _ _
  | @semaphore_take s timeout_ms deadline _ =>
    unfold System.take
    rcases semaphore_take S.kernel s u timeout_ms deadline with ⟨_ | code, K⟩
    · exact update_of_ne (Ne.symm hu) _ _
    · exact update_of_ne (Ne.symm hu) _ _
  | semaphore_wait _ =>
    unfold System.takeWake
    rcases semaphore_take_wake S.kernel u with ⟨_ | _, K⟩
    · exact update_of_ne (Ne.symm hu) _ _
    · exact update_of_ne (Ne.symm hu) _ _

theorem step_call {a : Action} (hstep : S.step a = some (es, S')) (ht : a.caller ≠ some t) :
    S'.call t = S.call t := by
  have hne : ∀ {u : Tcb}, some u ≠ some t → t ≠ u := fun h e => h (by rw [e])
  cases System.step_move hstep with
  | @tick _ timer_gives _ => exact congrFun (gives_call timer_gives _) t
  | task_delay_ms _ => exact update_of_ne (hne ht) _ _
  | task_delay_until_ms _ => exact update_of_ne (hne ht) _ _
  | mutex_set_inheritance => rfl
  | @mutex_lock u m timeout_ms _ =>
    unfold System.lock
    rcases mutex_lock S.kernel m u timeout_ms with ⟨_ | code, K⟩
    · exact update_of_ne (hne ht) _ _
    · rfl
  | semaphore_take _ => exact update_of_ne (hne ht) _ _
  | semaphore_give => rfl
  | proceed _ hstep => exact proceed_call hstep (Ne.symm (hne ht))
  | _ => rfl

end Calls

/-! ## A take without a time-out -/

/-- The task is in a `semaphore_take` that does not time out. -/
def Call.takes_forever (smph : SemaphoreId) : Call → Prop
  | .semaphore_take s timeout_ms _ => s = smph ∧ timeout_ms < 0
  | .semaphore_wait s timeout_ms _ => s = smph ∧ timeout_ms < 0
  | _ => False

/-- It returns with a unit, or it goes on. -/
theorem proceed_forever {S S' : System Links} {t : Tcb} {smph : SemaphoreId} {es : List Event}
    (hp : S.proceed t = some (es, S')) (h : (S.call t).takes_forever smph) :
    es = [.take_returns t smph E_OK] ∧ S'.call = update S.call t .own ∨
    (es = [.take_waits t smph] ∨ es = []) ∧
      ∃ k, k.takes_forever smph ∧ k.about = some smph ∧ S'.call = update S.call t k := by
  cases System.proceeds hp with
  | @semaphore_take s timeout_ms deadline hc =>
    rw [hc] at h
    obtain ⟨rfl, hneg⟩ := h
    unfold System.take
    obtain ⟨-, he⟩ | ⟨-, hd, -⟩ | ⟨-, -, -, lists, wake, he⟩ :=
      semaphore_take_effect S.kernel s t timeout_ms deadline
    · rw [he]; exact .inl ⟨rfl, rfl⟩
    · omega
    · rw [he]
      exact .inr ⟨.inl rfl, .semaphore_wait s timeout_ms deadline, ⟨rfl, hneg⟩, rfl, rfl⟩
  | @semaphore_wait s timeout_ms deadline hc =>
    rw [hc] at h
    obtain ⟨rfl, hneg⟩ := h
    unfold System.takeWake semaphore_take_wake
    by_cases hw : S.kernel.wakeup_reason t = .RESOURCE_ACQUIRED
    · rw [if_pos hw]; exact .inl ⟨rfl, rfl⟩
    · rw [if_neg hw]
      exact .inr ⟨.inr rfl, .semaphore_take s timeout_ms deadline, ⟨rfl, hneg⟩, rfl, rfl⟩
  | block_until hc | delayed hc | mutex_lock hc => rw [hc] at h; cases h

end Rpitos
