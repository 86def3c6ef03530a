/-!
# Lib.Reach

Reachability in a transition system given by a partial step function, under a guard that says which
steps a run may take. `Reach.invariant` is the induction over runs, and `Reach.of_exec` turns the
execution of a list of steps into a run.
-/

namespace Rpitos

variable {σ α : Type}

/-- The states that allowed steps lead to. -/
inductive Reach (next : σ → α → Option σ) (ok : σ → α → Prop) (s₀ : σ) : σ → Prop
  | start : Reach next ok s₀ s₀
  | step {s s' : σ} {a : α} :
      Reach next ok s₀ s → ok s a → next s a = some s' → Reach next ok s₀ s'

/-- The steps `as` one after the other, `none` when one is not possible or not allowed. -/
def execute (next : σ → α → Option σ) (ok : σ → α → Prop) [∀ s a, Decidable (ok s a)] (s : σ) :
    List α → Option σ
  | [] => some s
  | a :: as =>
    if ok s a then
      match next s a with
      | none => none
      | some s' => execute next ok s' as
    else none

/-- Every step is allowed. -/
def anything : σ → α → Prop := fun _ _ => True

instance (s : σ) (a : α) : Decidable (anything s a) := inferInstanceAs (Decidable True)

theorem execute_cons {next : σ → α → Option σ} {s s' : σ} {a : α} (h : next s a = some s')
    (as : List α) : execute next anything s (a :: as) = execute next anything s' as := by
  have hany : anything s a := trivial
  rw [execute, if_pos hany, h]

/-- The first step of an execution, and the rest. -/
theorem execute_cons_some {next : σ → α → Option σ} {ok : σ → α → Prop}
    [∀ s a, Decidable (ok s a)] {s s'' : σ} {a : α} {as : List α}
    (h : execute next ok s (a :: as) = some s'') :
    ok s a ∧ ∃ s', next s a = some s' ∧ execute next ok s' as = some s'' := by
  unfold execute at h
  obtain ⟨ha, h⟩ := Option.ite_none_right_eq_some.mp h
  cases hn : next s a with
  | none => rw [hn] at h; cases h
  | some s' =>
    rw [hn] at h
    exact ⟨ha, s', rfl, h⟩

/-- What is allowed under a guard is allowed under a weaker one. -/
theorem execute_mono {next : σ → α → Option σ} {ok ok' : σ → α → Prop}
    [∀ s a, Decidable (ok s a)] [∀ s a, Decidable (ok' s a)] (h : ∀ s a, ok s a → ok' s a)
    (as : List α) : ∀ {s s' : σ}, execute next ok s as = some s' → execute next ok' s as = some s' := by
  induction as with
  | nil => exact fun he => he
  | cons a as ih =>
    intro s s' he
    obtain ⟨ha, s₁, hn, he⟩ := execute_cons_some he
    rw [execute, if_pos (h s a ha), hn]
    exact ih he

/-- Two lists of steps, one behind the other. -/
theorem execute_append {next : σ → α → Option σ} {ok : σ → α → Prop}
    [∀ s a, Decidable (ok s a)] (as bs : List α) : ∀ s : σ,
    execute next ok s (as ++ bs) = (execute next ok s as).bind fun s' => execute next ok s' bs := by
  induction as with
  | nil => exact fun _ => rfl
  | cons a as ih =>
    intro s
    rw [List.cons_append, execute, execute]
    by_cases ha : ok s a
    · rw [if_pos ha, if_pos ha]
      cases next s a with
      | none => rfl
      | some s' => exact ih s'
    · rw [if_neg ha, if_neg ha]
      rfl

namespace Reach

variable {next : σ → α → Option σ} {ok ok' : σ → α → Prop} {s₀ s s' : σ}

/-- What holds at the start and is kept by every allowed step holds in every reachable state. -/
theorem invariant {P : σ → Prop} (hr : Reach next ok s₀ s) (h₀ : P s₀)
    (hstep : ∀ s s' a, P s → ok s a → next s a = some s' → P s') : P s := by
  induction hr with
  | start => exact h₀
  | step _ ha hs ih => exact hstep _ _ _ ih ha hs

theorem mono (hr : Reach next ok s₀ s) (h : ∀ s a, ok s a → ok' s a) : Reach next ok' s₀ s := by
  induction hr with
  | start => exact .start
  | step _ ha hs ih => exact ih.step (h _ _ ha) hs

theorem trans {s'' : σ} (hr : Reach next ok s₀ s') (hr' : Reach next ok s' s'') :
    Reach next ok s₀ s'' := by
  induction hr' with
  | start => exact hr
  | step _ ha hs ih => exact ih.step ha hs

theorem of_exec [∀ s a, Decidable (ok s a)] (as : List α) :
    ∀ {s : σ}, Reach next ok s₀ s → execute next ok s as = some s' → Reach next ok s₀ s' := by
  induction as with
  | nil => intro s hr he; cases he; exact hr
  | cons a as ih =>
    intro s hr he
    obtain ⟨ha, s₁, hn, he⟩ := execute_cons_some he
    exact ih (hr.step ha hn) he

end Reach
end Rpitos
