import Mathlib.Logic.Function.Basic
import Mathlib.Logic.Relation

/-!
# Lib.LockOrder

Programs that take locks, when every lock has a rank. `Ordered`: a program takes locks in increasing
rank, releases what it holds, and says what it holds at its end. `Ordered.run`: so does every run of
it, whatever others do to the shared state meanwhile. `no_wait_cycle`: actors that run such programs
never wait for each other in a circle, and `some_actor_runs` says that one of them can go on.
-/

namespace Rpitos

open Function (update update_self update_of_ne)

inductive LockOp (ℓ : Type) where
  | acquire (l : ℓ)
  | release (l : ℓ)
  deriving DecidableEq, Repr

section Discipline

variable {ℓ : Type} [DecidableEq ℓ]

/-- The locks held after an operation; `none` when it breaks the order, or releases a lock that is
not held. -/
def LockOp.run (rank : ℓ → Nat) (held : List ℓ) : LockOp ℓ → Option (List ℓ)
  | .acquire l => if ∀ m ∈ held, rank m < rank l then some (l :: held) else none
  | .release l => if l ∈ held then some (held.erase l) else none

/-- The locks held after an operation that may break the order. -/
def LockOp.apply (held : List ℓ) : LockOp ℓ → List ℓ
  | .acquire l => l :: held
  | .release l => held.erase l

/-- The locks held after some operations; `none` when one of them breaks the order. -/
def run_locks (rank : ℓ → Nat) : List ℓ → List (LockOp ℓ) → Option (List ℓ)
  | held, [] => some held
  | held, op :: ops => (op.run rank held).bind fun held => run_locks rank held ops

theorem run_locks_append {rank : ℓ → Nat} (ops ops' : List (LockOp ℓ)) :
    ∀ held, run_locks rank held (ops ++ ops') =
      (run_locks rank held ops).bind fun held => run_locks rank held ops' := by
  induction ops with
  | nil => intro held; rfl
  | cons op ops ih =>
    intro held
    rw [List.cons_append, run_locks, run_locks]
    cases op.run rank held with
    | none => rfl
    | some held' => exact ih held'

theorem LockOp.apply_eq {rank : ℓ → Nat} {op : LockOp ℓ} {held held' : List ℓ}
    (h : op.run rank held = some held') : op.apply held = held' := by
  cases op with
  | acquire l =>
    rw [run] at h
    split at h
    · exact Option.some.inj h
    · cases h
  | release l =>
    rw [run] at h
    split at h
    · exact Option.some.inj h
    · cases h

theorem run_locks_eq {rank : ℓ → Nat} {ops : List (LockOp ℓ)} :
    ∀ {held held' : List ℓ}, run_locks rank held ops = some held' →
      ops.foldl LockOp.apply held = held' := by
  induction ops with
  | nil =>
    intro held held' h
    exact Option.some.inj h
  | cons op ops ih =>
    intro held held' h
    obtain ⟨held₁, hop, h⟩ := Option.bind_eq_some_iff.mp h
    rw [List.foldl_cons, LockOp.apply_eq hop]
    exact ih h

/-- An operation keeps the held locks in decreasing rank, the last one first. -/
theorem LockOp.run_decreasing {rank : ℓ → Nat} {op : LockOp ℓ} {held held' : List ℓ}
    (h : op.run rank held = some held') (hheld : held.Pairwise fun l m => rank m < rank l) :
    held'.Pairwise fun l m => rank m < rank l := by
  cases op with
  | acquire l =>
    rw [run] at h
    split at h
    case isTrue hl =>
      cases h
      exact List.pairwise_cons.mpr ⟨hl, hheld⟩
    case isFalse => cases h
  | release l =>
    rw [run] at h
    split at h
    case isTrue =>
      cases h
      exact hheld.sublist List.erase_sublist
    case isFalse => cases h

theorem run_locks_decreasing {rank : ℓ → Nat} {ops : List (LockOp ℓ)} :
    ∀ {held held' : List ℓ}, run_locks rank held ops = some held' →
      held.Pairwise (fun l m => rank m < rank l) → held'.Pairwise fun l m => rank m < rank l := by
  induction ops with
  | nil =>
    intro held held' h hheld
    cases h
    exact hheld
  | cons op ops ih =>
    intro held held' h hheld
    obtain ⟨held₁, hop, h⟩ := Option.bind_eq_some_iff.mp h
    exact ih h (LockOp.run_decreasing hop hheld)

end Discipline

/-- A program over a shared state of type `σ` that returns an `α`. -/
inductive LockProg (σ ℓ : Type) : Type → Type 1 where
  | ret {α : Type} (a : α) : LockProg σ ℓ α
  | acquire {α : Type} (l : ℓ) (next : LockProg σ ℓ α) : LockProg σ ℓ α
  | release {α : Type} (l : ℓ) (next : LockProg σ ℓ α) : LockProg σ ℓ α
  /-- Reads and writes the shared state. -/
  | access {α β : Type} (f : σ → β × σ) (next : β → LockProg σ ℓ α) : LockProg σ ℓ α
  /-- Repeats the body until it returns a result. -/
  | loop {α β : Type} (body : LockProg σ ℓ (Option β)) (next : β → LockProg σ ℓ α) :
      LockProg σ ℓ α

namespace LockProg

variable {σ ℓ α β : Type}

def bind : {α : Type} → LockProg σ ℓ α → (α → LockProg σ ℓ β) → LockProg σ ℓ β
  | _, .ret a, k => k a
  | _, .acquire l next, k => .acquire l (next.bind k)
  | _, .release l next, k => .release l (next.bind k)
  | _, .access f next, k => .access f fun b => (next b).bind k
  | _, .loop body next, k => .loop body fun b => (next b).bind k

instance : Monad (LockProg σ ℓ) where
  pure := .ret
  bind := .bind

/-- What comes after one round of a loop. -/
def again (body : LockProg σ ℓ (Option β)) (next : β → LockProg σ ℓ α) :
    Option β → LockProg σ ℓ α
  | some b => next b
  | none => .loop body next

/-- One step: the operations on locks, the shared state and the rest of the program. -/
def step (s : σ) : LockProg σ ℓ α → Option (List (LockOp ℓ) × σ × LockProg σ ℓ α)
  | .ret _ => none
  | .acquire l next => some ([.acquire l], s, next)
  | .release l next => some ([.release l], s, next)
  | .access f next => some ([], (f s).2, next (f s).1)
  | .loop body next => some ([], s, body.bind (again body next))

/-- Some steps of a program. Between two of them the shared state may change as `env` allows. -/
inductive Run (env : σ → σ → Prop) :
    LockProg σ ℓ α → σ → List (LockOp ℓ) → LockProg σ ℓ α → σ → Prop
  | refl {p : LockProg σ ℓ α} {s : σ} : Run env p s [] p s
  | others {p q : LockProg σ ℓ α} {s s₁ s' : σ} {ops : List (LockOp ℓ)} :
      env s s₁ → Run env p s₁ ops q s' → Run env p s ops q s'
  | step {p p₁ q : LockProg σ ℓ α} {s s₁ s' : σ} {ops ops' : List (LockOp ℓ)} :
      p.step s = some (ops, s₁, p₁) → Run env p₁ s₁ ops' q s' → Run env p s (ops ++ ops') q s'

/-- `f` until it returns a result, at most `fuel` times. -/
def repeat_until (f : σ → Option (Option β × σ)) : Nat → σ → Option (β × σ)
  | 0, _ => none
  | fuel + 1, s =>
    match f s with
    | some (some b, s) => some (b, s)
    | some (none, s) => repeat_until f fuel s
    | none => none

/-- What the program does to the shared state when it is alone; `none` when a loop takes more than
`fuel` rounds. -/
def exec (fuel : Nat) : {α : Type} → LockProg σ ℓ α → σ → Option (α × σ)
  | _, .ret a, s => some (a, s)
  | _, .acquire _ next, s => next.exec fuel s
  | _, .release _ next, s => next.exec fuel s
  | _, .access f next, s => (next (f s).1).exec fuel (f s).2
  | _, .loop body next, s =>
    (repeat_until (fun s => body.exec fuel s) fuel s).bind fun r => (next r.1).exec fuel r.2

def lock (l : ℓ) : LockProg σ ℓ Unit := .acquire l (.ret ())

def unlock (l : ℓ) : LockProg σ ℓ Unit := .release l (.ret ())

def get : LockProg σ ℓ σ := .access (fun s => (s, s)) .ret

def modify (f : σ → σ) : LockProg σ ℓ Unit := .access (fun s => ((), f s)) .ret

/-- Reads and writes the shared state in one step. -/
def atomically (f : σ → α × σ) : LockProg σ ℓ α := .access f .ret

/-- Repeats the body until it returns a result. -/
def repeating (body : LockProg σ ℓ (Option α)) : LockProg σ ℓ α := .loop body .ret

/-- Never ends. -/
def hang : LockProg σ ℓ α := .loop (.ret none) .ret

theorem bind_assoc {γ : Type} (p : LockProg σ ℓ α) (k : α → LockProg σ ℓ β)
    (k' : β → LockProg σ ℓ γ) : (p.bind k).bind k' = p.bind fun a => (k a).bind k' := by
  induction p with
  | ret a => rfl
  | acquire l next ih => exact congrArg (acquire l) (ih k)
  | release l next ih => exact congrArg (release l) (ih k)
  | access f next ih => exact congrArg (access f) (funext fun b => ih b k)
  | loop body next _ ih => exact congrArg (loop body) (funext fun b => ih b k)

/-- The steps of a program are the steps of what begins with it. -/
theorem step_bind {p p' : LockProg σ ℓ α} {s s' : σ} {ops : List (LockOp ℓ)}
    (h : p.step s = some (ops, s', p')) (k : α → LockProg σ ℓ β) :
    (p.bind k).step s = some (ops, s', p'.bind k) := by
  cases p with
  | ret a => cases h
  | acquire l next => cases h; rfl
  | release l next => cases h; rfl
  | access f next => cases h; rfl
  | loop body next =>
    cases h
    have hagain : again body (fun b => (next b).bind k) = fun r => (again body next r).bind k := by
      funext r
      cases r <;> rfl
    rw [bind_assoc, ← hagain]
    rfl

namespace Run

variable {env : σ → σ → Prop} {p q r : LockProg σ ℓ α} {s s' s'' : σ} {ops ops' : List (LockOp ℓ)}

theorem trans (h : Run env p s ops q s') (h' : Run env q s' ops' r s'') :
    Run env p s (ops ++ ops') r s'' := by
  induction h with
  | refl => exact h'
  | others he _ ih => exact .others he (ih h')
  | step hs _ ih =>
    rw [List.append_assoc]
    exact .step hs (ih h')

theorem bind (h : Run env p s ops q s') (k : α → LockProg σ ℓ β) :
    Run env (p.bind k) s ops (q.bind k) s' := by
  induction h with
  | refl => exact .refl
  | others he _ ih => exact .others he ih
  | step hs _ ih => exact .step (step_bind hs k) ih

end Run

/-- A loop whose body runs as `f` says. -/
theorem run_repeat {env : σ → σ → Prop} {body : LockProg σ ℓ (Option β)}
    {f : σ → Option (Option β × σ)}
    (hbody : ∀ s r s', f s = some (r, s') → ∃ ops, Run env body s ops (.ret r) s')
    (next : β → LockProg σ ℓ α) (fuel : Nat) :
    ∀ {s s' : σ} {b : β}, repeat_until f fuel s = some (b, s') →
      ∃ ops, Run env (.loop body next) s ops (next b) s' := by
  induction fuel with
  | zero =>
    intro s s' b h
    cases h
  | succ fuel ih =>
    intro s s' b h
    rw [repeat_until] at h
    cases hf : f s with
    | none => rw [hf] at h; cases h
    | some r =>
      obtain ⟨r, s₁⟩ := r
      obtain ⟨ops, hrun⟩ := hbody s r s₁ hf
      have hstep : (LockProg.loop body next).step s =
          some ([], s, body.bind (again body next)) := rfl
      have hround : Run env (.loop body next) s ops (again body next r) s₁ :=
        .step hstep (hrun.bind (again body next))
      rw [hf] at h
      cases r with
      | some b' =>
        cases h
        exact ⟨ops, hround⟩
      | none =>
        obtain ⟨ops', hrest⟩ := ih h
        exact ⟨ops ++ ops', hround.trans hrest⟩

/-- What a program does alone is one of its runs. -/
theorem run_exec (env : σ → σ → Prop) {fuel : Nat} {p : LockProg σ ℓ α} :
    ∀ {s s' : σ} {a : α}, p.exec fuel s = some (a, s') → ∃ ops, Run env p s ops (.ret a) s' := by
  induction p with
  | ret a =>
    intro s s' a' h
    cases h
    exact ⟨[], .refl⟩
  | acquire l next ih =>
    intro s s' a h
    obtain ⟨ops, hrun⟩ := ih h
    exact ⟨_, .step rfl hrun⟩
  | release l next ih =>
    intro s s' a h
    obtain ⟨ops, hrun⟩ := ih h
    exact ⟨_, .step rfl hrun⟩
  | access f next ih =>
    intro s s' a h
    obtain ⟨ops, hrun⟩ := ih _ h
    exact ⟨_, .step rfl hrun⟩
  | loop body next ihbody ih =>
    intro s s' a h
    obtain ⟨⟨b, s₁⟩, hrepeat, hnext⟩ := Option.bind_eq_some_iff.mp h
    obtain ⟨ops, hloop⟩ := run_repeat (fun _ _ _ => ihbody) next fuel hrepeat
    obtain ⟨ops', hrun⟩ := ih b hnext
    exact ⟨ops ++ ops', hloop.trans hrun⟩

/-- A program alone, one part after the other. -/
@[simp] theorem exec_bind (fuel : Nat) (p : LockProg σ ℓ α) (k : α → LockProg σ ℓ β) :
    ∀ s, (p >>= k).exec fuel s = (p.exec fuel s).bind fun r => (k r.1).exec fuel r.2 := by
  induction p with
  | ret a => intro s; rfl
  | acquire l next ih => exact ih k
  | release l next ih => exact ih k
  | access f next ih => intro s; exact ih _ k _
  | loop body next _ ih =>
    intro s
    show (repeat_until _ fuel s).bind _ = ((repeat_until _ fuel s).bind _).bind _
    rw [Option.bind_assoc]
    exact congrArg _ (funext fun r => ih r.1 k r.2)

section Exec

variable (fuel : Nat) (s : σ)

@[simp] theorem exec_pure (a : α) : (pure a : LockProg σ ℓ α).exec fuel s = some (a, s) := rfl

@[simp] theorem exec_lock (l : ℓ) : (lock l).exec fuel s = some ((), s) := rfl

@[simp] theorem exec_unlock (l : ℓ) : (unlock l).exec fuel s = some ((), s) := rfl

@[simp] theorem exec_get : (get : LockProg σ ℓ σ).exec fuel s = some (s, s) := rfl

@[simp] theorem exec_modify (f : σ → σ) :
    (modify f : LockProg σ ℓ Unit).exec fuel s = some ((), f s) := rfl

@[simp] theorem exec_atomically (f : σ → α × σ) :
    (atomically f : LockProg σ ℓ α).exec fuel s = some (f s) := rfl

@[simp] theorem exec_ite {c : Prop} [Decidable c] (p q : LockProg σ ℓ α) :
    (if c then p else q).exec fuel s = if c then p.exec fuel s else q.exec fuel s := by
  split <;> rfl

end Exec

section Order

variable [DecidableEq ℓ] {rank : ℓ → Nat} {held held₁ held₂ : List ℓ}

/-- From the locks `held` on, the program keeps the order; it holds `held'` when it returns. -/
def Ordered (rank : ℓ → Nat) : {α : Type} → LockProg σ ℓ α → (held held' : List ℓ) → Prop
  | _, .ret _, held, held' => held = held'
  | _, .acquire l next, held, held' =>
    (∀ m ∈ held, rank m < rank l) ∧ next.Ordered rank (l :: held) held'
  | _, .release l next, held, held' => l ∈ held ∧ next.Ordered rank (held.erase l) held'
  | _, .access _ next, held, held' => ∀ b, (next b).Ordered rank held held'
  | _, .loop body next, held, held' =>
    body.Ordered rank held held ∧ ∀ b, (next b).Ordered rank held held'

namespace Ordered

@[simp] theorem pure (a : α) :
    (Pure.pure a : LockProg σ ℓ α).Ordered rank held held₁ ↔ held = held₁ := Iff.rfl

@[simp] theorem lock_bind (l : ℓ) (k : Unit → LockProg σ ℓ α) :
    (lock l >>= k).Ordered rank held held₁ ↔
      (∀ m ∈ held, rank m < rank l) ∧ (k ()).Ordered rank (l :: held) held₁ := Iff.rfl

@[simp] theorem unlock_bind (l : ℓ) (k : Unit → LockProg σ ℓ α) :
    (unlock l >>= k).Ordered rank held held₁ ↔
      l ∈ held ∧ (k ()).Ordered rank (held.erase l) held₁ := Iff.rfl

@[simp] theorem unlock (l : ℓ) :
    (unlock l : LockProg σ ℓ Unit).Ordered rank held held₁ ↔ l ∈ held ∧ held.erase l = held₁ :=
  Iff.rfl

@[simp] theorem get_bind (k : σ → LockProg σ ℓ α) :
    (get >>= k).Ordered rank held held₁ ↔ ∀ s, (k s).Ordered rank held held₁ := Iff.rfl

@[simp] theorem modify_bind (f : σ → σ) (k : Unit → LockProg σ ℓ α) :
    (modify f >>= k).Ordered rank held held₁ ↔ (k ()).Ordered rank held held₁ :=
  ⟨fun h => h (), fun h _ => h⟩

@[simp] theorem modify (f : σ → σ) :
    (modify f : LockProg σ ℓ Unit).Ordered rank held held₁ ↔ held = held₁ :=
  ⟨fun h => h (), fun h _ => h⟩

@[simp] theorem atomically_bind (f : σ → α × σ) (k : α → LockProg σ ℓ β) :
    (atomically f >>= k).Ordered rank held held₁ ↔ ∀ a, (k a).Ordered rank held held₁ := Iff.rfl

@[simp] theorem ite {c : Prop} [Decidable c] (p q : LockProg σ ℓ α) :
    (if c then p else q).Ordered rank held held₁ ↔
      (c → p.Ordered rank held held₁) ∧ (¬ c → q.Ordered rank held held₁) := by
  by_cases hc : c <;> simp [hc]

/-- One program after another. -/
theorem bind {p : LockProg σ ℓ α} {k : α → LockProg σ ℓ β} :
    ∀ {held : List ℓ}, p.Ordered rank held held₁ → (∀ a, (k a).Ordered rank held₁ held₂) →
      (p >>= k).Ordered rank held held₂ := by
  induction p with
  | ret a =>
    intro held hp hk
    cases hp
    exact hk a
  | acquire l next ih =>
    intro held hp hk
    exact ⟨hp.1, ih hp.2 hk⟩
  | release l next ih =>
    intro held hp hk
    exact ⟨hp.1, ih hp.2 hk⟩
  | access f next ih =>
    intro held hp hk b
    exact ih b (hp b) hk
  | loop body next _ ih =>
    intro held hp hk
    exact ⟨hp.1, fun b => ih b (hp.2 b) hk⟩

theorem repeating {body : LockProg σ ℓ (Option α)} (h : body.Ordered rank held held) :
    (repeating body).Ordered rank held held :=
  ⟨h, fun _ => rfl⟩

theorem hang : (hang : LockProg σ ℓ α).Ordered rank held held :=
  ⟨rfl, fun _ => rfl⟩

theorem step {p q : LockProg σ ℓ α} {s s' : σ} {ops : List (LockOp ℓ)}
    (h : p.Ordered rank held held₂) (hs : p.step s = some (ops, s', q)) :
    ∃ held₁, run_locks rank held ops = some held₁ ∧ q.Ordered rank held₁ held₂ := by
  cases p with
  | ret a => cases hs
  | acquire l next =>
    cases hs
    refine ⟨l :: held, ?_, h.2⟩
    rw [run_locks, LockOp.run, if_pos h.1]
    rfl
  | release l next =>
    cases hs
    refine ⟨held.erase l, ?_, h.2⟩
    rw [run_locks, LockOp.run, if_pos h.1]
    rfl
  | access f next =>
    cases hs
    exact ⟨held, rfl, h _⟩
  | loop body next =>
    cases hs
    refine ⟨held, rfl, bind h.1 fun r => ?_⟩
    cases r with
    | some b => exact h.2 b
    | none => exact h

/-- Every run keeps the order. -/
theorem run {env : σ → σ → Prop} {p q : LockProg σ ℓ α} {s s' : σ} {ops : List (LockOp ℓ)}
    (hrun : Run env p s ops q s') : ∀ {held : List ℓ}, p.Ordered rank held held₂ →
      ∃ held₁, run_locks rank held ops = some held₁ ∧ q.Ordered rank held₁ held₂ := by
  induction hrun with
  | refl =>
    intro held h
    exact ⟨held, rfl, h⟩
  | others _ _ ih =>
    intro held h
    exact ih h
  | step hs _ ih =>
    intro held h
    obtain ⟨held₁, hops, h⟩ := h.step hs
    obtain ⟨held₂, hops', h⟩ := ih h
    refine ⟨held₂, ?_, h⟩
    rw [run_locks_append, hops]
    exact hops'

end Ordered
end Order

end LockProg

/-- Actors that run programs over one shared state, and the locks each of them holds. -/
structure Actors (κ σ ℓ : Type) where
  shared : σ
  code : κ → LockProg σ ℓ Unit
  held : κ → List ℓ

namespace Actors

variable {κ σ ℓ : Type} [DecidableEq ℓ]

/-- Nobody has begun a program or holds a lock. -/
def AtRest (X : Actors κ σ ℓ) : Prop := ∀ i, X.code i = .ret () ∧ X.held i = []

/-- Actor `i` waits for a lock that `j` holds. -/
def WaitsFor (X : Actors κ σ ℓ) (i j : κ) : Prop :=
  ∃ l next, X.code i = .acquire l next ∧ l ∈ X.held j

/-- What is left of each program keeps the order, and leaves no lock. -/
def Disciplined (rank : ℓ → Nat) (X : Actors κ σ ℓ) : Prop :=
  ∀ i, (X.code i).Ordered rank (X.held i) []

section Waiting

variable {rank : ℓ → Nat} {X : Actors κ σ ℓ} {i j : κ}

theorem AtRest.disciplined (h : X.AtRest) : X.Disciplined rank := by
  intro i
  rw [(h i).1, (h i).2]
  rfl

/-- An actor that waits holds locks of smaller rank only. -/
theorem Disciplined.held_lt (h : X.Disciplined rank) {l : ℓ} {next : LockProg σ ℓ Unit}
    (hcode : X.code i = .acquire l next) : ∀ m ∈ X.held i, rank m < rank l := by
  have hi := h i
  rw [hcode] at hi
  exact hi.1

/-- Along a chain of waiting actors the ranks of the awaited locks increase. -/
theorem Disciplined.waits_lt (h : X.Disciplined rank) (hwaits : Relation.TransGen X.WaitsFor i j)
    {l l' : ℓ} {next next' : LockProg σ ℓ Unit} (hi : X.code i = .acquire l next)
    (hj : X.code j = .acquire l' next') : rank l < rank l' := by
  induction hwaits generalizing l' next' with
  | single hij =>
    obtain ⟨m, next₁, hcode, hm⟩ := hij
    rw [hi] at hcode
    cases hcode
    exact h.held_lt hj l hm
  | tail _ hlast ih =>
    obtain ⟨m, next₁, hcode, hm⟩ := hlast
    exact Nat.lt_trans (ih hcode) (h.held_lt hj m hm)

theorem no_wait_cycle (h : X.Disciplined rank) (i : κ) : ¬ Relation.TransGen X.WaitsFor i i := by
  intro hcycle
  obtain ⟨j, ⟨l, next, hcode, _⟩, _⟩ := Relation.TransGen.head'_iff.mp hcycle
  exact Nat.lt_irrefl _ (h.waits_lt hcycle hcode hcode)

end Waiting

section Moves

variable [DecidableEq κ]

/-- Actor `i` makes its next step; a lock that it acquires is free. -/
inductive Go (X : Actors κ σ ℓ) (i : κ) : Actors κ σ ℓ → Prop
  | go {ops : List (LockOp ℓ)} {s : σ} {p : LockProg σ ℓ Unit} :
      (X.code i).step X.shared = some (ops, s, p) →
      (∀ l, .acquire l ∈ ops → ∀ j, l ∉ X.held j) →
      Go X i { shared := s, code := update X.code i p,
               held := update X.held i (ops.foldl LockOp.apply (X.held i)) }

/-- A step: an actor that has nothing to do begins one of `programs`, or an actor goes on, or others
change the shared state. -/
inductive Step (programs : LockProg σ ℓ Unit → Prop) (X : Actors κ σ ℓ) : Actors κ σ ℓ → Prop
  | start {i : κ} {p : LockProg σ ℓ Unit} :
      X.code i = .ret () → programs p → Step programs X { X with code := update X.code i p }
  | go {i : κ} {Y : Actors κ σ ℓ} : X.Go i Y → Step programs X Y
  | others (s : σ) : Step programs X { X with shared := s }

variable {rank : ℓ → Nat} {programs : LockProg σ ℓ Unit → Prop} {X Y : Actors κ σ ℓ} {i j : κ}

theorem Go.acquire {l : ℓ} {next : LockProg σ ℓ Unit} (hcode : X.code i = .acquire l next)
    (hfree : ∀ j, l ∉ X.held j) :
    X.Go i { X with code := update X.code i next, held := update X.held i (l :: X.held i) } := by
  have hstep : (X.code i).step X.shared = some ([.acquire l], X.shared, next) := by
    rw [hcode]
    rfl
  refine Go.go hstep fun m hm => ?_
  cases List.mem_singleton.mp hm
  exact hfree

theorem Go.access {s : σ} {p : LockProg σ ℓ Unit}
    (hstep : (X.code i).step X.shared = some ([], s, p)) :
    X.Go i { X with shared := s, code := update X.code i p } := by
  have hgo := Go.go hstep (fun l hl => (List.not_mem_nil hl).elim)
  rwa [List.foldl_nil, Function.update_eq_self] at hgo

theorem Disciplined.go (h : X.Disciplined rank) (hgo : X.Go i Y) : Y.Disciplined rank := by
  cases hgo with
  | go hstep _ =>
    intro j
    by_cases hij : j = i
    · subst hij
      obtain ⟨held, hops, hordered⟩ := (h j).step hstep
      dsimp only
      rw [update_self, update_self, run_locks_eq hops]
      exact hordered
    · dsimp only
      rw [update_of_ne hij, update_of_ne hij]
      exact h j

theorem Disciplined.step (hprograms : ∀ p, programs p → p.Ordered rank [] [])
    (h : X.Disciplined rank) (hstep : X.Step programs Y) : Y.Disciplined rank := by
  cases hstep with
  | @start i p hrest hp =>
    intro j
    by_cases hij : j = i
    · subst hij
      have hheld : X.held j = [] := by
        have hj := h j
        rw [hrest] at hj
        exact hj
      dsimp only
      rw [update_self, hheld]
      exact hprograms p hp
    · dsimp only
      rw [update_of_ne hij]
      exact h j
  | go hgo => exact h.go hgo
  | others s => exact h

theorem Disciplined.reach (hprograms : ∀ p, programs p → p.Ordered rank [] [])
    (h : X.Disciplined rank) (hr : Relation.ReflTransGen (Step programs) X Y) :
    Y.Disciplined rank := by
  induction hr with
  | refl => exact h
  | tail _ hstep ih => exact ih.step hprograms hstep

/-- An actor is at rest, or before an acquisition, or it can go on. -/
theorem Go.of_code (X : Actors κ σ ℓ) (i : κ) :
    X.code i = .ret () ∨ (∃ l next, X.code i = .acquire l next) ∨ ∃ Y, X.Go i Y := by
  cases hcode : X.code i with
  | ret a => exact .inl rfl
  | acquire l next => exact .inr (.inl ⟨l, next, rfl⟩)
  | release l next => exact .inr (.inr ⟨_, .go (by rw [hcode]; rfl) (by simp)⟩)
  | access f next => exact .inr (.inr ⟨_, .go (by rw [hcode]; rfl) (by simp)⟩)
  | loop body next => exact .inr (.inr ⟨_, .go (by rw [hcode]; rfl) (by simp)⟩)

/-- A free lock can be acquired. -/
theorem Go.of_free {l : ℓ} {next : LockProg σ ℓ Unit} (hcode : X.code i = .acquire l next)
    (hfree : ∀ j, l ∉ X.held j) : ∃ Y, X.Go i Y := by
  refine ⟨_, .go (by rw [hcode]; rfl) fun m hm => ?_⟩
  cases List.mem_singleton.mp hm
  exact hfree

/-- When an actor waits, the last one of the chain can go on: the ranks are below `n`. -/
theorem Disciplined.waiting_runs (h : X.Disciplined rank) {n : Nat} (hbound : ∀ l, rank l < n)
    (k : Nat) : ∀ {i : κ} {l : ℓ} {next : LockProg σ ℓ Unit}, X.code i = .acquire l next →
      n ≤ rank l + k → ∃ j Y, X.Go j Y := by
  induction k with
  | zero =>
    intro i l next hcode hn
    exact absurd (hbound l) (Nat.not_lt.mpr hn)
  | succ k ih =>
    intro i l next hcode hn
    by_cases hfree : ∀ j, l ∉ X.held j
    · exact ⟨i, Go.of_free hcode hfree⟩
    · obtain ⟨j, hj⟩ := not_forall_not.mp hfree
      obtain hrest | ⟨l', next', hcode'⟩ | ⟨Y, hgo⟩ := Go.of_code X j
      · have hheld := h j
        rw [hrest] at hheld
        rw [show X.held j = [] from hheld] at hj
        cases hj
      · have hlt := h.held_lt hcode' l hj
        exact ih hcode' (by omega)
      · exact ⟨j, Y, hgo⟩

/-- While an actor has something to do, some actor can go on. -/
theorem some_actor_runs (h : X.Disciplined rank) {n : Nat} (hbound : ∀ l, rank l < n)
    (hbusy : X.code i ≠ .ret ()) : ∃ j Y, X.Go j Y := by
  obtain hrest | ⟨l, next, hcode⟩ | ⟨Y, hgo⟩ := Go.of_code X i
  · exact absurd hrest hbusy
  · exact h.waiting_runs hbound n hcode (Nat.le_add_left n _)
  · exact ⟨i, Y, hgo⟩

end Moves
end Actors
end Rpitos
