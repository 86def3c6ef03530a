import Rpitos.Lib.Reach
import Rpitos.Kernel.Types

/-!
# Kernel.Spinlock

`spinlock.c`, Lamport's bakery lock, one load or store at a time. `spinlock_exclusion`: no two cores
are between the return of `spinlock_acquire` and the store of `spinlock_release`.

A core that is past another in the second loop of `spinlock_acquire` has the smaller
(ticket, core id), or the other has no ticket yet and will draw a larger one: it read, or is still
going to read, the first core's ticket. `Ordered` says this for every point of the two loops.
-/

namespace Rpitos

open Function

/-- struct Spinlock. -/
structure Spinlock where
  choosing : CoreId → Nat
  ticket : CoreId → Nat

def spinlock_init : Spinlock where
  choosing _ := 0
  ticket _ := 0

/-- The next load or store of a core. -/
inductive SpinPc where
  /-- Does not use the lock; enters `spinlock_acquire` with the store `choosing[me] = 1`. -/
  | outside
  /-- Load of `ticket[i]` in the first loop; after the loop, the store of `ticket[me]`. -/
  | scan (i max_ticket : Nat)
  /-- The store `choosing[me] = 0`. -/
  | drawn
  /-- Load of `choosing[i]`. -/
  | wait (i : CoreId)
  /-- Load of `ticket[i]` in the second loop. -/
  | load (i : CoreId)
  /-- Load of `ticket[me]` in `their_ticket > lock->ticket[me]`. -/
  | compare (i : CoreId) (their_ticket : Nat)
  /-- Load of `ticket[me]` in `their_ticket == lock->ticket[me]`. -/
  | tie (i : CoreId) (their_ticket : Nat)
  /-- `spinlock_acquire` has returned; leaves with the store of `spinlock_release`. -/
  | inside
  deriving DecidableEq, Repr

/-- The lock and where each core is. -/
structure SpinSystem where
  lock : Spinlock
  pc : CoreId → SpinPc

/-- Round `i` of the second loop, `i == me` skipped. -/
def round (me : CoreId) (i : Nat) : SpinPc :=
  let i := if i = me.val then i + 1 else i
  if h : i < COMPANION_CORE_MAX_CORES then .wait ⟨i, h⟩ else .inside

namespace SpinSystem

def goto (X : SpinSystem) (me : CoreId) (pc : SpinPc) : SpinSystem :=
  { X with pc := update X.pc me pc }

def store_choosing (X : SpinSystem) (me : CoreId) (v : Nat) : SpinSystem :=
  { X with lock := { X.lock with choosing := update X.lock.choosing me v } }

def store_ticket (X : SpinSystem) (me : CoreId) (v : Nat) : SpinSystem :=
  { X with lock := { X.lock with ticket := update X.lock.ticket me v } }

/-- One load or store by core `me`. -/
def next (X : SpinSystem) (me : CoreId) : SpinSystem :=
  match X.pc me with
  | .outside => (X.store_choosing me 1).goto me (.scan 0 0)
  | .scan i max_ticket =>
    if h : i < COMPANION_CORE_MAX_CORES then
      let t := X.lock.ticket ⟨i, h⟩
      X.goto me (.scan (i + 1) (if t > max_ticket then t else max_ticket))
    else (X.store_ticket me (u32 (max_ticket + 1))).goto me .drawn
  | .drawn => (X.store_choosing me 0).goto me (round me 0)
  | .wait i => if X.lock.choosing i ≠ 0 then X else X.goto me (.load i)
  | .load i =>
    let their_ticket := X.lock.ticket i
    if their_ticket = 0 then X.goto me (round me (i + 1))
    else X.goto me (.compare i their_ticket)
  | .compare i their_ticket =>
    if their_ticket > X.lock.ticket me then X.goto me (round me (i + 1))
    else X.goto me (.tie i their_ticket)
  | .tie i their_ticket =>
    if their_ticket = X.lock.ticket me ∧ i > me then X.goto me (round me (i + 1))
    else X.goto me (.load i)
  | .inside => (X.store_ticket me 0).goto me .outside

def step (X : SpinSystem) (me : CoreId) : Option SpinSystem := some (X.next me)

/-- After `spinlock_init`. -/
def boot : SpinSystem where
  lock := spinlock_init
  pc _ := .outside

/-- No drawn ticket reaches 2^32 - 1. -/
def drawsBelow (X : SpinSystem) (me : CoreId) : Prop :=
  (X.next me).lock.ticket me < 2 ^ 32 - 1

instance (X : SpinSystem) (me : CoreId) : Decidable (X.drawsBelow me) :=
  inferInstanceAs (Decidable (_ < _))

/-- At most one core holds the lock. -/
def Exclusive (X : SpinSystem) : Prop :=
  ∀ i j, X.pc i = .inside → X.pc j = .inside → i = j

end SpinSystem

namespace SpinPc

/-- Between the two stores to `choosing`. -/
def isChoosing : SpinPc → Bool
  | scan _ _ => true
  | drawn => true
  | _ => false

/-- Between the two stores to `ticket`. -/
def hasTicket : SpinPc → Bool
  | outside => false
  | scan _ _ => false
  | _ => true

/-- In the second loop. -/
def waiting : SpinPc → Bool
  | wait _ => true
  | load _ => true
  | compare _ _ => true
  | tie _ _ => true
  | _ => false

/-- The ticket that is drawn next, if one is, does not wrap around. -/
def drawsFit : SpinPc → Prop
  | scan i max_ticket => COMPANION_CORE_MAX_CORES ≤ i → max_ticket + 1 < 2 ^ 32
  | _ => True

/-- The second loop is past core `j`. -/
def passed (j : CoreId) : SpinPc → Prop
  | wait k => j < k
  | load k => j < k
  | compare k _ => j < k
  | tie k _ => j < k
  | inside => True
  | _ => False

/-- The second loop has seen that core `j` is not choosing, and looks at its ticket. -/
def reading (j : CoreId) : SpinPc → Prop
  | load k => j = k
  | compare k _ => j = k
  | tie k _ => j = k
  | _ => False

/-- The ticket of core `j` that the second loop has loaded. -/
def loaded (j : CoreId) (their_ticket : Nat) : SpinPc → Prop
  | compare k t => j = k ∧ their_ticket = t
  | tie k t => j = k ∧ their_ticket = t
  | _ => False

end SpinPc

/-- Core `i`, at `p` with ticket `ti`, against core `j`, at `q` with ticket `tj`. -/
structure Ordered (i : CoreId) (p : SpinPc) (ti : Nat) (j : CoreId) (q : SpinPc) (tj : Nat) :
    Prop where
  /-- A core that draws while `i` is at or past it knows the ticket of `i`. -/
  scanned : p.passed j ∨ p.reading j → ∀ k m, q = .scan k m → i.val < k → ti ≤ m
  /-- A core that has drawn while `i` looks at it drew a larger ticket. -/
  drawn : p.reading j → q = .drawn → ti < tj
  /-- The loaded ticket is the current one, or the current one is larger than that of `i`. -/
  loaded : ∀ t, p.loaded j t → q.hasTicket → tj = t ∨ ti < tj
  ahead : p.passed j → q.hasTicket → ti < tj ∨ ti = tj ∧ i.val < j.val

/-- What holds of one core, at `p` with its entries of the arrays, while tickets stay below `limit`. -/
structure SpinCore (limit : Nat) (p : SpinPc) (c t : Nat) : Prop where
  choosing : c = if p.isChoosing then 1 else 0
  ticket : 0 < t ↔ p.hasTicket
  bound : t < limit
  max_ticket : ∀ k m, p = .scan k m → m < limit

structure SpinInv (limit : Nat) (X : SpinSystem) : Prop where
  core : ∀ i, SpinCore limit (X.pc i) (X.lock.choosing i) (X.lock.ticket i)
  ordered : ∀ i j, i ≠ j → Ordered i (X.pc i) (X.lock.ticket i) j (X.pc j) (X.lock.ticket j)

section Round

variable {me j : CoreId} {i : Nat}

theorem round_cases (me : CoreId) (i : Nat) :
    (∃ k : CoreId, round me i = .wait k ∧ (k.val = i ∨ i = me.val ∧ k.val = i + 1)) ∨
      round me i = .inside ∧ (COMPANION_CORE_MAX_CORES ≤ i ∨
        i = me.val ∧ COMPANION_CORE_MAX_CORES ≤ i + 1) := by
  unfold round
  dsimp only
  split <;> split <;> rename_i h1 h2
  · exact .inl ⟨_, rfl, .inr ⟨h1, rfl⟩⟩
  · exact .inr ⟨rfl, .inr ⟨h1, by omega⟩⟩
  · exact .inl ⟨_, rfl, .inl rfl⟩
  · exact .inr ⟨rfl, .inl (by omega)⟩

theorem round_passed (h : (round me i).passed j) : j.val < i ∨ j = me := by
  have hj := j.isLt
  obtain ⟨k, hk, hi⟩ | ⟨hk, hi⟩ := round_cases me i
  · rw [hk] at h
    have h : j.val < k.val := h
    rcases hi with hi | hi
    · exact .inl (by omega)
    · by_cases hji : j.val = i
      · exact .inr (Fin.ext (by omega))
      · exact .inl (by omega)
  · rcases hi with hi | hi
    · exact .inl (by omega)
    · by_cases hji : j.val = i
      · exact .inr (Fin.ext (by omega))
      · exact .inl (by omega)

theorem round_reading : ¬ (round me i).reading j := by
  obtain ⟨k, hk, -⟩ | ⟨hk, -⟩ := round_cases me i <;> rw [hk] <;> exact not_false

theorem round_loaded {t : Nat} : ¬ (round me i).loaded j t := by
  obtain ⟨k, hk, -⟩ | ⟨hk, -⟩ := round_cases me i <;> rw [hk] <;> exact not_false

theorem round_isChoosing : (round me i).isChoosing = false := by
  obtain ⟨k, hk, -⟩ | ⟨hk, -⟩ := round_cases me i <;> rw [hk] <;> rfl

theorem round_hasTicket : (round me i).hasTicket = true := by
  obtain ⟨k, hk, -⟩ | ⟨hk, -⟩ := round_cases me i <;> rw [hk] <;> rfl

theorem round_ne_drawn : round me i ≠ .drawn := by
  obtain ⟨k, hk, -⟩ | ⟨hk, -⟩ := round_cases me i <;> rw [hk] <;> exact SpinPc.noConfusion

theorem round_ne_scan {k m : Nat} : round me i ≠ .scan k m := by
  obtain ⟨k, hk, -⟩ | ⟨hk, -⟩ := round_cases me i <;> rw [hk] <;> exact SpinPc.noConfusion

end Round

theorem SpinPc.loaded.reading {p : SpinPc} {j : CoreId} {t : Nat} (h : p.loaded j t) :
    p.reading j := by
  cases p with
  | compare => exact h.1
  | tie => exact h.1
  | _ => exact h.elim

section Ordered

variable {i j : CoreId} {p q : SpinPc} {ti tj t : Nat}

/-- A core that is not past `j` and does not look at it. -/
theorem Ordered.of_far (hp : ¬ p.passed j) (hr : ¬ p.reading j) (hl : ∀ t, ¬ p.loaded j t) :
    Ordered i p ti j q tj :=
  ⟨fun h => (h.elim hp hr).elim, fun h => (hr h).elim, fun t h => (hl t h).elim,
    fun h => (hp h).elim⟩

/-- The next round, once the cores before it are passed. -/
theorem Ordered.of_round {k : Nat} (hne : i ≠ j)
    (hscan : j.val < k → ∀ k m, q = .scan k m → i.val < k → ti ≤ m)
    (hahead : j.val < k → q.hasTicket → ti < tj ∨ ti = tj ∧ i.val < j.val) :
    Ordered i (round i k) ti j q tj := by
  have hk : (round i k).passed j → j.val < k :=
    fun h => (round_passed h).resolve_right (Ne.symm hne)
  exact ⟨fun h => hscan (hk (h.resolve_right round_reading)), fun h => (round_reading h).elim,
    fun t h => (round_loaded h).elim, fun h => hahead (hk h)⟩

/-- Core `i` passes `k`. -/
theorem Ordered.pass {k : CoreId} (ho : Ordered i p ti j q tj) (hne : i ≠ j)
    (hp : j < k → p.passed j) (hr : j = k → p.reading j)
    (hahead : j = k → q.hasTicket → ti < tj ∨ ti = tj ∧ i.val < j.val) :
    Ordered i (round i (k + 1)) ti j q tj := by
  have hcases : j.val < k.val + 1 → j < k ∨ j = k := by
    intro h
    rcases Nat.lt_succ_iff_lt_or_eq.mp h with h | h
    · exact .inl h
    · exact .inr (Fin.ext h)
  refine .of_round hne (fun h => ?_) (fun h hq => ?_)
  · exact ho.scanned ((hcases h).imp hp hr)
  · rcases hcases h with h | h
    · exact ho.ahead (hp h) hq
    · exact hahead h hq

end Ordered

section Step

variable {X : SpinSystem} {i j me : CoreId}

/-- What a step of `me` does to its own position and entries of the arrays: from `p` to `q`, leaving
`choosing[me]` and `ticket[me]` at `c` and `t`. -/
inductive SpinMove (X : SpinSystem) (me : CoreId) : (p q : SpinPc) → (c t : Nat) → Prop
  | enter : SpinMove X me .outside (.scan 0 0) 1 (X.lock.ticket me)
  | scan {k m m' : Nat} (h : k < COMPANION_CORE_MAX_CORES) (hle : m ≤ m')
      (ht : X.lock.ticket ⟨k, h⟩ ≤ m') (hm : m' = m ∨ m' = X.lock.ticket ⟨k, h⟩) :
      SpinMove X me (.scan k m) (.scan (k + 1) m') (X.lock.choosing me) (X.lock.ticket me)
  | draw {k m : Nat} (h : COMPANION_CORE_MAX_CORES ≤ k) :
      SpinMove X me (.scan k m) .drawn (X.lock.choosing me) (u32 (m + 1))
  | publish : SpinMove X me .drawn (round me 0) 0 (X.lock.ticket me)
  | spin {k : CoreId} :
      SpinMove X me (.wait k) (.wait k) (X.lock.choosing me) (X.lock.ticket me)
  | seen {k : CoreId} (h : X.lock.choosing k = 0) :
      SpinMove X me (.wait k) (.load k) (X.lock.choosing me) (X.lock.ticket me)
  | absent {k : CoreId} (h : X.lock.ticket k = 0) :
      SpinMove X me (.load k) (round me (k + 1)) (X.lock.choosing me) (X.lock.ticket me)
  | load {k : CoreId} :
      SpinMove X me (.load k) (.compare k (X.lock.ticket k)) (X.lock.choosing me)
        (X.lock.ticket me)
  | first {k : CoreId} {their_ticket : Nat} (h : X.lock.ticket me < their_ticket) :
      SpinMove X me (.compare k their_ticket) (round me (k + 1)) (X.lock.choosing me)
        (X.lock.ticket me)
  | not_first {k : CoreId} {their_ticket : Nat} :
      SpinMove X me (.compare k their_ticket) (.tie k their_ticket) (X.lock.choosing me)
        (X.lock.ticket me)
  | tied {k : CoreId} {their_ticket : Nat} (h : their_ticket = X.lock.ticket me) (hk : me < k) :
      SpinMove X me (.tie k their_ticket) (round me (k + 1)) (X.lock.choosing me)
        (X.lock.ticket me)
  | behind {k : CoreId} {their_ticket : Nat} :
      SpinMove X me (.tie k their_ticket) (.load k) (X.lock.choosing me) (X.lock.ticket me)
  | leave : SpinMove X me .inside .outside (X.lock.choosing me) 0

theorem SpinSystem.next_own (X : SpinSystem) (me : CoreId) :
    SpinMove X me (X.pc me) ((X.next me).pc me) ((X.next me).lock.choosing me)
      ((X.next me).lock.ticket me) := by
  have hgoto : ∀ (Y : SpinSystem) (q : SpinPc), (Y.goto me q).pc me = q := by
    intro Y q
    exact update_self ..
  unfold SpinSystem.next
  cases hpc : X.pc me with
  | outside =>
    rw [hgoto]
    simpa [SpinSystem.goto, SpinSystem.store_choosing] using SpinMove.enter
  | scan k m =>
    dsimp only
    split
    · rename_i hk
      rw [hgoto]
      refine .scan hk ?_ ?_ ?_ <;> split <;> omega
    · rename_i hk
      rw [hgoto]
      simpa [SpinSystem.goto, SpinSystem.store_ticket] using SpinMove.draw (by omega)
  | drawn =>
    rw [hgoto]
    simpa [SpinSystem.goto, SpinSystem.store_choosing] using SpinMove.publish
  | wait k =>
    dsimp only
    split
    · rw [hpc]; exact .spin
    · rename_i h
      rw [hgoto]
      exact .seen (by omega)
  | load k =>
    dsimp only
    split
    · rename_i h
      rw [hgoto]
      exact .absent h
    · rw [hgoto]; exact .load
  | compare k their_ticket =>
    dsimp only
    split
    · rename_i h
      rw [hgoto]
      exact .first h
    · rw [hgoto]; exact .not_first
  | tie k their_ticket =>
    dsimp only
    split
    · rename_i h
      rw [hgoto]
      exact .tied h.1 h.2
    · rw [hgoto]; exact .behind
  | inside =>
    rw [hgoto]
    simpa [SpinSystem.goto, SpinSystem.store_ticket] using SpinMove.leave

theorem SpinSystem.next_frame (hne : i ≠ me) :
    (X.next me).pc i = X.pc i ∧ (X.next me).lock.ticket i = X.lock.ticket i ∧
      (X.next me).lock.choosing i = X.lock.choosing i := by
  unfold SpinSystem.next
  cases X.pc me <;> dsimp only <;> try split
  all_goals simp [SpinSystem.goto, SpinSystem.store_choosing, SpinSystem.store_ticket, hne]

section Move

variable {X : SpinSystem} {i j me : CoreId} {p q : SpinPc} {c t limit : Nat}

/-- The next round of a core that has its ticket. -/
theorem SpinCore.of_round {k : Nat} (hc : SpinCore limit p c t) (hp : p.isChoosing = false)
    (ht : p.hasTicket = true) : SpinCore limit (round me k) c t := by
  refine ⟨?_, ?_, hc.bound, fun k' m h => absurd h round_ne_scan⟩
  · rw [hc.choosing, hp, round_isChoosing]
  · rw [hc.ticket, ht, round_hasTicket]

/-- A step of a core keeps what holds of it. -/
theorem SpinMove.core (h : SpinMove X me p q c t)
    (hc : SpinCore limit p (X.lock.choosing me) (X.lock.ticket me))
    (hb : ∀ i, X.lock.ticket i < limit) (hdraw : p.drawsFit) (ht : t < limit) :
    SpinCore limit q c t := by
  have hmax := hc.max_ticket
  cases h with
  | enter =>
    exact ⟨rfl, hc.ticket, ht, fun k m h => by cases h; exact Nat.lt_of_le_of_lt (Nat.zero_le _) ht⟩
  | @scan k m m' hk hle hload hm =>
    refine ⟨hc.choosing, hc.ticket, ht, fun k' m'' h => ?_⟩
    cases h
    rcases hm with rfl | rfl
    · exact hmax k m' rfl
    · exact hb _
  | @draw k m hk =>
    have hfit := hdraw hk
    refine ⟨hc.choosing, ?_, ht, fun k' m' h => (nomatch h)⟩
    unfold u32
    exact ⟨fun _ => rfl, fun _ => by omega⟩
  | publish =>
    refine ⟨?_, ?_, ht, fun k m h => absurd h round_ne_scan⟩
    · rw [round_isChoosing]; rfl
    · rw [round_hasTicket]; exact hc.ticket
  | spin => exact hc
  | seen => exact ⟨hc.choosing, hc.ticket, ht, fun k m h => (nomatch h)⟩
  | absent => exact hc.of_round rfl rfl
  | load => exact ⟨hc.choosing, hc.ticket, ht, fun k m h => (nomatch h)⟩
  | first => exact hc.of_round rfl rfl
  | not_first => exact ⟨hc.choosing, hc.ticket, ht, fun k m h => (nomatch h)⟩
  | tied => exact hc.of_round rfl rfl
  | behind => exact ⟨hc.choosing, hc.ticket, ht, fun k m h => (nomatch h)⟩
  | leave => exact ⟨hc.choosing, by simp [SpinPc.hasTicket], ht, fun k m h => (nomatch h)⟩

/-- A step of a core keeps its order with the others. -/
theorem SpinMove.ordered (h : SpinMove X i p q c t) (hne : i ≠ j)
    (hc : SpinCore limit (X.pc j) (X.lock.choosing j) (X.lock.ticket j))
    (ho : Ordered i p (X.lock.ticket i) j (X.pc j) (X.lock.ticket j)) :
    Ordered i q t j (X.pc j) (X.lock.ticket j) := by
  cases h with
  | enter => exact .of_far not_false not_false fun t => not_false
  | scan => exact .of_far not_false not_false fun t => not_false
  | draw => exact .of_far not_false not_false fun t => not_false
  | publish => exact .of_round hne (fun h => absurd h (by omega)) fun h => absurd h (by omega)
  | spin => exact ho
  | @seen k hk =>
    refine ⟨fun h => ?_, fun h hd => ?_, fun t h => h.elim, ho.ahead⟩
    · rcases h with h | rfl
      · exact ho.scanned (.inl h)
      · intro k' m hs
        have hch := hc.choosing
        rw [hs, hk] at hch
        cases hch
    · cases h
      have hch := hc.choosing
      rw [hd, hk] at hch
      cases hch
  | @absent k hk =>
    refine ho.pass hne (fun h => h) (fun h => h) fun h hq => ?_
    subst h
    have := hc.ticket.mpr hq
    omega
  | @load k => exact ⟨ho.scanned, ho.drawn, fun t h _ => .inl (by rw [h.1, h.2]), ho.ahead⟩
  | @first k their_ticket hlt =>
    refine ho.pass hne (fun h => h) (fun h => h) fun h hq => ?_
    rcases ho.loaded _ ⟨h, rfl⟩ hq with hl | hl <;> exact .inl (by omega)
  | not_first => exact ⟨ho.scanned, ho.drawn, ho.loaded, ho.ahead⟩
  | @tied k their_ticket heq hk =>
    refine ho.pass hne (fun h => h) (fun h => h) fun h hq => ?_
    rcases ho.loaded _ ⟨h, rfl⟩ hq with hl | hl
    · exact .inr ⟨by omega, h ▸ hk⟩
    · exact .inl hl
  | behind => exact ⟨ho.scanned, ho.drawn, fun t h => h.elim, ho.ahead⟩
  | leave => exact .of_far not_false not_false fun t => not_false

/-- A step of another core keeps the order with it. -/
theorem SpinMove.ordered_other (h : SpinMove X j p q c t) (hdraw : p.drawsFit)
    (ho : Ordered i (X.pc i) (X.lock.ticket i) j p (X.lock.ticket j)) :
    Ordered i (X.pc i) (X.lock.ticket i) j q t := by
  have hil := i.isLt
  have hkeep : p.hasTicket = true → q ≠ .drawn → (∀ k m, q ≠ .scan k m) →
      Ordered i (X.pc i) (X.lock.ticket i) j q (X.lock.ticket j) := by
    intro hp hd hs
    exact ⟨fun _ k m h => absurd h (hs k m), fun _ h => absurd h hd,
      fun t' h _ => ho.loaded t' h hp, fun h _ => ho.ahead h hp⟩
  have hround : ∀ k, p.hasTicket = true →
      Ordered i (X.pc i) (X.lock.ticket i) j (round j k) (X.lock.ticket j) := by
    intro k hp
    exact ⟨fun _ k m h => absurd h round_ne_scan, fun _ h => absurd h round_ne_drawn,
      fun t' h _ => ho.loaded t' h hp, fun h _ => ho.ahead h hp⟩
  cases h with
  | enter =>
    refine ⟨fun _ k m h => ?_, fun _ h => (nomatch h), fun _ _ h => (nomatch h), fun _ h => (nomatch h)⟩
    cases h
    intro h
    omega
  | @scan k m m' hk hle hload hm =>
    refine ⟨fun h k' m'' hs hlt => ?_, fun _ h => (nomatch h), fun _ _ h => (nomatch h),
      fun _ h => (nomatch h)⟩
    cases hs
    rcases Nat.lt_succ_iff_lt_or_eq.mp hlt with hlt | heq
    · exact Nat.le_trans (ho.scanned h k m rfl hlt) hle
    · subst heq; exact hload
  | @draw k m hk =>
    have ht : u32 (m + 1) = m + 1 := Nat.mod_eq_of_lt (hdraw hk)
    have hlt : (X.pc i).passed j ∨ (X.pc i).reading j → X.lock.ticket i < u32 (m + 1) := by
      intro h
      have := ho.scanned h k m rfl (by omega)
      omega
    exact ⟨fun _ k m h => (nomatch h), fun h _ => hlt (.inr h),
      fun t h _ => .inr (hlt (.inr h.reading)), fun h _ => .inl (hlt (.inl h))⟩
  | publish => exact hround 0 rfl
  | spin => exact hkeep rfl SpinPc.noConfusion fun _ _ => SpinPc.noConfusion
  | seen => exact hkeep rfl SpinPc.noConfusion fun _ _ => SpinPc.noConfusion
  | absent => exact hround _ rfl
  | load => exact hkeep rfl SpinPc.noConfusion fun _ _ => SpinPc.noConfusion
  | first => exact hround _ rfl
  | not_first => exact hkeep rfl SpinPc.noConfusion fun _ _ => SpinPc.noConfusion
  | tied => exact hround _ rfl
  | behind => exact hkeep rfl SpinPc.noConfusion fun _ _ => SpinPc.noConfusion
  | leave =>
    exact ⟨fun _ k m h => (nomatch h), fun _ h => (nomatch h), fun _ _ h => (nomatch h),
      fun _ h => (nomatch h)⟩

end Move

/-- A step keeps the invariant. -/
theorem SpinInv.step {limit : Nat} (hi : SpinInv limit X) (hdraw : (X.pc me).drawsFit)
    (ht : (X.next me).lock.ticket me < limit) : SpinInv limit (X.next me) := by
  have hmove := X.next_own me
  have hbound : ∀ i, X.lock.ticket i < limit := fun i => (hi.core i).bound
  refine ⟨fun i => ?_, fun i j hne => ?_⟩
  · by_cases him : i = me
    · subst him
      exact hmove.core (hi.core i) hbound hdraw ht
    · obtain ⟨h1, h2, h3⟩ := X.next_frame him
      rw [h1, h2, h3]
      exact hi.core i
  · have ho := hi.ordered i j hne
    by_cases him : i = me
    · subst him
      obtain ⟨h1, h2, -⟩ := X.next_frame (Ne.symm hne)
      rw [h1, h2]
      exact hmove.ordered hne (hi.core j) ho
    · obtain ⟨h1, h2, -⟩ := X.next_frame him
      rw [h1, h2]
      by_cases hjm : j = me
      · subst hjm
        exact hmove.ordered_other hdraw ho
      · obtain ⟨h1, h2, -⟩ := X.next_frame hjm
        rw [h1, h2]
        exact ho

theorem SpinInv.boot {limit : Nat} (hpos : 0 < limit) : SpinInv limit SpinSystem.boot :=
  ⟨fun _ => ⟨rfl, iff_of_false (Nat.lt_irrefl 0) Bool.noConfusion, hpos, fun _ _ h => (nomatch h)⟩,
    fun _ _ _ => .of_far not_false not_false fun _ => not_false⟩

/-- Two cores inside would each have the smaller ticket. -/
theorem SpinInv.exclusive {limit : Nat} (hi : SpinInv limit X) : X.Exclusive := by
  intro i j hpi hpj
  by_contra hne
  have hij := (hi.ordered i j hne).ahead (by rw [hpi]; trivial) (by rw [hpj]; rfl)
  have hji := (hi.ordered j i (Ne.symm hne)).ahead (by rw [hpj]; trivial) (by rw [hpi]; rfl)
  omega

end Step

/-- In every run in which no drawn ticket reaches 2^32 - 1, at most one core holds the lock. -/
theorem spinlock_exclusion {X : SpinSystem}
    (hr : Reach SpinSystem.step SpinSystem.drawsBelow SpinSystem.boot X) : X.Exclusive := by
  have hi : SpinInv (2 ^ 32 - 1) X := by
    refine hr.invariant (.boot (by decide)) ?_
    intro X Y me hi hdraw hstep
    cases hstep
    have hm := (hi.core me).max_ticket
    refine hi.step ?_ hdraw
    cases hpc : X.pc me with
    | scan k m =>
      have hm := hm k m hpc
      exact fun _ => by omega
    | _ => trivial
  exact hi.exclusive

/-- Core 0 draws ticket 1 while core 1 scans; core 1 draws 2 and waits for core 0, which is inside. -/
def two_cores : List CoreId :=
  [0, 1, 0, 0, 0, 0, 0, 1, 1, 1, 1, 1, 0, 1, 1, 0, 0, 0, 0, 0, 0, 1, 1, 1, 0]

theorem two_cores_run : (execute SpinSystem.step SpinSystem.drawsBelow SpinSystem.boot
    two_cores).isSome = true := by rfl

theorem spinlock_exclusion_two_cores : ((execute SpinSystem.step SpinSystem.drawsBelow
    SpinSystem.boot two_cores).get two_cores_run).Exclusive :=
  spinlock_exclusion (Reach.of_exec two_cores .start (Option.some_get two_cores_run).symm)

end Rpitos
