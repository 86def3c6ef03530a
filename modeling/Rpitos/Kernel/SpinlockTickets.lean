import Rpitos.Kernel.Spinlock

/-!
# Kernel.SpinlockTickets

What the tickets of the bakery lock promise while none of them wraps around. `spinlock_fcfs`: a core
that has its ticket before another enters the doorway goes first, and when nobody is in the doorway or
inside, the core with the least ticket is not held up. `tickets_competing`: a ticket is larger than
every ticket it was drawn against, and is never taken for "not competing", as long as fewer than
2^32 - 1 tickets have been drawn before it since the lock was last unused. `tickets_wrap`: two cores
that keep the lock contended draw every ticket up to 2^32 - 1, and then 0.
-/

namespace Rpitos

open Function

namespace SpinSystem

/-- The ticket that this step draws, if it draws one, does not wrap around. -/
def drawsFit (X : SpinSystem) (me : CoreId) : Prop := (X.pc me).drawsFit

instance (p : SpinPc) : Decidable p.drawsFit :=
  match p with
  | .scan i max_ticket =>
    inferInstanceAs (Decidable (COMPANION_CORE_MAX_CORES ≤ i → max_ticket + 1 < 2 ^ 32))
  | .outside | .drawn | .wait _ | .load _ | .compare _ _ | .tie _ _ | .inside => isTrue trivial

instance (X : SpinSystem) (me : CoreId) : Decidable (X.drawsFit me) :=
  inferInstanceAs (Decidable (SpinPc.drawsFit _))

/-- No waiting test of core `me` holds it up at core `k`. -/
def Passes (X : SpinSystem) (me k : CoreId) : Prop :=
  X.lock.choosing k = 0 ∧ (X.lock.ticket k = 0 ∨ X.lock.ticket me < X.lock.ticket k ∨
    X.lock.ticket k = X.lock.ticket me ∧ me < k)

/-- Only core `me` takes steps. -/
def alone (me : CoreId) : SpinSystem → CoreId → Prop := fun _ i => i = me

/-- No ticket wraps around, and core `i` does not return from `spinlock_acquire`. -/
def held_up (i : CoreId) (X : SpinSystem) (me : CoreId) : Prop :=
  X.drawsFit me ∧ (X.next me).pc i ≠ .inside

instance (i : CoreId) (X : SpinSystem) (me : CoreId) : Decidable (held_up i X me) :=
  inferInstanceAs (Decidable (_ ∧ _))

end SpinSystem

section Fcfs

variable {X Y : SpinSystem} {i j me : CoreId}

theorem SpinPc.hasTicket_of_waiting {p : SpinPc} (h : p.waiting = true) : p.hasTicket = true := by
  cases p with
  | outside => cases h
  | scan => cases h
  | _ => rfl

/-- A ticket is a word. -/
theorem SpinMove.ticket_lt {p q : SpinPc} {c t : Nat} (h : SpinMove X me p q c t)
    (hb : X.lock.ticket me < 2 ^ 32) : t < 2 ^ 32 := by
  cases h with
  | draw => exact Nat.mod_lt _ (by decide)
  | leave => decide
  | _ => exact hb

/-- The tickets are right as long as none wraps. -/
theorem SpinInv.reach (hr : Reach SpinSystem.step SpinSystem.drawsFit SpinSystem.boot X) :
    SpinInv (2 ^ 32) X := by
  refine hr.invariant (.boot (by decide)) ?_
  intro X Y me hi hdraw hstep
  cases hstep
  exact hi.step hdraw ((X.next_own me).ticket_lt (hi.core me).bound)

/-- Core `j`, at `q` with ticket `tj`, entered its doorway when core `i` had its ticket `ti`. -/
structure Later (i : CoreId) (ti : Nat) (q : SpinPc) (tj : Nat) : Prop where
  scanned : ∀ k m, q = .scan k m → i.val < k → ti ≤ m
  larger : q.hasTicket = true → ti < tj
  loaded : ∀ t, q.loaded i t → t = ti
  short : ¬q.passed i

/-- Core `i` waits in its second loop, and core `j` is later. -/
structure Behind (i j : CoreId) (X : SpinSystem) : Prop where
  waits : (X.pc i).waiting = true
  later : Later i (X.lock.ticket i) (X.pc j) (X.lock.ticket j)

/-- A core in its second loop stays there, with its ticket, until it is inside. -/
theorem SpinMove.waiting {p q : SpinPc} {c t : Nat} (h : SpinMove X me p q c t)
    (hp : p.waiting = true) (hin : q ≠ .inside) : q.waiting = true ∧ t = X.lock.ticket me := by
  have hround : ∀ k, round me k ≠ .inside → (round me k).waiting = true := by
    intro k hk
    obtain ⟨k', hk', -⟩ | ⟨hk', -⟩ := round_cases me k
    · rw [hk']
      rfl
    · exact (hk hk').elim
  cases h with
  | enter => cases hp
  | scan => cases hp
  | draw => cases hp
  | publish => cases hp
  | leave => cases hp
  | absent => exact ⟨hround _ hin, rfl⟩
  | first => exact ⟨hround _ hin, rfl⟩
  | tied => exact ⟨hround _ hin, rfl⟩
  | _ => exact ⟨rfl, rfl⟩

/-- The next round, when the later core was at a core other than `i`. -/
theorem Later.pass {k : CoreId} {p : SpinPc} {ti tj : Nat} (h : Later i ti p tj) (hne : i ≠ j)
    (hp : p.hasTicket = true) (hpass : i < k → p.passed i) (hk : i ≠ k) :
    Later i ti (round j (k + 1)) tj where
  scanned k' m hs := absurd hs round_ne_scan
  larger _ := h.larger hp
  loaded t hl := (round_loaded hl).elim
  short hs := by
    rcases round_passed hs with hlt | heq
    · exact h.short (hpass (Nat.lt_of_le_of_ne (Nat.le_of_lt_succ hlt) fun he => hk (Fin.ext he)))
    · exact hne heq

/-- The later core cannot get past `i`. -/
theorem SpinMove.later {p q : SpinPc} {c t : Nat} (h : SpinMove X j p q c t) (hne : i ≠ j)
    (hl : Later i (X.lock.ticket i) p (X.lock.ticket j)) (hpos : 0 < X.lock.ticket i)
    (hdraw : p.drawsFit) : Later i (X.lock.ticket i) q t := by
  cases h with
  | enter =>
    refine ⟨fun k m hs hlt => ?_, fun h => (nomatch h), fun t h => h.elim, not_false⟩
    cases hs
    exact absurd hlt (Nat.not_lt_zero _)
  | @scan k m m' hk hle hload hm =>
    refine ⟨fun k' m'' hs hlt => ?_, fun h => (nomatch h), fun t h => h.elim, not_false⟩
    cases hs
    rcases Nat.lt_succ_iff_lt_or_eq.mp hlt with hlt | heq
    · exact Nat.le_trans (hl.scanned k m rfl hlt) hle
    · subst heq
      exact hload
  | @draw k m hk =>
    refine ⟨fun k' m' hs => (nomatch hs), fun _ => ?_, fun t h => h.elim, not_false⟩
    have hfit : u32 (m + 1) = m + 1 := Nat.mod_eq_of_lt (hdraw hk)
    have hle := hl.scanned k m rfl (Nat.lt_of_lt_of_le i.isLt hk)
    omega
  | publish =>
    refine ⟨fun k m hs => absurd hs round_ne_scan, fun _ => hl.larger rfl,
      fun t h => (round_loaded h).elim, fun h => ?_⟩
    exact (round_passed h).elim (Nat.not_lt_zero _) hne
  | spin => exact hl
  | seen => exact ⟨fun k m hs => (nomatch hs), fun _ => hl.larger rfl, fun t h => h.elim, hl.short⟩
  | @absent k hk =>
    refine hl.pass hne rfl (fun h => h) fun hik => ?_
    subst hik
    omega
  | @load k =>
    refine ⟨fun k m hs => (nomatch hs), fun _ => hl.larger rfl, fun t h => ?_, hl.short⟩
    rw [h.2, h.1]
  | @first k their_ticket hlt =>
    refine hl.pass hne rfl (fun h => h) fun hik => ?_
    have heq := hl.loaded their_ticket ⟨hik, rfl⟩
    have hlarger := hl.larger rfl
    omega
  | not_first => exact ⟨fun k m hs => (nomatch hs), fun _ => hl.larger rfl, hl.loaded, hl.short⟩
  | @tied k their_ticket heq hk =>
    refine hl.pass hne rfl (fun h => h) fun hik => ?_
    have heq' := hl.loaded their_ticket ⟨hik, rfl⟩
    have hlarger := hl.larger rfl
    omega
  | behind => exact ⟨fun k m hs => (nomatch hs), fun _ => hl.larger rfl, fun t h => h.elim, hl.short⟩
  | leave => exact (hl.short trivial).elim

/-- A step keeps the later core behind, as long as `i` does not return. -/
theorem Behind.step (h : Behind i j X) (hne : i ≠ j) (hi : SpinInv (2 ^ 32) X)
    (hok : SpinSystem.held_up i X me) : Behind i j (X.next me) := by
  have hmove := X.next_own me
  by_cases him : i = me
  · subst him
    obtain ⟨hwaits, hti⟩ := hmove.waiting h.waits hok.2
    obtain ⟨hpj, htj, -⟩ := X.next_frame (Ne.symm hne)
    refine ⟨hwaits, ?_⟩
    rw [hti, hpj, htj]
    exact h.later
  · obtain ⟨hpi, hti, -⟩ := X.next_frame him
    refine ⟨hpi ▸ h.waits, ?_⟩
    rw [hti]
    by_cases hjm : j = me
    · subst hjm
      exact hmove.later hne h.later ((hi.core i).ticket.mpr (SpinPc.hasTicket_of_waiting h.waits)) hok.1
    · obtain ⟨hpj, htj, -⟩ := X.next_frame hjm
      rw [hpj, htj]
      exact h.later

end Fcfs

section Alone

variable {X Y Z : SpinSystem} {me k : CoreId} {p q : SpinPc} {i m : Nat}

@[simp] theorem SpinSystem.goto_lock (X : SpinSystem) (me : CoreId) (p : SpinPc) :
    (X.goto me p).lock = X.lock := rfl

@[simp] theorem SpinSystem.goto_pc (X : SpinSystem) (me : CoreId) (p : SpinPc) :
    (X.goto me p).pc me = p := update_self ..

@[simp] theorem SpinSystem.goto_goto (X : SpinSystem) (me : CoreId) (p q : SpinPc) :
    (X.goto me p).goto me q = X.goto me q := by
  unfold SpinSystem.goto
  rw [update_idem]

theorem SpinSystem.goto_self (h : X.pc me = p) : X.goto me p = X := by
  unfold SpinSystem.goto
  rw [← h, update_eq_self]

/-- One step more. -/
theorem Reach.alone_step (hr : Reach SpinSystem.step (SpinSystem.alone me) X Y) (h : Y.next me = Z) :
    Reach SpinSystem.step (SpinSystem.alone me) X Z :=
  hr.step rfl (congrArg some h)

/-- The rest of the first loop: the maximum is one of the tickets, and no ticket is larger. -/
theorem SpinSystem.scan_alone (X : SpinSystem) (me : CoreId) (n : Nat) : ∀ i m,
    i + n = COMPANION_CORE_MAX_CORES → ∃ M,
      Reach SpinSystem.step (SpinSystem.alone me) (X.goto me (.scan i m))
        (X.goto me (.scan COMPANION_CORE_MAX_CORES M)) ∧
      m ≤ M ∧ (∀ j : CoreId, i ≤ j.val → X.lock.ticket j ≤ M) ∧ (M = m ∨ ∃ j, M = X.lock.ticket j) := by
  induction n with
  | zero =>
    intro i m hi
    rw [Nat.add_zero] at hi
    subst hi
    exact ⟨m, .start, Nat.le_refl m, fun j hj => absurd hj (Nat.not_le_of_lt j.isLt), .inl rfl⟩
  | succ n ih =>
    intro i m hi
    have hlt : i < COMPANION_CORE_MAX_CORES := by omega
    let t := X.lock.ticket ⟨i, hlt⟩
    have hnext : (X.goto me (.scan i m)).next me =
        X.goto me (.scan (i + 1) (if t > m then t else m)) := by
      unfold SpinSystem.next
      rw [SpinSystem.goto_pc]
      dsimp only
      rw [dif_pos hlt, SpinSystem.goto_goto]
      rfl
    obtain ⟨M, hrun, hm, hall, hfrom⟩ := ih (i + 1) (if t > m then t else m) (by omega)
    have htm : t ≤ M ∧ m ≤ M := by
      split at hm <;> omega
    refine ⟨M, (Reach.alone_step .start hnext).trans hrun, htm.2, fun j hj => ?_, ?_⟩
    · rcases Nat.lt_or_eq_of_le hj with hj | hj
      · exact hall j hj
      · rw [show j = ⟨i, hlt⟩ from Fin.ext hj.symm]
        exact htm.1
    · split at hfrom
      · exact .inr (hfrom.elim (fun h => ⟨_, h⟩) id)
      · exact hfrom

/-- The doorway: the ticket is one more than the largest. -/
theorem SpinSystem.doorway_alone (h : X.pc me = .outside) : ∃ M,
    Reach SpinSystem.step (SpinSystem.alone me) X
      (((X.store_choosing me 0).store_ticket me (u32 (M + 1))).goto me (round me 0)) ∧
    (∀ j, X.lock.ticket j ≤ M) ∧ (M = 0 ∨ ∃ j, M = X.lock.ticket j) := by
  have henter : X.next me = (X.store_choosing me 1).goto me (.scan 0 0) := by
    unfold SpinSystem.next
    rw [h]
  obtain ⟨M, hrun, -, hall, hfrom⟩ :=
    (X.store_choosing me 1).scan_alone me COMPANION_CORE_MAX_CORES 0 0 (Nat.zero_add _)
  have hdraw : ((X.store_choosing me 1).goto me (.scan COMPANION_CORE_MAX_CORES M)).next me =
      ((X.store_choosing me 1).store_ticket me (u32 (M + 1))).goto me .drawn := by
    unfold SpinSystem.next
    rw [SpinSystem.goto_pc]
    dsimp only
    rw [dif_neg (Nat.lt_irrefl _)]
    simp only [SpinSystem.goto, SpinSystem.store_choosing, SpinSystem.store_ticket, update_idem]
  have hpublish : (((X.store_choosing me 1).store_ticket me (u32 (M + 1))).goto me .drawn).next me =
      ((X.store_choosing me 0).store_ticket me (u32 (M + 1))).goto me (round me 0) := by
    unfold SpinSystem.next
    rw [SpinSystem.goto_pc]
    simp only [SpinSystem.goto, SpinSystem.store_choosing, SpinSystem.store_ticket, update_idem]
  refine ⟨M, ?_, fun j => hall j (Nat.zero_le _), hfrom⟩
  exact (((Reach.alone_step .start henter).trans hrun).alone_step hdraw).alone_step hpublish

/-- The tests of one round, when they pass. -/
theorem SpinSystem.load_alone (hp : X.Passes me k) :
    Reach SpinSystem.step (SpinSystem.alone me) (X.goto me (.load k))
      (X.goto me (round me (k + 1))) := by
  by_cases h0 : X.lock.ticket k = 0
  · refine Reach.alone_step .start ?_
    unfold SpinSystem.next
    rw [goto_pc]
    dsimp only
    rw [goto_lock, if_pos h0, goto_goto]
  · have hload : (X.goto me (.load k)).next me = X.goto me (.compare k (X.lock.ticket k)) := by
      unfold SpinSystem.next
      rw [goto_pc]
      dsimp only
      rw [goto_lock, if_neg h0, goto_goto]
    refine (Reach.alone_step .start hload).trans ?_
    by_cases hlt : X.lock.ticket me < X.lock.ticket k
    · refine Reach.alone_step .start ?_
      unfold SpinSystem.next
      rw [goto_pc]
      dsimp only
      rw [goto_lock, if_pos hlt, goto_goto]
    · have htie := (hp.2.resolve_left h0).resolve_left hlt
      have hcompare : (X.goto me (.compare k (X.lock.ticket k))).next me =
          X.goto me (.tie k (X.lock.ticket k)) := by
        unfold SpinSystem.next
        rw [goto_pc]
        dsimp only
        rw [goto_lock, if_neg hlt, goto_goto]
      refine (Reach.alone_step .start hcompare).alone_step ?_
      unfold SpinSystem.next
      rw [goto_pc]
      dsimp only
      rw [goto_lock, if_pos htie, goto_goto]

theorem round_ne_own (me : CoreId) (i : Nat) : round me i ≠ .wait me := by
  unfold round
  dsimp only
  split
  · split
    · rename_i hi h
      intro hw
      injection hw with hw
      have hw := congrArg Fin.val hw
      dsimp only at hw
      omega
    · exact SpinPc.noConfusion
  · split
    · rename_i hi h
      intro hw
      injection hw with hw
      exact hi (congrArg Fin.val hw)
    · exact SpinPc.noConfusion

/-- The rest of the second loop, when every test passes. -/
theorem SpinSystem.round_alone (hp : ∀ k, k ≠ me → X.Passes me k) (n : Nat) : ∀ i,
    COMPANION_CORE_MAX_CORES ≤ i + n →
      Reach SpinSystem.step (SpinSystem.alone me) (X.goto me (round me i)) (X.goto me .inside) := by
  induction n with
  | zero =>
    intro i hi
    obtain ⟨k, -, hk⟩ | ⟨hk, -⟩ := round_cases me i
    · have := k.isLt
      omega
    · rw [hk]
      exact .start
  | succ n ih =>
    intro i hi
    obtain ⟨k, hround, hk⟩ | ⟨hround, -⟩ := round_cases me i
    · have hne : k ≠ me := fun h => round_ne_own me i (h ▸ hround)
      have hwait : (X.goto me (.wait k)).next me = X.goto me (.load k) := by
        unfold SpinSystem.next
        rw [goto_pc]
        dsimp only
        rw [goto_lock, if_neg (not_not.mpr (hp k hne).1), goto_goto]
      rw [hround]
      exact ((Reach.alone_step .start hwait).trans (load_alone (hp k hne))).trans
        (ih (k + 1) (by omega))
    · rw [hround]
      exact .start

/-- The core that the second loop is at. -/
def SpinPc.target : SpinPc → Option CoreId
  | .wait k => some k
  | .load k => some k
  | .compare k _ => some k
  | .tie k _ => some k
  | _ => none

/-- The second loop skips the core itself. -/
theorem SpinMove.target {p q : SpinPc} {c t : Nat} (h : SpinMove X me p q c t)
    (hp : p.target ≠ some me) : q.target ≠ some me := by
  have hround : ∀ k, (round me k).target ≠ some me := by
    intro k hk
    obtain ⟨k', hk', -⟩ | ⟨hk', -⟩ := round_cases me k
    · rw [hk'] at hk
      exact round_ne_own me k (hk'.trans (congrArg SpinPc.wait (Option.some.inj hk)))
    · rw [hk'] at hk
      cases hk
  cases h with
  | enter => exact nofun
  | scan => exact nofun
  | draw => exact nofun
  | leave => exact nofun
  | publish => exact hround _
  | absent => exact hround _
  | first => exact hround _
  | tied => exact hround _
  | spin => exact hp
  | seen => exact hp
  | load => exact hp
  | not_first => exact hp
  | behind => exact hp

theorem SpinSystem.target_ne (hr : Reach SpinSystem.step SpinSystem.drawsFit SpinSystem.boot X)
    (me : CoreId) : (X.pc me).target ≠ some me := by
  have hall : ∀ i, (X.pc i).target ≠ some i := by
    refine hr.invariant (P := fun X => ∀ i, (X.pc i).target ≠ some i) ?_ ?_
    · exact fun _ h => nomatch h
    · intro X Y me hi _ hstep
      cases hstep
      intro i
      by_cases him : i = me
      · subst him
        exact (X.next_own i).target (hi i)
      · rw [(X.next_frame him).1]
        exact hi i
  exact hall me

/-- A core that no test holds up gets inside on its own. -/
theorem SpinSystem.enters_alone (hw : (X.pc me).waiting = true) (ht : (X.pc me).target ≠ some me)
    (hp : ∀ k, k ≠ me → X.Passes me k) :
    Reach SpinSystem.step (SpinSystem.alone me) X (X.goto me .inside) := by
  have hrest : ∀ i, Reach SpinSystem.step (SpinSystem.alone me) (X.goto me (round me i))
      (X.goto me .inside) := fun i => round_alone hp _ i (Nat.le_add_left _ i)
  have hload : ∀ k, k ≠ me → Reach SpinSystem.step (SpinSystem.alone me) (X.goto me (.load k))
      (X.goto me .inside) := fun k hk => (load_alone (hp k hk)).trans (hrest (k + 1))
  -- the tests with a ticket that was loaded before
  have htie : ∀ k t, k ≠ me → Reach SpinSystem.step (SpinSystem.alone me) (X.goto me (.tie k t))
      (X.goto me .inside) := by
    intro k t hk
    by_cases h : t = X.lock.ticket me ∧ me < k
    · refine (Reach.alone_step .start ?_).trans (hrest (k + 1))
      unfold SpinSystem.next
      rw [goto_pc]
      dsimp only
      rw [goto_lock, if_pos h, goto_goto]
    · refine (Reach.alone_step .start ?_).trans (hload k hk)
      unfold SpinSystem.next
      rw [goto_pc]
      dsimp only
      rw [goto_lock, if_neg h, goto_goto]
  cases hpc : X.pc me with
  | wait k =>
    have hk : k ≠ me := fun h => ht (by rw [hpc, h]; rfl)
    refine (Reach.alone_step .start ?_).trans (hload k hk)
    unfold SpinSystem.next
    rw [hpc]
    dsimp only
    rw [if_neg (not_not.mpr (hp k hk).1)]
  | load k =>
    have hk : k ≠ me := fun h => ht (by rw [hpc, h]; rfl)
    have hrun := hload k hk
    rw [goto_self hpc] at hrun
    exact hrun
  | compare k t =>
    have hk : k ≠ me := fun h => ht (by rw [hpc, h]; rfl)
    by_cases h : t > X.lock.ticket me
    · refine (Reach.alone_step .start ?_).trans (hrest (k + 1))
      unfold SpinSystem.next
      rw [hpc]
      dsimp only
      rw [if_pos h]
    · refine (Reach.alone_step .start ?_).trans (htie k t hk)
      unfold SpinSystem.next
      rw [hpc]
      dsimp only
      rw [if_neg h]
  | tie k t =>
    have hk : k ≠ me := fun h => ht (by rw [hpc, h]; rfl)
    have hrun := htie k t hk
    rw [goto_self hpc] at hrun
    exact hrun
  | _ => exact nomatch (hpc ▸ hw)

end Alone

/-- While no ticket wraps around: a core in its second loop goes before one that has not entered its
doorway; and when no core is in its doorway or inside, no test holds up the core with the least
(ticket, core id), which gets inside on its own. -/
theorem spinlock_fcfs {X : SpinSystem}
    (hr : Reach SpinSystem.step SpinSystem.drawsFit SpinSystem.boot X) :
    (∀ i j Y, i ≠ j → (X.pc i).waiting = true → X.pc j = .outside →
      Reach SpinSystem.step (SpinSystem.held_up i) X Y → Y.pc j ≠ .inside) ∧
    ((∀ i, (X.pc i).isChoosing = false ∧ X.pc i ≠ .inside) → ∀ i, (X.pc i).waiting = true →
      (∀ j, j ≠ i → (X.pc j).waiting = true → X.lock.ticket i < X.lock.ticket j ∨
        X.lock.ticket i = X.lock.ticket j ∧ i < j) →
      (∀ j, j ≠ i → X.Passes i j) ∧
        Reach SpinSystem.step (SpinSystem.alone i) X (X.goto i .inside)) := by
  have hinv := SpinInv.reach hr
  refine ⟨fun i j Y hne hi hj hrun hin => ?_, fun hfree i hi hleast => ?_⟩
  · have hbehind : Behind i j Y ∧ SpinInv (2 ^ 32) Y := by
      have hlater : Later i (X.lock.ticket i) (X.pc j) (X.lock.ticket j) := by
        rw [hj]
        exact ⟨fun k m h => (nomatch h), fun h => (nomatch h), fun t h => h.elim, not_false⟩
      refine hrun.invariant (P := fun Z => Behind i j Z ∧ SpinInv (2 ^ 32) Z) ?_ ?_
      · exact ⟨⟨hi, hlater⟩, hinv⟩
      · intro Z Z' me hZ hok hstep
        cases hstep
        refine ⟨hZ.1.step hne hZ.2 hok, hZ.2.step hok.1 ?_⟩
        exact (Z.next_own me).ticket_lt (hZ.2.core me).bound
    refine hbehind.1.later.short ?_
    rw [hin]
    trivial
  · have hpasses : ∀ j, j ≠ i → X.Passes i j := by
      intro j hne
      refine ⟨?_, ?_⟩
      · rw [(hinv.core j).choosing, (hfree j).1]
        rfl
      · cases hpos : (X.pc j).hasTicket with
        | false =>
          refine .inl (Nat.eq_zero_of_not_pos fun h => ?_)
          exact nomatch hpos.symm.trans ((hinv.core j).ticket.mp h)
        | true =>
          have hwaits : (X.pc j).waiting = true := by
            obtain ⟨hchoosing, hin⟩ := hfree j
            cases hpc : X.pc j with
            | outside => rw [hpc] at hpos; cases hpos
            | scan k m => rw [hpc] at hpos; cases hpos
            | drawn => rw [hpc] at hchoosing; cases hchoosing
            | inside => exact (hin hpc).elim
            | _ => rfl
          exact .inr ((hleast j hne hwaits).imp_right fun h => ⟨h.1.symm, h.2⟩)
    exact ⟨hpasses, SpinSystem.enters_alone hi (SpinSystem.target_ne hr i) hpasses⟩

/-- Core 0 goes through its doorway and waits, then core 1 goes through its own, and does not get
inside; and when both of them wait, nothing holds up core 0, which gets inside on its own. -/
theorem spinlock_fcfs_two_cores :
    (∃ X Y, execute SpinSystem.step SpinSystem.drawsFit SpinSystem.boot (List.replicate 7 0) = some X ∧
      (X.pc 0).waiting = true ∧ X.pc 1 = .outside ∧
      execute SpinSystem.step (SpinSystem.held_up 0) X (List.replicate 12 1) = some Y ∧
      (Y.pc 1).waiting = true ∧ Y.pc 1 ≠ .inside) ∧
    ∃ Z, execute SpinSystem.step SpinSystem.drawsFit SpinSystem.boot
        (List.replicate 7 0 ++ List.replicate 7 1) = some Z ∧
      (Z.pc 0).waiting = true ∧ (Z.pc 1).waiting = true ∧ (∀ j, j ≠ 0 → Z.Passes 0 j) ∧
      Reach SpinSystem.step (SpinSystem.alone 0) Z (Z.goto 0 .inside) := by
  constructor
  · have hruns : (execute SpinSystem.step SpinSystem.drawsFit SpinSystem.boot
        (List.replicate 7 0)).map (fun X => ((X.pc 0).waiting, X.pc 1,
          (execute SpinSystem.step (SpinSystem.held_up 0) X (List.replicate 12 1)).map
            fun Y => (Y.pc 1).waiting)) = some (true, .outside, some true) := by
      decide +kernel
    obtain ⟨X, hX, h⟩ := Option.map_eq_some_iff.mp hruns
    simp only [Prod.mk.injEq] at h
    obtain ⟨hwaits, houtside, hrest⟩ := h
    obtain ⟨Y, hY, hlater⟩ := Option.map_eq_some_iff.mp hrest
    refine ⟨X, Y, hX, hwaits, houtside, hY, hlater, ?_⟩
    exact (spinlock_fcfs (Reach.of_exec _ .start hX)).1 0 1 Y (by decide) hwaits houtside
      (Reach.of_exec _ .start hY)
  · have hrun : (execute SpinSystem.step SpinSystem.drawsFit SpinSystem.boot
        (List.replicate 7 0 ++ List.replicate 7 1)).map (fun Z =>
          ((Z.pc 0).waiting, (Z.pc 1).waiting,
            decide (∀ i, (Z.pc i).isChoosing = false ∧ Z.pc i ≠ .inside),
            decide (∀ j, j ≠ 0 → (Z.pc j).waiting = true → Z.lock.ticket 0 < Z.lock.ticket j ∨
              Z.lock.ticket 0 = Z.lock.ticket j ∧ 0 < j))) = some (true, true, true, true) := by
      decide +kernel
    obtain ⟨Z, hZ, h⟩ := Option.map_eq_some_iff.mp hrun
    simp only [Prod.mk.injEq, decide_eq_true_eq] at h
    obtain ⟨hwaits, hwaits', hfree, hleast⟩ := h
    exact ⟨Z, hZ, hwaits, hwaits',
      (spinlock_fcfs (Reach.of_exec _ .start hZ)).2 hfree 0 hwaits hleast⟩

/-- The lock, and the tickets that each core has read since it entered its doorway. -/
structure SpinReads where
  system : SpinSystem
  reads : CoreId → List Nat

/-- The tickets that a core has read, behind its step at `p`. -/
def SpinSystem.reads_after (X : SpinSystem) (p : SpinPc) (reads : List Nat) : List Nat :=
  match p with
  | .outside => []
  | .scan i _ =>
    if h : i < COMPANION_CORE_MAX_CORES then reads ++ [X.lock.ticket ⟨i, h⟩] else reads
  | _ => reads

namespace SpinReads

def step (R : SpinReads) (me : CoreId) : Option SpinReads :=
  some { system := R.system.next me
         reads := update R.reads me (R.system.reads_after (R.system.pc me) (R.reads me)) }

def drawsFit (R : SpinReads) (me : CoreId) : Prop := R.system.drawsFit me

instance (R : SpinReads) (me : CoreId) : Decidable (R.drawsFit me) :=
  inferInstanceAs (Decidable (SpinSystem.drawsFit _ _))

def boot : SpinReads where
  system := .boot
  reads _ := []

end SpinReads

/-- What a core has read is no larger than its maximum, and then smaller than its ticket. -/
structure ReadsBelow (p : SpinPc) (t : Nat) (reads : List Nat) : Prop where
  scanned : ∀ k m, p = .scan k m → ∀ r ∈ reads, r ≤ m
  drawn : p.hasTicket = true → ∀ r ∈ reads, r < t

theorem SpinMove.reads {X : SpinSystem} {me : CoreId} {p q : SpinPc} {c t : Nat} {reads : List Nat}
    (h : SpinMove X me p q c t) (hdraw : p.drawsFit)
    (hr : ReadsBelow p (X.lock.ticket me) reads) : ReadsBelow q t (X.reads_after p reads) := by
  cases h with
  | enter => exact ⟨fun _ _ _ r hm => (nomatch hm), fun h => nomatch h⟩
  | @scan k m m' hk hle hload hm =>
    refine ⟨fun k' m'' hs r hmem => ?_, fun h => nomatch h⟩
    cases hs
    unfold SpinSystem.reads_after at hmem
    dsimp only at hmem
    rw [dif_pos hk] at hmem
    rcases List.mem_append.mp hmem with hmem | hmem
    · exact Nat.le_trans (hr.scanned k m rfl r hmem) hle
    · rw [List.mem_singleton.mp hmem]
      exact hload
  | @draw k m hk =>
    refine ⟨fun k' m' hs => (nomatch hs), fun _ r hmem => ?_⟩
    have hfit : u32 (m + 1) = m + 1 := Nat.mod_eq_of_lt (hdraw hk)
    unfold SpinSystem.reads_after at hmem
    dsimp only at hmem
    rw [dif_neg (Nat.not_lt_of_le hk)] at hmem
    have hle := hr.scanned k m rfl r hmem
    omega
  | publish => exact ⟨fun _ _ hs => absurd hs round_ne_scan, fun _ => hr.drawn rfl⟩
  | absent => exact ⟨fun _ _ hs => absurd hs round_ne_scan, fun _ => hr.drawn rfl⟩
  | first => exact ⟨fun _ _ hs => absurd hs round_ne_scan, fun _ => hr.drawn rfl⟩
  | tied => exact ⟨fun _ _ hs => absurd hs round_ne_scan, fun _ => hr.drawn rfl⟩
  | leave => exact ⟨fun _ _ hs => (nomatch hs), fun h => nomatch h⟩
  | _ => exact ⟨fun _ _ hs => (nomatch hs), fun _ => hr.drawn rfl⟩

namespace SpinReads

/-- What the cores have read, as long as no ticket wraps. -/
theorem reads_below {R : SpinReads} (hr : Reach SpinReads.step SpinReads.drawsFit SpinReads.boot R) :
    SpinInv (2 ^ 32) R.system ∧
      ∀ i, ReadsBelow (R.system.pc i) (R.system.lock.ticket i) (R.reads i) := by
  refine hr.invariant (P := fun R => SpinInv (2 ^ 32) R.system ∧
    ∀ i, ReadsBelow (R.system.pc i) (R.system.lock.ticket i) (R.reads i)) ?_ ?_
  · exact ⟨.boot (by decide), fun _ => ⟨fun _ _ hs => (nomatch hs), fun h => nomatch h⟩⟩
  · intro R R' me ⟨hspin, hreads⟩ hdraw hstep
    cases hstep
    have hmove := R.system.next_own me
    refine ⟨hspin.step hdraw (hmove.ticket_lt (hspin.core me).bound), fun i => ?_⟩
    dsimp only
    by_cases him : i = me
    · subst him
      rw [update_self]
      exact hmove.reads hdraw (hreads i)
    · obtain ⟨hpc, ht, -⟩ := R.system.next_frame him
      rw [hpc, ht, update_of_ne him]
      exact hreads i

end SpinReads

/-! ## How many tickets are drawn -/

/-- The store of `ticket[me]` is next. -/
def SpinPc.draws : SpinPc → Bool
  | scan i _ => COMPANION_CORE_MAX_CORES ≤ i
  | _ => false

/-- No core is in `spinlock_acquire` or has the lock. -/
def SpinSystem.unused (X : SpinSystem) : Prop := ∀ i, X.pc i = .outside

instance (X : SpinSystem) : Decidable X.unused := inferInstanceAs (Decidable (∀ _, _ = _))

/-- The lock, and the number of tickets drawn since it was last unused. -/
structure SpinDraws where
  spin : SpinReads
  draws : Nat

namespace SpinDraws

/-- The draws behind a step of core `me` that leads to `R`. -/
def draws_after (D : SpinDraws) (me : CoreId) (R : SpinReads) : Nat :=
  if R.system.unused then 0
  else if (D.spin.system.pc me).draws then D.draws + 1
  else D.draws

def step (D : SpinDraws) (me : CoreId) : Option SpinDraws :=
  (D.spin.step me).map fun R => ⟨R, D.draws_after me R⟩

/-- A core draws only when fewer than 2^32 - 1 tickets have been drawn since the lock was last
unused. -/
def fewDraws (D : SpinDraws) (me : CoreId) : Prop :=
  (D.spin.system.pc me).draws = true → D.draws < 2 ^ 32 - 1

instance (D : SpinDraws) (me : CoreId) : Decidable (D.fewDraws me) :=
  inferInstanceAs (Decidable (_ → _))

def boot : SpinDraws where
  spin := .boot
  draws := 0

end SpinDraws

/-- What a core at `p` knows of the tickets is at most `n`, and so is its own. -/
structure AtMost (n : Nat) (p : SpinPc) (t : Nat) : Prop where
  ticket : t ≤ n
  scanned : ∀ k m, p = .scan k m → m ≤ n

section Draws

variable {X : SpinSystem} {me : CoreId} {n : Nat}

theorem AtMost.mono {n' : Nat} {p : SpinPc} {t : Nat} (h : AtMost n p t) (hn : n ≤ n') :
    AtMost n' p t :=
  ⟨Nat.le_trans h.ticket hn, fun k m hs => Nat.le_trans (h.scanned k m hs) hn⟩

/-- A draw makes the largest ticket larger by one at most, and nothing else does. -/
theorem SpinMove.atMost {p q : SpinPc} {c t : Nat} (h : SpinMove X me p q c t)
    (hall : ∀ j, X.lock.ticket j ≤ n) (hp : AtMost n p (X.lock.ticket me)) :
    AtMost (if p.draws then n + 1 else n) q t := by
  cases h with
  | enter => exact ⟨hp.ticket, fun k m hs => by cases hs; exact Nat.zero_le n⟩
  | @scan k m m' hk hle hload hm =>
    have hdraws : (SpinPc.scan k m).draws = false := decide_eq_false (Nat.not_le_of_lt hk)
    rw [hdraws]
    refine ⟨hp.ticket, fun k' m'' hs => ?_⟩
    cases hs
    rcases hm with rfl | rfl
    · exact hp.scanned k m' rfl
    · exact hall _
  | @draw k m hk =>
    have hdraws : (SpinPc.scan k m).draws = true := decide_eq_true hk
    rw [hdraws]
    refine ⟨?_, fun k' m' hs => nomatch hs⟩
    exact Nat.le_trans (Nat.mod_le _ _) (Nat.succ_le_succ (hp.scanned k m rfl))
  | publish => exact ⟨hp.ticket, fun k m hs => absurd hs round_ne_scan⟩
  | absent => exact ⟨hp.ticket, fun k m hs => absurd hs round_ne_scan⟩
  | first => exact ⟨hp.ticket, fun k m hs => absurd hs round_ne_scan⟩
  | tied => exact ⟨hp.ticket, fun k m hs => absurd hs round_ne_scan⟩
  | leave => exact ⟨Nat.zero_le n, fun k m hs => nomatch hs⟩
  | _ => exact ⟨hp.ticket, fun k m hs => nomatch hs⟩

/-- Nobody knows a ticket of a lock that is not in use. -/
theorem SpinInv.unused {limit : Nat} (hi : SpinInv limit X) (hu : X.unused) (i : CoreId) :
    AtMost 0 (X.pc i) (X.lock.ticket i) := by
  have hcore := hi.core i
  rw [hu i] at hcore ⊢
  exact ⟨Nat.le_of_not_lt fun h => (nomatch hcore.ticket.mp h), fun k m hs => nomatch hs⟩

end Draws

/-- The draws are counted, the tickets are at most their number, and so none of them has wrapped. -/
theorem SpinDraws.counted {D : SpinDraws}
    (hr : Reach SpinDraws.step SpinDraws.fewDraws SpinDraws.boot D) :
    Reach SpinReads.step SpinReads.drawsFit SpinReads.boot D.spin ∧
      ∀ i, AtMost D.draws (D.spin.system.pc i) (D.spin.system.lock.ticket i) := by
  refine hr.invariant (P := fun D => Reach SpinReads.step SpinReads.drawsFit SpinReads.boot D.spin ∧
    ∀ i, AtMost D.draws (D.spin.system.pc i) (D.spin.system.lock.ticket i)) ?_ ?_
  · exact ⟨.start, fun i => ⟨Nat.le_refl 0, fun k m hs => nomatch hs⟩⟩
  · intro D D' me ⟨hreach, hmost⟩ hfew hstep
    cases hstep
    have hfit : D.spin.drawsFit me := by
      show (D.spin.system.pc me).drawsFit
      cases hpc : D.spin.system.pc me with
      | scan k m =>
        intro hk
        have hlt := hfew (by rw [hpc]; exact decide_eq_true hk)
        have hm := (hmost me).scanned k m hpc
        omega
      | _ => trivial
    have hnext := hreach.step hfit rfl
    refine ⟨hnext, fun i => ?_⟩
    unfold SpinDraws.draws_after
    dsimp only
    split
    · rename_i hu
      exact (SpinReads.reads_below hnext).1.unused hu i
    · by_cases him : i = me
      · subst him
        exact (D.spin.system.next_own i).atMost (fun j => (hmost j).ticket) (hmost i)
      · obtain ⟨hpc, ht, -⟩ := D.spin.system.next_frame him
        rw [hpc, ht]
        refine (hmost i).mono ?_
        split
        · exact Nat.le_succ _
        · exact Nat.le_refl _

/-- In every run in which no more than 2^32 - 1 tickets are drawn before the lock is unused again, a
core that waits or is inside has a ticket that is not 0, and larger than every ticket it was drawn
against. -/
theorem tickets_competing {D : SpinDraws}
    (hr : Reach SpinDraws.step SpinDraws.fewDraws SpinDraws.boot D) (i : CoreId)
    (hi : (D.spin.system.pc i).hasTicket = true) :
    D.spin.system.lock.ticket i ≠ 0 ∧ D.spin.system.lock.ticket i < 2 ^ 32 ∧
      ∀ r ∈ D.spin.reads i, r < D.spin.system.lock.ticket i := by
  obtain ⟨hspin, hreads⟩ := SpinReads.reads_below (SpinDraws.counted hr).1
  have hcore := hspin.core i
  exact ⟨Nat.ne_of_gt (hcore.ticket.mpr hi), hcore.bound, (hreads i).drawn hi⟩

/-- Core 1 goes through its doorway when core 0 has ticket 1. -/
theorem tickets_competing_two_cores : ∃ D, execute SpinDraws.step SpinDraws.fewDraws SpinDraws.boot
      (List.replicate 7 0 ++ List.replicate 7 1) = some D ∧ D.draws = 2 ∧
    D.spin.reads 1 = [1, 0, 0, 0] ∧ D.spin.system.lock.ticket 1 ≠ 0 ∧
      1 < D.spin.system.lock.ticket 1 := by
  have hrun : (execute SpinDraws.step SpinDraws.fewDraws SpinDraws.boot
      (List.replicate 7 0 ++ List.replicate 7 1)).map
        (fun D => (D.draws, D.spin.reads 1, (D.spin.system.pc 1).hasTicket)) =
          some (2, [1, 0, 0, 0], true) := by
    decide +kernel
  obtain ⟨D, hD, h⟩ := Option.map_eq_some_iff.mp hrun
  simp only [Prod.mk.injEq] at h
  obtain ⟨hdraws, hreads, hticket⟩ := h
  obtain ⟨hpos, -, hbelow⟩ := tickets_competing (Reach.of_exec _ .start hD) 1 hticket
  refine ⟨D, hD, hdraws, hreads, hpos, hbelow 1 ?_⟩
  rw [hreads]
  exact List.mem_cons_self ..

section Wrap

variable {X : SpinSystem} {a b : CoreId} {n : Nat}

/-- Core `a` is inside with ticket `n`, and the others do not compete. -/
structure Held (a : CoreId) (n : Nat) (X : SpinSystem) : Prop where
  inside : X.pc a = .inside
  ticket : X.lock.ticket a = n
  choosing : ∀ i, X.lock.choosing i = 0
  others : ∀ i, i ≠ a → X.pc i = .outside ∧ X.lock.ticket i = 0

theorem next_core_ne (a : CoreId) : a + 1 ≠ a := by
  revert a
  decide

theorem Reach.of_alone {Y Z : SpinSystem} {me : CoreId}
    (h : Reach SpinSystem.step (SpinSystem.alone me) Y Z) : Reach SpinSystem.step anything Y Z :=
  h.mono fun _ _ _ => trivial

/-- A core that draws against `a` alone. -/
theorem Held.doorway (h : Held a n X) (hne : b ≠ a) :
    Reach SpinSystem.step (SpinSystem.alone b) X
      (((X.store_choosing b 0).store_ticket b (u32 (n + 1))).goto b (round b 0)) := by
  obtain ⟨M, hrun, hall, hfrom⟩ := SpinSystem.doorway_alone (h.others b hne).1
  have hM : M = n := by
    have ha := hall a
    rw [h.ticket] at ha
    rcases hfrom with h0 | ⟨j, hj⟩
    · omega
    · by_cases hja : j = a
      · rw [hj, hja, h.ticket]
      · rw [(h.others j hja).2] at hj
        omega
  rw [← hM]
  exact hrun

/-- Core `b` draws while `a` is inside, and takes over when `a` leaves. -/
theorem Held.handover (h : Held a n X) (hne : b ≠ a) (hn : n + 1 < 2 ^ 32) :
    ∃ Y, Reach SpinSystem.step anything X Y ∧ Held b (n + 1) Y := by
  have hdoor := h.doorway hne
  rw [show u32 (n + 1) = n + 1 from Nat.mod_eq_of_lt hn] at hdoor
  let X₁ := ((X.store_choosing b 0).store_ticket b (n + 1)).goto b (round b 0)
  let X₂ := (X₁.store_ticket a 0).goto a .outside
  have hleave : X₁.next a = X₂ := by
    have hpc : X₁.pc a = .inside := (update_of_ne (Ne.symm hne) ..).trans h.inside
    unfold SpinSystem.next
    rw [hpc]
  have hticket : ∀ k, k ≠ b → X₂.lock.ticket k = 0 := by
    intro k hk
    by_cases hka : k = a
    · subst hka
      exact update_self ..
    · exact ((update_of_ne hka ..).trans (update_of_ne hk ..)).trans (h.others k hka).2
  have hchoosing : ∀ k, X₂.lock.choosing k = 0 := by
    intro k
    by_cases hk : k = b
    · subst hk
      exact update_self ..
    · exact (update_of_ne hk ..).trans (h.choosing k)
  have hround : X₂.pc b = round b 0 := (update_of_ne hne ..).trans (update_self ..)
  have henter := @SpinSystem.round_alone X₂ b
    (fun k hk => ⟨hchoosing k, .inl (hticket k hk)⟩) _ 0 (Nat.le_add_left _ 0)
  rw [SpinSystem.goto_self hround] at henter
  refine ⟨X₂.goto b .inside, ?_, update_self .., ?_, hchoosing, fun i hi => ⟨?_, hticket i hi⟩⟩
  · exact (hdoor.of_alone.step trivial (congrArg some hleave)).trans henter.of_alone
  · exact (update_of_ne hne ..).trans (update_self ..)
  · refine (update_of_ne hi ..).trans ?_
    by_cases hia : i = a
    · subst hia
      exact update_self ..
    · exact ((update_of_ne hia ..).trans (update_of_ne hi ..)).trans (h.others i hia).1

/-- The first acquisition. -/
theorem Held.first : ∃ X, Reach SpinSystem.step anything SpinSystem.boot X ∧ Held 0 1 X := by
  obtain ⟨M, hdoor, -, hfrom⟩ := @SpinSystem.doorway_alone .boot 0 rfl
  have hM : M = 0 := hfrom.elim id fun ⟨_, hj⟩ => hj
  subst hM
  let X₁ := ((SpinSystem.boot.store_choosing 0 0).store_ticket 0 1).goto 0 (round 0 0)
  have hrest : ∀ k, k ≠ 0 → X₁.lock.ticket k = 0 := fun k hk => update_of_ne hk ..
  have hchoosing : ∀ k, X₁.lock.choosing k = 0 := by
    intro k
    by_cases hk : k = 0
    · rw [hk]
      rfl
    · exact update_of_ne hk ..
  have henter := @SpinSystem.round_alone X₁ 0
    (fun k hk => ⟨hchoosing k, .inl (hrest k hk)⟩) _ 0 (Nat.le_add_left _ 0)
  have hround : X₁.pc 0 = round 0 0 := SpinSystem.goto_pc ..
  rw [SpinSystem.goto_self hround] at henter
  refine ⟨X₁.goto 0 .inside, hdoor.of_alone.trans henter.of_alone, SpinSystem.goto_pc .., rfl, hchoosing,
    fun i hi => ⟨?_, hrest i hi⟩⟩
  exact (update_of_ne hi ..).trans (update_of_ne hi ..)

/-- While the lock stays contended, the tickets go up. -/
theorem Held.every (n : Nat) (hn : n + 1 < 2 ^ 32) : ∃ a X,
    Reach SpinSystem.step anything SpinSystem.boot X ∧ Held a (n + 1) X := by
  induction n with
  | zero =>
    obtain ⟨X, hr, hX⟩ := Held.first
    exact ⟨0, X, hr, hX⟩
  | succ n ih =>
    obtain ⟨a, X, hr, hX⟩ := ih (Nat.lt_of_succ_lt hn)
    obtain ⟨Y, hrun, hY⟩ := hX.handover (next_core_ne a) hn
    exact ⟨a + 1, Y, hr.trans hrun, hY⟩

/-- Behind the ticket 2^32 - 1, which is still held, the next one is 0: its core waits for nobody, and
two cores are inside. -/
theorem tickets_wrap : ∃ X a b, Reach SpinSystem.step anything SpinSystem.boot X ∧ a ≠ b ∧
    X.pc a = .inside ∧ X.lock.ticket a = 2 ^ 32 - 1 ∧ X.pc b = .inside ∧ X.lock.ticket b = 0 := by
  obtain ⟨a, X, hr, hX⟩ := Held.every (2 ^ 32 - 2) (by decide)
  have hb := next_core_ne a
  have hdoor := hX.doorway hb
  let X₁ := ((X.store_choosing (a + 1) 0).store_ticket (a + 1) 0).goto (a + 1) (round (a + 1) 0)
  have hmine : X₁.lock.ticket (a + 1) = 0 := update_self ..
  have htheirs : X₁.lock.ticket a = 2 ^ 32 - 1 := (update_of_ne (Ne.symm hb) ..).trans hX.ticket
  have hpass : ∀ k, k ≠ a + 1 → X₁.Passes (a + 1) k := by
    intro k hk
    refine ⟨(update_of_ne hk ..).trans (hX.choosing k), ?_⟩
    by_cases hka : k = a
    · rw [hmine, hka, htheirs]
      exact .inr (.inl (by decide))
    · exact .inl ((update_of_ne hk ..).trans (hX.others k hka).2)
  have hround : X₁.pc (a + 1) = round (a + 1) 0 := update_self ..
  have henter := SpinSystem.round_alone hpass _ 0 (Nat.le_add_left _ 0)
  rw [SpinSystem.goto_self hround] at henter
  refine ⟨X₁.goto (a + 1) .inside, a, a + 1, (hr.trans hdoor.of_alone).trans henter.of_alone,
    Ne.symm hb, ?_, htheirs, update_self .., hmine⟩
  exact ((update_of_ne (Ne.symm hb) ..).trans (update_of_ne (Ne.symm hb) ..)).trans hX.inside

end Wrap

end Rpitos
