import Rpitos.Lib.Reach
import Rpitos.Kernel.Types

/-!
# Drivers.CoreKick

The multicore gate of the watchdog: `watchdog_core_kick`, one load or store at a time, and the
stores of `companion_core.c` to the mask it reads. `hung_core_not_masked`: a core that has never
reported keeps the gate shut, and one that reports no more shuts it after at most two more writes to
`PM_WDOG` by each core.

The fields behind `pc` record the run: which cores have reported, and how often each core has written
to `PM_WDOG`.
-/

namespace Rpitos

open Function

/-- Bit `core` of `expected_mask`. -/
def core_bit (core : CoreId) : UInt32 := 1 <<< UInt32.ofNat core.val

def expected (mask : UInt32) (core : CoreId) : Bool := mask &&& core_bit core != 0

/-- The next load or store of a core in `watchdog_core_kick`. -/
inductive KickPc where
  /-- In no call; enters with the store `core_kicked[companion_core_id()] = 1`. -/
  | idle
  /-- Load of `expected_mask`. -/
  | load_mask
  /-- Load of `core_kicked[i]`, if the mask has that bit. -/
  | check (mask : UInt32) (i : Nat)
  /-- The store `core_kicked[i] = 0`; after the loop, the store to `PM_WDOG`. -/
  | reset (mask : UInt32) (i : Nat)
  deriving DecidableEq, Repr

/-- The next access of the call is a store to the flag of its own core. -/
def KickPc.stores_flag (own : CoreId) : KickPc → Bool
  | .idle => true
  | .reset _ i => i == own.val
  | _ => false

/-- The linked `CompanionCoreContext`, and where each core is. -/
structure KickGate where
  expected_mask : UInt32
  core_kicked : CoreId → UInt8
  /-- In `companion_core_start` on core 0: the mask that it has loaded and is about to store. -/
  starting : Option UInt32
  pc : CoreId → KickPc
  reported : CoreId → Bool
  kicks : CoreId → Nat

inductive KickAction where
  /-- The next load or store of the core's call. -/
  | core_kick (core : CoreId)
  /-- The load and the store of `expected_mask |= (1U << core_id)`. -/
  | start_load (core_id : CoreId)
  | start_store
  deriving DecidableEq, Repr

namespace KickGate

def goto (G : KickGate) (core : CoreId) (pc : KickPc) : KickGate :=
  { G with pc := update G.pc core pc }

@[simp] theorem goto_pc (G : KickGate) (core : CoreId) (pc : KickPc) :
    (G.goto core pc).pc core = pc := update_self ..

def store_kicked (G : KickGate) (i : CoreId) (v : UInt8) : KickGate :=
  { G with core_kicked := update G.core_kicked i v }

/-- `watchdog_kick`. -/
def watchdog_kick (G : KickGate) (core : CoreId) : KickGate :=
  { G with kicks := update G.kicks core (G.kicks core + 1) }

/-- One load or store of `watchdog_core_kick`, in multicore mode. -/
def next (G : KickGate) (core : CoreId) : KickGate :=
  match G.pc core with
  | .idle =>
    let G := { G with reported := update G.reported core true }
    (G.store_kicked core 1).goto core .load_mask
  | .load_mask => G.goto core (.check G.expected_mask 0)
  | .check mask i =>
    if h : i < COMPANION_CORE_MAX_CORES then
      if expected mask ⟨i, h⟩ ∧ G.core_kicked ⟨i, h⟩ = 0 then G.goto core .idle
      else G.goto core (.check mask (i + 1))
    else G.goto core (.reset mask 0)
  | .reset mask i =>
    if h : i < COMPANION_CORE_MAX_CORES then
      (G.store_kicked ⟨i, h⟩ 0).goto core (.reset mask (i + 1))
    else (G.watchdog_kick core).goto core .idle

def step (G : KickGate) : KickAction → Option KickGate
  | .core_kick core => some (G.next core)
  | .start_load core_id =>
    if core_id ≠ 0 ∧ G.starting = none then
      some { G with starting := some (G.expected_mask ||| core_bit core_id) }
    else none
  | .start_store =>
    match G.starting with
    | some mask => some { G with expected_mask := mask, starting := none }
    | none => none

/-- Behind `companion_core_init`. -/
def boot : KickGate where
  expected_mask := core_bit 0
  core_kicked _ := 0
  starting := none
  pc _ := .idle
  reported _ := false
  kicks _ := 0

/-- Core `C` does not store to its flag. -/
def silent (C : CoreId) (G : KickGate) (a : KickAction) : Prop :=
  a = .core_kick C → (G.pc C).stores_flag C = false

instance (C : CoreId) (G : KickGate) (a : KickAction) : Decidable (G.silent C a) :=
  inferInstanceAs (Decidable (_ → _))

end KickGate

theorem expected_or {mask : UInt32} {core : CoreId} (x : UInt32) (h : expected mask core = true) :
    expected (mask ||| x) core = true := by
  unfold expected at h ⊢
  simp only [bne_iff_ne, ne_eq] at h ⊢
  intro h0
  apply h
  calc mask &&& core_bit core = mask &&& ((mask ||| x) &&& core_bit core) := by
        rw [← UInt32.and_assoc]
        congr 1
        apply UInt32.eq_of_toBitVec_eq
        ext i hi
        simpa using fun h => Or.inl h
    _ = 0 := by rw [h0, UInt32.and_zero]

section Step

variable {G G' : KickGate} {C D core : CoreId} {a : KickAction}

/-- The call has found, or no longer needs, the core's report. -/
def KickPc.passed (C : CoreId) : KickPc → Prop
  | .check mask i => expected mask C = true ∧ C.val < i
  | .reset mask _ => expected mask C = true
  | _ => False

structure KickInv (G : KickGate) : Prop where
  starting : ∀ mask, G.starting = some mask → ∀ c, expected G.expected_mask c = true →
    expected mask c = true
  flag : ∀ c, G.core_kicked c ≠ 0 → G.reported c = true
  passed : ∀ d c, (G.pc d).passed c → G.reported c = true

/-- How often a core may still write to `PM_WDOG` when `C` reports no more; `live` is whether the flag
of `C` is still set. -/
def KickPc.left (C : CoreId) (live : Bool) : KickPc → Nat
  | .idle => live.toNat
  | .load_mask => live.toNat
  | .check mask i => if expected mask C = true ∧ i ≤ C.val then live.toNat else 1
  -- once the flag of `C` is reset, it can only be set by a report that came later
  | .reset _ i => if i ≤ C.val then 1 else 1 + live.toNat

theorem KickPc.left_le (C : CoreId) (live : Bool) (pc : KickPc) : pc.left C live ≤ 2 := by
  have hlive : live.toNat ≤ 1 := Bool.toNat_le live
  cases pc with
  | idle => exact Nat.le_succ_of_le hlive
  | load_mask => exact Nat.le_succ_of_le hlive
  | check mask i =>
    dsimp only [left]
    split <;> omega
  | reset mask i =>
    dsimp only [left]
    split <;> omega

theorem KickPc.left_mono {live live' : Bool} (h : live' = true → live = true) (pc : KickPc) :
    pc.left C live' ≤ pc.left C live := by
  have hle : live'.toNat ≤ live.toNat := by
    cases live' with
    | false => exact Nat.zero_le _
    | true => rw [h rfl]
  cases pc with
  | idle => exact hle
  | load_mask => exact hle
  | check mask i =>
    dsimp only [left]
    split <;> omega
  | reset mask i =>
    dsimp only [left]
    split <;> omega

namespace KickInv

/-- A step of a call keeps the mask and what `companion_core_start` is about to store. -/
theorem next_mask (G : KickGate) (core : CoreId) :
    (G.next core).expected_mask = G.expected_mask ∧ (G.next core).starting = G.starting := by
  unfold KickGate.next
  split
  · exact ⟨rfl, rfl⟩
  · exact ⟨rfl, rfl⟩
  · split
    · split <;> exact ⟨rfl, rfl⟩
    · exact ⟨rfl, rfl⟩
  · split <;> exact ⟨rfl, rfl⟩

/-- Reports are not taken back. -/
theorem next_reported {c : CoreId} (core : CoreId) (h : G.reported c = true) :
    (G.next core).reported c = true := by
  unfold KickGate.next
  split
  · by_cases hc : c = core
    · subst hc
      exact update_self ..
    · exact (update_of_ne hc ..).trans h
  · exact h
  · split
    · split <;> exact h
    · exact h
  · split <;> exact h

/-- The other cores stay where they are. -/
theorem next_pc_of_ne (G : KickGate) (h : D ≠ core) : (G.next core).pc D = G.pc D := by
  unfold KickGate.next
  split
  · exact update_of_ne h ..
  · exact update_of_ne h ..
  · split
    · split <;> exact update_of_ne h ..
    · exact update_of_ne h ..
  · split <;> exact update_of_ne h ..

/-- A flag is set by its own core's report only. -/
theorem next_kicked {c : CoreId} (h : (G.next core).core_kicked c ≠ 0) :
    G.core_kicked c ≠ 0 ∨ c = core ∧ G.pc core = .idle := by
  unfold KickGate.next at h
  split at h
  · rename_i hpc
    by_cases hc : c = core
    · exact .inr ⟨hc, hpc⟩
    · exact .inl fun h0 => h ((update_of_ne hc ..).trans h0)
  · exact .inl h
  · split at h
    · split at h <;> exact .inl h
    · exact .inl h
  · split at h
    · rename_i i _ hi
      by_cases hc : c = ⟨i, hi⟩
      · subst hc
        exact absurd (update_self ..) h
      · exact .inl fun h0 => h ((update_of_ne hc ..).trans h0)
    · exact .inl h

theorem next (hi : KickInv G) (core : CoreId) : KickInv (G.next core) := by
  obtain ⟨hmask, hstarting⟩ := next_mask G core
  refine ⟨?_, fun c hc => ?_, fun d c hd => ?_⟩
  · rw [hmask, hstarting]
    exact hi.starting
  · rcases next_kicked hc with hc | ⟨rfl, hpc⟩
    · exact next_reported core (hi.flag c hc)
    · unfold KickGate.next
      rw [hpc]
      exact update_self ..
  · by_cases hne : d = core
    · subst hne
      refine next_reported d ?_
      unfold KickGate.next at hd
      split at hd
      · rw [KickGate.goto_pc] at hd
        exact hd.elim
      · rw [KickGate.goto_pc] at hd
        exact absurd hd.2 (Nat.not_lt_zero _)
      · rename_i mask i hpc
        split at hd
        · rename_i hlt
          split at hd
          · rw [KickGate.goto_pc] at hd
            exact hd.elim
          · rename_i hflag
            rw [KickGate.goto_pc] at hd
            rcases Nat.lt_or_eq_of_le (Nat.le_of_lt_succ hd.2) with hlt' | heq
            · exact hi.passed d c (by rw [hpc]; exact ⟨hd.1, hlt'⟩)
            · -- the flag that was just loaded
              have hc : c = ⟨i, hlt⟩ := Fin.ext heq
              subst hc
              exact hi.flag _ fun h0 => hflag ⟨hd.1, h0⟩
        · rename_i hge
          rw [KickGate.goto_pc] at hd
          have hlt : c.val < i := Nat.lt_of_lt_of_le c.isLt (Nat.le_of_not_lt hge)
          exact hi.passed d c (by rw [hpc]; exact ⟨hd, hlt⟩)
      · rename_i mask i hpc
        split at hd
        · rw [KickGate.goto_pc] at hd
          exact hi.passed d c (by rw [hpc]; exact hd)
        · rw [KickGate.goto_pc] at hd
          exact hd.elim
    · rw [next_pc_of_ne G hne] at hd
      exact next_reported core (hi.passed d c hd)

theorem step (hi : KickInv G) (h : G.step a = some G') : KickInv G' := by
  cases a with
  | core_kick core =>
    cases h
    exact hi.next core
  | start_load core_id =>
    obtain ⟨-, h⟩ := Option.ite_none_right_eq_some.mp h
    cases h
    refine ⟨fun mask hmask c hc => ?_, hi.flag, hi.passed⟩
    cases hmask
    exact expected_or _ hc
  | start_store =>
    unfold KickGate.step at h
    cases hs : G.starting with
    | none => rw [hs] at h; cases h
    | some mask =>
      rw [hs] at h
      cases h
      exact ⟨(fun mask hmask => nomatch hmask), hi.flag, hi.passed⟩

theorem boot : KickInv KickGate.boot where
  starting _ h := nomatch h
  flag _ h := absurd rfl h
  passed _ _ h := h.elim

end KickInv

/-- The mask has the bit of `C`, and `D` has at most so many writes behind it and before it. -/
structure Waning (C D : CoreId) (n : Nat) (G : KickGate) : Prop where
  expected : expected G.expected_mask C = true
  starting : ∀ mask, G.starting = some mask → Rpitos.expected mask C = true
  bound : G.kicks D + (G.pc D).left C (G.core_kicked C != 0) ≤ n

namespace Waning

variable {n : Nat}

/-- A step of `D`: what it may still write shrinks by what it writes. -/
theorem next_own (hw : Waning C D n G) (hlive : (G.next D).core_kicked C ≠ 0 → G.core_kicked C ≠ 0) :
    (G.next D).kicks D + ((G.next D).pc D).left C ((G.next D).core_kicked C != 0) ≤
      G.kicks D + (G.pc D).left C (G.core_kicked C != 0) := by
  have hle : ((G.next D).core_kicked C != 0).toNat ≤ (G.core_kicked C != 0).toNat := by
    cases h : ((G.next D).core_kicked C != 0) with
    | false => exact Nat.zero_le _
    | true =>
      rw [bne_iff_ne] at h
      rw [show (G.core_kicked C != 0) = true from bne_iff_ne.mpr (hlive h)]
  have hone : (G.core_kicked C != 0).toNat ≤ 1 := Bool.toNat_le _
  revert hle
  unfold KickGate.next
  split
  · rename_i hpc
    intro hle
    rw [KickGate.goto_pc, hpc]
    exact Nat.add_le_add_left hle _
  · rename_i hpc
    intro hle
    rw [KickGate.goto_pc, hpc]
    dsimp only [KickPc.left]
    rw [if_pos ⟨hw.expected, Nat.zero_le _⟩]
    exact Nat.add_le_add_left hle _
  · rename_i mask i hpc
    split
    · rename_i hlt
      split
      · intro hle
        rw [KickGate.goto_pc, hpc]
        refine Nat.add_le_add_left (Nat.le_trans hle ?_) _
        dsimp only [KickPc.left]
        split
        · exact Nat.le_refl _
        · exact hone
      · rename_i hflag
        intro hle
        rw [KickGate.goto_pc, hpc]
        refine Nat.add_le_add_left ?_ _
        dsimp only [KickPc.left]
        by_cases hnext : Rpitos.expected mask C = true ∧ i + 1 ≤ C.val
        · rw [if_pos hnext, if_pos ⟨hnext.1, Nat.le_of_succ_le hnext.2⟩]
          exact hle
        · rw [if_neg hnext]
          split
          · -- the flag of `C` itself, found set
            rename_i hown
            have hi : C = ⟨i, hlt⟩ :=
              Fin.ext (Nat.le_antisymm (Nat.le_of_not_lt fun h => hnext ⟨hown.1, h⟩) hown.2)
            subst hi
            have hset : G.core_kicked ⟨i, hlt⟩ ≠ 0 := fun h0 => hflag ⟨hown.1, h0⟩
            rw [show (G.core_kicked ⟨i, hlt⟩ != 0) = true from bne_iff_ne.mpr hset]
            exact Nat.le_refl _
          · exact Nat.le_refl _
    · rename_i hge
      intro _
      rw [KickGate.goto_pc, hpc]
      refine Nat.add_le_add_left ?_ _
      dsimp only [KickPc.left]
      rw [if_pos (Nat.zero_le _), if_neg fun h => hge (Nat.lt_of_le_of_lt h.2 C.isLt)]
  · rename_i mask i hpc
    split
    · rename_i hlt
      intro hle
      rw [KickGate.goto_pc, hpc]
      refine Nat.add_le_add_left ?_ _
      dsimp only [KickPc.left]
      by_cases hi : i = C.val
      · -- the flag of `C` is reset
        have hC : C = ⟨i, hlt⟩ := Fin.ext hi.symm
        subst hC
        have hreset : ((G.store_kicked ⟨i, hlt⟩ 0).goto D (.reset mask (i + 1))).core_kicked
            ⟨i, hlt⟩ = 0 := update_self ..
        rw [hreset, if_pos (Nat.le_refl _), if_neg (Nat.not_succ_le_self _)]
        exact Nat.le_refl _
      · split
        · rename_i hbefore
          rw [if_pos (Nat.le_of_succ_le hbefore)]
        · rename_i hbehind
          rw [if_neg fun h => hbehind (Nat.lt_of_le_of_ne h hi)]
          exact Nat.add_le_add_left hle 1
    · rename_i hge
      intro hle
      have hkicks : ((G.watchdog_kick D).goto D .idle).kicks D = G.kicks D + 1 := update_self ..
      rw [KickGate.goto_pc, hpc, hkicks]
      dsimp only [KickPc.left]
      rw [if_neg fun h => hge (Nat.lt_of_le_of_lt h C.isLt), Nat.add_assoc]
      exact Nat.add_le_add_left (Nat.add_le_add_left hle 1) _

theorem next_kicks_of_ne (G : KickGate) (h : D ≠ core) : (G.next core).kicks D = G.kicks D := by
  unfold KickGate.next
  split
  · rfl
  · rfl
  · split
    · split <;> rfl
    · rfl
  · split
    · rfl
    · exact update_of_ne h ..

theorem step (hw : Waning C D n G) (hsilent : G.silent C a) (h : G.step a = some G') :
    Waning C D n G' := by
  cases a with
  | core_kick core =>
    cases h
    obtain ⟨hmask, hstarting⟩ := KickInv.next_mask G core
    have hlive : (G.next core).core_kicked C ≠ 0 → G.core_kicked C ≠ 0 := by
      intro hset
      rcases KickInv.next_kicked hset with hset | ⟨rfl, hpc⟩
      · exact hset
      · have hstores := hsilent rfl
        rw [hpc] at hstores
        cases hstores
    refine ⟨hmask ▸ hw.expected, hstarting ▸ hw.starting, Nat.le_trans ?_ hw.bound⟩
    by_cases hne : D = core
    · subst hne
      exact hw.next_own hlive
    · rw [KickInv.next_pc_of_ne G hne, next_kicks_of_ne G hne]
      refine Nat.add_le_add_left (KickPc.left_mono (fun hset => ?_) _) _
      exact bne_iff_ne.mpr (hlive (bne_iff_ne.mp hset))
  | start_load core_id =>
    obtain ⟨-, h⟩ := Option.ite_none_right_eq_some.mp h
    cases h
    refine ⟨hw.expected, fun mask hmask => ?_, hw.bound⟩
    cases hmask
    exact expected_or _ hw.expected
  | start_store =>
    unfold KickGate.step at h
    cases hs : G.starting with
    | none => rw [hs] at h; cases h
    | some mask =>
      rw [hs] at h
      cases h
      exact ⟨hw.starting mask hs, (fun _ hmask => nomatch hmask), hw.bound⟩

end Waning

end Step

/-- The gate of the watchdog: a call that has read a mask with the bit of `C` writes to `PM_WDOG` only if
`C` has reported before; and when the mask has the bit of `C` and `C` stores to its flag no more, each
core writes to `PM_WDOG` at most twice more. -/
theorem hung_core_not_masked {G : KickGate} (hr : Reach KickGate.step anything KickGate.boot G)
    (C : CoreId) :
    (∀ D mask i, G.pc D = .reset mask i → expected mask C = true → G.reported C = true) ∧
      (expected G.expected_mask C = true → ∀ G', Reach KickGate.step (KickGate.silent C) G G' →
        ∀ D, G'.kicks D ≤ G.kicks D + 2) := by
  have hinv : KickInv G := hr.invariant .boot fun s s' a hs _ h => hs.step h
  refine ⟨fun D mask i hpc hmask => hinv.passed D C (by rw [hpc]; exact hmask), ?_⟩
  intro hmask G' hrun D
  have hstart : Waning C D (G.kicks D + 2) G :=
    ⟨hmask, fun mask hm => hinv.starting mask hm C hmask,
      Nat.add_le_add_left (KickPc.left_le C _ _) _⟩
  have hend : Waning C D (G.kicks D + 2) G' :=
    hrun.invariant hstart fun s s' a hs hsilent h => hs.step hsilent h
  exact Nat.le_trans (Nat.le_add_right _ _) hend.bound

/-- Core 1 reports while core 0 is between its reset of that flag and its write to `PM_WDOG`. -/
def late_report : List KickAction :=
  [.start_load 1, .start_store] ++ List.replicate 3 (.core_kick 1) ++
    List.replicate 9 (.core_kick 0) ++ [.core_kick 1]

/-- Core 0 ends this call and makes another. -/
def two_kicks : List KickAction := List.replicate 15 (.core_kick 0)

theorem late_report_run :
    (execute KickGate.step anything KickGate.boot late_report).isSome = true := by decide

theorem two_kicks_run :
    (execute KickGate.step (KickGate.silent 1) ((execute KickGate.step anything KickGate.boot
      late_report).get late_report_run) two_kicks).isSome = true := by decide

/-- Here core 0 does write twice more. -/
theorem hung_core_not_masked_late_report :
    let G := (execute KickGate.step anything KickGate.boot late_report).get late_report_run
    let G' := (execute KickGate.step (KickGate.silent 1) G two_kicks).get two_kicks_run
    G.kicks 0 = 0 ∧ G'.kicks 0 = 2 ∧ G'.kicks 0 ≤ G.kicks 0 + 2 := by
  have hr := Reach.of_exec late_report .start (Option.some_get late_report_run).symm
  have hrun := Reach.of_exec two_kicks .start (Option.some_get two_kicks_run).symm
  refine ⟨by decide, by decide, ?_⟩
  exact (hung_core_not_masked hr 1).2 (by decide) _ hrun 0

end Rpitos
