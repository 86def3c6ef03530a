import Rpitos.Lib.Reach

/-!
# Kernel.CompanionCore

`companion_core.c` and the park protocol of `startup.s`, for one companion core: its slot of
`g_core_mailbox`, its Mailbox 0, and core 0. `companion_core_reset_active` does not wait for the core:
it may take the IPI at any later time, and then clears the slot.
`companion_core_release`: an entry that is published while the core polls is not lost;
`companion_core_release_lost`: one that is published before that can be.
-/

namespace Rpitos

/-- Where the companion core is. -/
inductive ParkPc where
  /-- The load of the slot in the bootstrap's `_sec_park$`. -/
  | sec_park
  /-- Runs an entry; when it returns, back to `_companion_core_park$`, or to `_sec_park$`. -/
  | run (entry : UInt32) (companion : Bool)
  /-- `mailbox_park_request$`, before the load of RDCLR. -/
  | mailbox_park_request
  /-- `_companion_core_park$`, before the store of 0 to the slot. -/
  | companion_core_park
  /-- The load of the slot in `_companion_core_park_wait$`. -/
  | companion_core_park_wait
  /-- Before the `blx` to what has been loaded. -/
  | blx (entry : UInt32) (companion : Bool)
  deriving DecidableEq, Repr

/-- The load of a polling loop is next. -/
def ParkPc.polls : ParkPc → Bool
  | sec_park => true
  | companion_core_park_wait => true
  | _ => false

/-- `irqs` says whether the core has IRQs enabled, `mailbox0` whether an IPI is pending, `alive` is
the core's bit of `g_core_alive_mask`. `was_reset` records that `companion_core_reset_active` has
been called, and `unread` the last entry published after that which the core has not jumped to. -/
structure Companion where
  slot : UInt32
  mailbox0 : Bool
  alive : Bool
  pc : ParkPc
  irqs : Bool
  was_reset : Bool
  unread : Option UInt32

inductive CompanionStep where
  | companion_core_start (entry : UInt32)
  | companion_core_reset_active
  /-- The core takes the IPI. -/
  | irq
  /-- The entry enables or disables IRQs. -/
  | set_irqs (enabled : Bool)
  /-- The entry returns. -/
  | ret
  /-- The next instruction of the park protocol. -/
  | go
  deriving DecidableEq, Repr

namespace Companion

/-- The bootstrap has cleared the slot and the core polls it, with IRQs masked. -/
def boot : Companion where
  slot := 0
  mailbox0 := false
  alive := false
  pc := .sec_park
  irqs := false
  was_reset := false
  unread := none

/-- For a core id that passes the range check. -/
def companion_core_start (X : Companion) (entry : UInt32) : Companion :=
  { X with
    slot := entry
    alive := true
    unread := if X.was_reset then some entry else X.unread }

/-- This core's round of the loop. -/
def companion_core_reset_active (X : Companion) : Companion :=
  { X with mailbox0 := X.mailbox0 || X.alive, alive := false, was_reset := true }

def step (X : Companion) : CompanionStep → Option Companion
  | .companion_core_start entry => some (X.companion_core_start entry)
  | .companion_core_reset_active => some X.companion_core_reset_active
  | .irq =>
    if X.mailbox0 && X.irqs then some { X with pc := .mailbox_park_request, irqs := false } else none
  | .set_irqs enabled =>
    match X.pc with
    | .run .. => some { X with irqs := enabled }
    | _ => none
  | .ret =>
    match X.pc with
    | .run _ companion =>
      some { X with pc := if companion then .companion_core_park else .sec_park }
    | _ => none
  | .go =>
    match X.pc with
    | .run .. => none
    | .mailbox_park_request => some { X with mailbox0 := false, pc := .companion_core_park }
    | .companion_core_park => some { X with slot := 0, pc := .companion_core_park_wait }
    | .sec_park => some (if X.slot = 0 then X else { X with pc := .blx X.slot false })
    | .companion_core_park_wait => some (if X.slot = 0 then X else { X with pc := .blx X.slot true })
    | .blx entry companion =>
      some { X with
        pc := .run entry companion
        unread := if X.unread = some entry then none else X.unread }

/-- After a reset, an entry is published only while the core polls with IRQs masked. -/
def parked (X : Companion) : CompanionStep → Prop
  | .companion_core_start _ => X.was_reset = true → X.pc.polls = true ∧ X.irqs = false
  | _ => True

instance (X : Companion) (a : CompanionStep) : Decidable (X.parked a) :=
  match a with
  | .companion_core_start _ => inferInstanceAs (Decidable (_ → _))
  | .companion_core_reset_active | .irq | .set_irqs _ | .ret | .go => isTrue trivial

/-- What has been published after a reset stays in the slot until the core jumps to it. -/
def Kept (X : Companion) : Prop := ∀ entry, X.unread = some entry → X.slot = entry

/-- An entry that waits in the slot is the next one that the core jumps to. -/
structure Waits (X : Companion) (entry : UInt32) : Prop where
  slot : X.slot = entry
  irqs : X.irqs = false
  was_reset : X.was_reset = true
  pc : X.pc.polls = true ∨ ∃ companion, X.pc = .blx entry companion

def Inv (X : Companion) : Prop := ∀ entry, X.unread = some entry → X.Waits entry

variable {X Y : Companion} {a : CompanionStep} {entry : UInt32}

theorem Inv.boot : boot.Inv := fun _ h => nomatch h

theorem Inv.of_none (h : X.unread = none) : X.Inv := fun _ he => nomatch h.symm.trans he

/-- With IRQs enabled, or outside the polling loops and the jump, no entry waits. -/
theorem Inv.none (h : X.Inv)
    (hX : X.irqs = true ∨ X.pc.polls = false ∧ ∀ entry companion, X.pc ≠ .blx entry companion) :
    X.unread = none := by
  cases hu : X.unread with
  | none => rfl
  | some entry =>
    have hw := h entry hu
    rcases hX with hirqs | ⟨hpolls, hblx⟩
    · cases hw.irqs.symm.trans hirqs
    · rcases hw.pc with hp | ⟨companion, hp⟩
      · cases hpolls.symm.trans hp
      · exact (hblx _ _ hp).elim

theorem Inv.companion_core_start (h : X.Inv)
    (hok : X.was_reset = true → X.pc.polls = true ∧ X.irqs = false) :
    (X.companion_core_start entry).Inv := by
  cases hr : X.was_reset with
  | true =>
    obtain ⟨hpolls, hirqs⟩ := hok hr
    intro e he
    have he : (if X.was_reset then some entry else X.unread) = some e := he
    rw [if_pos hr] at he
    cases he
    exact ⟨rfl, hirqs, hr, .inl hpolls⟩
  | false =>
    refine .of_none ?_
    show (if X.was_reset then some entry else X.unread) = Option.none
    rw [if_neg (by rw [hr]; exact Bool.false_ne_true)]
    cases hu : X.unread with
    | none => rfl
    | some e => cases hr.symm.trans (h e hu).was_reset

theorem Inv.companion_core_reset_active (h : X.Inv) : X.companion_core_reset_active.Inv :=
  fun entry he =>
    have hw := h entry he
    ⟨hw.slot, hw.irqs, rfl, hw.pc⟩

/-- A load of the slot: what waits there is what the core then jumps to. -/
theorem Inv.poll (h : X.Inv) (companion : Bool) :
    (if X.slot = 0 then X else { X with pc := .blx X.slot companion }).Inv := by
  split
  case isTrue => exact h
  case isFalse =>
    intro entry he
    have hw := h entry he
    exact ⟨hw.slot, hw.irqs, hw.was_reset, .inr ⟨companion, by rw [← hw.slot]⟩⟩

theorem Inv.blx {companion : Bool} (h : X.Inv) (hpc : X.pc = .blx entry companion) :
    Inv { X with
      pc := .run entry companion
      unread := if X.unread = some entry then Option.none else X.unread } := by
  refine .of_none ?_
  show (if X.unread = some entry then Option.none else X.unread) = Option.none
  cases hu : X.unread with
  | none => exact if_neg (fun he => nomatch he)
  | some e =>
    rcases (h e hu).pc with hp | ⟨c, hp⟩
    · rw [hpc] at hp
      cases hp
    · cases hpc.symm.trans hp
      exact if_pos rfl

theorem Inv.step (h : X.Inv) (hok : X.parked a) (hY : X.step a = some Y) : Y.Inv := by
  cases a with
  | companion_core_start entry =>
    cases hY
    exact h.companion_core_start hok
  | companion_core_reset_active =>
    cases hY
    exact h.companion_core_reset_active
  | irq =>
    obtain ⟨hguard, hY⟩ := Option.ite_none_right_eq_some.mp hY
    cases hY
    exact .of_none (h.none (.inl (Bool.and_eq_true_iff.mp hguard).2))
  | set_irqs enabled =>
    unfold Companion.step at hY
    cases hpc : X.pc with
    | run e c =>
      rw [hpc] at hY
      cases hY
      exact .of_none (h.none (.inr (by simp [hpc, ParkPc.polls])))
    | _ =>
      rw [hpc] at hY
      cases hY
  | ret =>
    unfold Companion.step at hY
    cases hpc : X.pc with
    | run e c =>
      rw [hpc] at hY
      cases hY
      exact .of_none (h.none (.inr (by simp [hpc, ParkPc.polls])))
    | _ =>
      rw [hpc] at hY
      cases hY
  | go =>
    unfold Companion.step at hY
    cases hpc : X.pc with
    | run e c =>
      rw [hpc] at hY
      cases hY
    | mailbox_park_request =>
      rw [hpc] at hY
      cases hY
      exact .of_none (h.none (.inr (by simp [hpc, ParkPc.polls])))
    | companion_core_park =>
      rw [hpc] at hY
      cases hY
      exact .of_none (h.none (.inr (by simp [hpc, ParkPc.polls])))
    | sec_park =>
      rw [hpc] at hY
      cases hY
      exact h.poll false
    | companion_core_park_wait =>
      rw [hpc] at hY
      cases hY
      exact h.poll true
    | blx e c =>
      rw [hpc] at hY
      cases hY
      exact h.blx hpc

end Companion

/-- When every entry after a reset is published while the core polls, none of them is overwritten. -/
theorem companion_core_release {X : Companion}
    (hr : Reach Companion.step Companion.parked Companion.boot X) : X.Kept := by
  have hi : X.Inv := hr.invariant .boot fun _ _ _ h hok hY => h.step hok hY
  exact fun entry he => (hi entry he).slot

/-- Released, reset and released again after it has parked. -/
def release_run : List CompanionStep :=
  [.companion_core_start 0x88400, .go, .go, .set_irqs true, .companion_core_reset_active, .irq, .go,
    .go, .companion_core_start 0x90000]

theorem release_run_isSome :
    (execute Companion.step Companion.parked Companion.boot release_run).isSome = true := by
  decide

theorem companion_core_release_once :
    ((execute Companion.step Companion.parked Companion.boot release_run).get release_run_isSome).Kept :=
  companion_core_release (Reach.of_exec release_run .start (Option.some_get release_run_isSome).symm)

/-- Core 0 publishes the new entry before the core has taken the IPI, and the core clears it. -/
theorem companion_core_release_lost :
    ∃ X, Reach Companion.step anything Companion.boot X ∧ ¬ X.Kept := by
  have hrun : execute Companion.step anything Companion.boot
      [.companion_core_start 0x88400, .go, .go, .set_irqs true, .companion_core_reset_active,
        .companion_core_start 0x90000, .irq, .go, .go] =
      some ⟨0, false, true, .companion_core_park_wait, false, true, some 0x90000⟩ := rfl
  refine ⟨_, Reach.of_exec _ .start hrun, fun hkept => ?_⟩
  exact absurd (hkept 0x90000 rfl) (by decide)

end Rpitos
