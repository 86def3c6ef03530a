import Mathlib.Order.MinMax
import Mathlib.Order.BoundedOrder.Basic
import Mathlib.Order.Defs.LinearOrder
import Mathlib.Logic.Function.Basic

/-!
# Lib.Inheritance

Priority inheritance, one level deep. An owner of resources takes over the priority of whoever begins
to wait for one of them, and falls back to its own priority when it gives up its last resource.

`seen`, `kept` and `stale` record the run. `seen t` is the priority `t` had when it began to wait, or
when the resource was last handed over. `kept t` is what `t` has inherited through resources that it
has given up while it kept others. `stale m` says that the last of the highest waiters for `m` has left
without the resource, and no task as high has begun to wait since.

`Covers` says what owners and waiters have to do with each other in every run, `Exact` what they
have while nobody waits who owns something else, and `Settled` where a priority comes from.
-/

set_option linter.unusedSectionVars false

namespace Rpitos

open Function

@[ext]
structure Inheritance (τ μ π : Type) where
  base : τ → π
  priority : τ → π
  owner : μ → Option τ
  inherited : μ → π
  waits : τ → Option μ
  seen : τ → π
  kept : τ → π
  stale : μ → Prop

namespace Inheritance

variable {τ μ π : Type} [DecidableEq τ] [DecidableEq μ] [LinearOrder π] [OrderBot π]

/-- `p` is the highest priority of the waiters for `m` other than `except`. -/
def IsTop (P : Inheritance τ μ π) (m : μ) (except : Option τ) (p : π) : Prop :=
  (∀ t, P.waits t = some m → except ≠ some t → P.priority t ≤ p) ∧
    (p = ⊥ ∨ ∃ t, P.waits t = some m ∧ except ≠ some t ∧ P.priority t = p)

/-- The task owns a resource besides `m`. -/
def OwnsOther (P : Inheritance τ μ π) (o : τ) (m : μ) : Prop :=
  ∃ m', m' ≠ m ∧ P.owner m' = some o

/-! ## The operations -/

/-- A free resource is taken. -/
def grant (P : Inheritance τ μ π) (t : τ) (m : μ) : Inheritance τ μ π :=
  { P with owner := update P.owner m (some t) }

/-- `t` begins to wait for what `o` owns. -/
def wait (P : Inheritance τ μ π) (t : τ) (m : μ) (o : τ) : Inheritance τ μ π :=
  { P with
    inherited := update P.inherited m (max (P.inherited m) (P.priority t))
    priority := update P.priority o (max (P.priority o) (max (P.inherited m) (P.priority t)))
    waits := update P.waits t (some m)
    seen := update P.seen t (P.priority t)
    stale := update P.stale m (P.stale m ∧ P.priority t < P.inherited m) }

/-- The tasks `ts` give up waiting. -/
def leave (P : Inheritance τ μ π) (ts : List τ) : Inheritance τ μ π :=
  { P with
    waits := fun t => if t ∈ ts then none else P.waits t
    stale := fun m => P.stale m ∨
      (∃ t ∈ ts, P.waits t = some m ∧ P.priority t = P.inherited m) ∧
        ∀ u, u ∉ ts → P.waits u = some m → P.priority u ≠ P.inherited m }

open Classical in
/-- The priorities once `o` has given up `m`. -/
noncomputable def restored (P : Inheritance τ μ π) (m : μ) (o : τ) : τ → π :=
  if P.OwnsOther o m then P.priority else update P.priority o (P.base o)

open Classical in
/-- What is kept then. -/
noncomputable def retained (P : Inheritance τ μ π) (m : μ) (o : τ) : τ → π :=
  update P.kept o (if P.OwnsOther o m then max (P.kept o) (P.inherited m) else ⊥)

/-- `o` gives up a resource that nobody waits for. -/
noncomputable def release (P : Inheritance τ μ π) (m : μ) (o : τ) : Inheritance τ μ π :=
  { P with
    owner := update P.owner m none
    inherited := update P.inherited m ⊥
    priority := P.restored m o
    kept := P.retained m o
    stale := update P.stale m False }

/-- `o` gives up a resource to its waiter `w`; `top` is the highest priority behind `w`. -/
noncomputable def handOver (P : Inheritance τ μ π) (m : μ) (o w : τ) (top : π) :
    Inheritance τ μ π :=
  { P with
    owner := update P.owner m (some w)
    inherited := update P.inherited m top
    priority := update (P.restored m o) w (max (P.restored m o w) top)
    waits := update P.waits w none
    seen := fun t => if P.waits t = some m ∧ t ≠ w then P.priority t else P.seen t
    kept := P.retained m o
    stale := update P.stale m False }

/-- A new task. -/
def create (P : Inheritance τ μ π) (t : τ) (p : π) : Inheritance τ μ π :=
  { P with base := update P.base t p, priority := update P.priority t p }

/-- One operation, where it may be made. -/
inductive Step (P : Inheritance τ μ π) : Inheritance τ μ π → Prop
  | grant {t : τ} {m : μ} (hm : P.owner m = none) (ht : P.waits t = none) : Step P (P.grant t m)
  | wait {t o : τ} {m : μ} (hm : P.owner m = some o) (ht : P.waits t = none) :
      Step P (P.wait t m o)
  | leave (ts : List τ) : Step P (P.leave ts)
  | release {o : τ} {m : μ} (hm : P.owner m = some o) (ho : P.waits o = none)
      (hn : ∀ t, P.waits t ≠ some m) : Step P (P.release m o)
  | handOver {o w : τ} {m : μ} {top : π} (hm : P.owner m = some o) (ho : P.waits o = none)
      (hw : P.waits w = some m) (htop : P.IsTop m (some w) top) : Step P (P.handOver m o w top)
  | create {t : τ} {p : π} (ho : ∀ m, P.owner m ≠ some t) (ht : P.waits t = none) :
      Step P (P.create t p)

variable {P P' : Inheritance τ μ π}

theorem leave_nil : P.leave [] = P := by
  unfold leave
  congr 1
  funext m
  simp

/-- Nothing happens. -/
theorem Step.refl : P.Step P := by
  have h := Step.leave (P := P) []
  rwa [leave_nil] at h

/-- Nobody begins to wait for a free resource. -/
theorem Step.new_waiter {t : τ} {m : μ} (hs : P.Step P') (hno : P.waits t = none)
    (hw : P'.waits t = some m) : ∃ o, P.owner m = some o := by
  cases hs with
  | grant hm ht => exact absurd (hno.symm.trans hw) nofun
  | @wait u o k hm ht =>
    by_cases htu : t = u
    · subst htu
      obtain rfl : k = m := by simpa [Inheritance.wait] using hw
      exact ⟨o, hm⟩
    · have hw : P.waits t = some m := by simpa [Inheritance.wait, htu] using hw
      rw [hno] at hw; cases hw
  | leave ts =>
    have hw : (if t ∈ ts then none else P.waits t) = some m := hw
    rw [hno, ite_self] at hw; cases hw
  | release hm ho hn => exact absurd (hno.symm.trans hw) nofun
  | @handOver o w k top hm ho hwk htop =>
    have hw : update P.waits w none t = some m := hw
    by_cases htw : t = w
    · subst htw; simp at hw
    · rw [update_of_ne htw, hno] at hw; cases hw
  | create ho ht => exact absurd (hno.symm.trans hw) nofun

theorem restored_of_ne {m : μ} {o t : τ} (ht : t ≠ o) : P.restored m o t = P.priority t := by
  unfold restored
  split
  · rfl
  · exact update_of_ne ht ..

theorem retained_of_ne {m : μ} {o t : τ} (ht : t ≠ o) : P.retained m o t = P.kept t :=
  update_of_ne ht ..

/-- A task that keeps another resource keeps its priority. -/
theorem restored_of_owns {m m' : μ} {o : τ} (hm : m' ≠ m) (ho : P.owner m' = some o) :
    P.restored m o = P.priority := by
  unfold restored
  rw [if_pos ⟨m', hm, ho⟩]

/-! ## Owners and waiters -/

/-- What holds in every run. -/
structure Covers (P : Inheritance τ μ π) : Prop where
  free : ∀ m, P.owner m = none → P.inherited m = ⊥
  covers : ∀ m o, P.owner m = some o → P.inherited m ≤ P.priority o
  heard : ∀ t m, P.waits t = some m → P.seen t ≤ P.inherited m
  owned : ∀ t m, P.waits t = some m → P.owner m ≠ none
  steady : ∀ t m, P.waits t = some m → (∀ m', P.owner m' ≠ some t) → P.seen t = P.priority t

namespace Covers

variable {t o w : τ} {m : μ} {top p : π} {ts : List τ}

/-- An owner has at least the priority that a waiter had when it began to wait. -/
theorem seen_le (h : P.Covers) (ho : P.owner m = some o) (ht : P.waits t = some m) :
    P.seen t ≤ P.priority o := le_trans (h.heard t m ht) (h.covers m o ho)

/-- It has at least the priority of a waiter that owns nothing. -/
theorem priority_le (h : P.Covers) (ho : P.owner m = some o) (ht : P.waits t = some m)
    (hn : ∀ m', P.owner m' ≠ some t) : P.priority t ≤ P.priority o :=
  h.steady t m ht hn ▸ h.seen_le ho ht

theorem grant (h : P.Covers) (hm : P.owner m = none) : (P.grant t m).Covers := by
  unfold Inheritance.grant
  refine ⟨fun k hk => ?_, fun k u hk => ?_, h.heard, fun u k hu => ?_, fun u k hu hn => ?_⟩
  · by_cases hkm : k = m
    · subst hkm; simp at hk
    · exact h.free k (by simpa [hkm] using hk)
  · by_cases hkm : k = m
    · subst hkm; rw [h.free k hm]; exact bot_le
    · exact h.covers k u (by simpa [hkm] using hk)
  · by_cases hkm : k = m
    · subst hkm; simp
    · simpa [hkm] using h.owned u k hu
  · refine h.steady u k hu fun m' hm' => hn m' ?_
    have hne : m' ≠ m := by rintro rfl; rw [hm] at hm'; cases hm'
    simpa [hne] using hm'

theorem wait (h : P.Covers) (hm : P.owner m = some o) : (P.wait t m o).Covers := by
  unfold Inheritance.wait
  refine ⟨fun k hk => ?_, fun k u hk => ?_, fun u k hu => ?_, fun u k hu => ?_, fun u k hu hn => ?_⟩
  · have hkm : k ≠ m := by rintro rfl; rw [hm] at hk; cases hk
    simpa [hkm] using h.free k hk
  · have hge : P.priority u ≤ update P.priority o
        (max (P.priority o) (max (P.inherited m) (P.priority t))) u := by
      by_cases huo : u = o
      · subst huo; simp
      · simp [huo]
    by_cases hkm : k = m
    · subst hkm
      rw [hm] at hk; cases hk
      simp
    · simpa [hkm] using le_trans (h.covers k u hk) hge
  · by_cases hut : u = t
    · subst hut
      obtain rfl : m = k := by simpa using hu
      simp
    · have hu : P.waits u = some k := by simpa [hut] using hu
      have hle := h.heard u k hu
      by_cases hkm : k = m
      · subst hkm; simpa [hut] using .inl hle
      · simpa [hut, hkm] using hle
  · by_cases hut : u = t
    · subst hut
      obtain rfl : m = k := by simpa using hu
      rw [hm]; simp
    · exact h.owned u k (by simpa [hut] using hu)
  · have huo : u ≠ o := by rintro rfl; exact hn m hm
    by_cases hut : u = t
    · subst hut; simp [huo]
    · simpa [hut, huo] using h.steady u k (by simpa [hut] using hu) hn

theorem leave (h : P.Covers) : (P.leave ts).Covers := by
  have hsub : ∀ u k, (if u ∈ ts then none else P.waits u) = some k → P.waits u = some k := by
    intro u k hu
    split at hu
    · cases hu
    · exact hu
  exact ⟨h.free, h.covers, fun u k hu => h.heard u k (hsub u k hu),
    fun u k hu => h.owned u k (hsub u k hu), fun u k hu hn => h.steady u k (hsub u k hu) hn⟩

/-- The other resources of a task that gives one up stay covered. -/
theorem restored_covers (h : P.Covers) {k : μ} {u : τ} (hm : P.owner m = some o) (hkm : k ≠ m)
    (hk : P.owner k = some u) : P.inherited k ≤ P.restored m o u := by
  by_cases huo : u = o
  · subst huo
    rw [restored_of_owns hkm hk]
    exact h.covers k u hk
  · rw [restored_of_ne huo]
    exact h.covers k u hk

theorem release (h : P.Covers) (hm : P.owner m = some o) (ho : P.waits o = none)
    (hn : ∀ t, P.waits t ≠ some m) : (P.release m o).Covers := by
  unfold Inheritance.release
  refine ⟨fun k hk => ?_, fun k u hk => ?_, fun u k hu => ?_, fun u k hu => ?_, fun u k hu hno => ?_⟩
  · by_cases hkm : k = m
    · subst hkm; simp
    · simpa [hkm] using h.free k (by simpa [hkm] using hk)
  · have hkm : k ≠ m := by rintro rfl; simp at hk
    simp only [update_of_ne hkm] at hk ⊢
    exact h.restored_covers hm hkm hk
  · have hkm : k ≠ m := by rintro rfl; exact hn u hu
    simpa [hkm] using h.heard u k hu
  · have hkm : k ≠ m := by rintro rfl; exact hn u hu
    simpa [hkm] using h.owned u k hu
  · have huo : u ≠ o := by rintro rfl; exact Option.some_ne_none k (hu.symm.trans ho)
    show P.seen u = P.restored m o u
    rw [restored_of_ne huo]
    refine h.steady u k hu fun m' hm' => hno m' ?_
    have hne : m' ≠ m := by rintro rfl; rw [hm] at hm'; exact huo (Option.some.inj hm').symm
    simpa [hne] using hm'

theorem handOver (h : P.Covers) (hm : P.owner m = some o) (ho : P.waits o = none)
    (hw : P.waits w = some m) (htop : P.IsTop m (some w) top) : (P.handOver m o w top).Covers := by
  have hwo : w ≠ o := by rintro rfl; rw [ho] at hw; cases hw
  have hback : ∀ u k, update P.waits w none u = some k → u ≠ w ∧ P.waits u = some k := by
    intro u k hu
    have huw : u ≠ w := by rintro rfl; simp at hu
    exact ⟨huw, by simpa [huw] using hu⟩
  unfold Inheritance.handOver
  refine ⟨fun k hk => ?_, fun k u hk => ?_, fun u k h' => ?_, fun u k h' => ?_, fun u k h' hno => ?_⟩
  · have hkm : k ≠ m := by rintro rfl; simp at hk
    simpa [hkm] using h.free k (by simpa [hkm] using hk)
  · have hge : P.restored m o u ≤ update (P.restored m o) w
        (max (P.restored m o w) top) u := by
      by_cases huw : u = w
      · subst huw; simp
      · simp [huw]
    by_cases hkm : k = m
    · subst hkm
      obtain rfl : w = u := by simpa using hk
      simp
    · simp only [update_of_ne hkm] at hk ⊢
      exact le_trans (h.restored_covers hm hkm hk) hge
  · obtain ⟨huw, hu⟩ := hback u k h'
    by_cases hkm : k = m
    · subst hkm
      simpa [hu, huw] using htop.1 u hu fun e => huw (Option.some.inj e).symm
    · simpa [hu, hkm] using h.heard u k hu
  · obtain ⟨huw, hu⟩ := hback u k h'
    by_cases hkm : k = m
    · subst hkm; simp
    · simpa [hkm] using h.owned u k hu
  · obtain ⟨huw, hu⟩ := hback u k h'
    have huo : u ≠ o := by rintro rfl; rw [ho] at hu; cases hu
    simp only [update_of_ne huw, restored_of_ne huo]
    by_cases hkm : k = m
    · subst hkm; rw [if_pos ⟨hu, huw⟩]
    · rw [if_neg (by rw [hu]; exact fun e => hkm (Option.some.inj e.1))]
      refine h.steady u k hu fun m' hm' => hno m' ?_
      have hne : m' ≠ m := by rintro rfl; rw [hm] at hm'; exact huo (Option.some.inj hm').symm
      simpa [hne] using hm'

theorem create (h : P.Covers) (ho : ∀ m, P.owner m ≠ some t) (ht : P.waits t = none) :
    (P.create t p).Covers := by
  unfold Inheritance.create
  refine ⟨h.free, fun k u hk => ?_, h.heard, h.owned, fun u k hu hn => ?_⟩
  · have hut : u ≠ t := by rintro rfl; exact ho k hk
    simpa [hut] using h.covers k u hk
  · have hut : u ≠ t := by rintro rfl; rw [ht] at hu; cases hu
    simpa [hut] using h.steady u k hu hn

theorem step (h : P.Covers) (hs : P.Step P') : P'.Covers := by
  cases hs with
  | grant hm ht => exact h.grant hm
  | wait hm ht => exact h.wait hm
  | leave ts => exact h.leave
  | release hm ho hn => exact h.release hm ho hn
  | handOver hm ho hw htop => exact h.handOver hm ho hw htop
  | create ho ht => exact h.create ho ht

end Covers

/-! ## Exactness -/

/-- What `inherited` is while no owner waits for what another owns. -/
structure Exact (P : Inheritance τ μ π) : Prop where
  le : ∀ t m, P.waits t = some m → P.priority t ≤ P.inherited m
  attained : ∀ m, ¬ P.stale m → P.inherited m = ⊥ ∨
    ∃ t, P.waits t = some m ∧ P.priority t = P.inherited m
  flat : ∀ t m m', P.waits t = some m → P.owner m' = some t → m' = m

namespace Exact

variable {t o w : τ} {m : μ} {top p : π} {ts : List τ}

theorem grant (h : P.Exact) (ht : P.waits t = none) : (P.grant t m).Exact := by
  refine ⟨h.le, h.attained, fun u k k' hu hk => ?_⟩
  have hut : u ≠ t := by rintro rfl; exact Option.some_ne_none k (hu.symm.trans ht)
  unfold Inheritance.grant at hk
  by_cases hkm : k' = m
  · subst hkm
    simp only [update_self, Option.some.injEq] at hk
    exact absurd hk.symm hut
  · exact h.flat u k k' hu (by simpa [hkm] using hk)

theorem wait (h : P.Exact) (hm : P.owner m = some o) (ht : P.waits t = none)
    (hn : ∀ m', P.owner m' = some t → m' = m) : (P.wait t m o).Exact := by
  -- the owner is boosted: it waits for nothing, or for `m` itself
  have ho : ∀ k, P.waits o = some k → k = m := fun k hk => (h.flat o k m hk hm).symm
  have hwait : ∀ u k, (P.wait t m o).waits u = some k → (u = t ∧ k = m) ∨ P.waits u = some k := by
    intro u k hu
    by_cases hut : u = t
    · subst hut
      exact .inl ⟨rfl, by simpa [Inheritance.wait, eq_comm] using hu⟩
    · exact .inr (by simpa [Inheritance.wait, hut] using hu)
  have hkeep : ∀ u k, P.waits u = some k → (P.wait t m o).waits u = some k := by
    intro u k hu
    have hut : u ≠ t := by rintro rfl; exact Option.some_ne_none k (hu.symm.trans ht)
    simpa [Inheritance.wait, hut] using hu
  have hself : (P.wait t m o).inherited m = max (P.inherited m) (P.priority t) := by
    simp [Inheritance.wait]
  have hmono : ∀ k, P.inherited k ≤ (P.wait t m o).inherited k := by
    intro k
    by_cases hkm : k = m
    · subst hkm; rw [hself]; exact le_max_left ..
    · simp [Inheritance.wait, hkm]
  have hprio : ∀ u, u ≠ o → (P.wait t m o).priority u = P.priority u := fun u hu => by
    simp [Inheritance.wait, hu]
  have hown : (P.wait t m o).priority o =
      max (P.priority o) (max (P.inherited m) (P.priority t)) := by simp [Inheritance.wait]
  have hle : ∀ u k, (P.wait t m o).waits u = some k →
      P.priority u ≤ (P.wait t m o).inherited k := by
    intro u k hu
    rcases hwait u k hu with ⟨rfl, rfl⟩ | hu
    · rw [hself]; exact le_max_right ..
    · exact le_trans (h.le u k hu) (hmono k)
  -- a waiter that attains the new priority still does after the boost
  have hatt : ∀ u k, (P.wait t m o).waits u = some k →
      P.priority u = (P.wait t m o).inherited k →
      (P.wait t m o).priority u = (P.wait t m o).inherited k := by
    intro u k hu hp
    by_cases huo : u = o
    · subst huo
      have hkm : k = m := by
        rcases hwait u k hu with ⟨-, hkm⟩ | hu
        · exact hkm
        · exact ho k hu
      subst hkm
      rw [hown, hp, hself, max_self]
    · rw [hprio u huo, hp]
  refine ⟨fun u k hu => ?_, fun k hk => ?_, fun u k k' hu hk => ?_⟩
  · by_cases huo : u = o
    · subst huo
      have hkm : k = m := by
        rcases hwait u k hu with ⟨-, hkm⟩ | hu
        · exact hkm
        · exact ho k hu
      subst hkm
      rw [hown, ← hself]
      exact max_le (hle u k hu) le_rfl
    · rw [hprio u huo]; exact hle u k hu
  · by_cases hkm : k = m
    · subst hkm
      have hfind : P.inherited k ≤ P.priority t ∨ ∃ u, P.waits u = some k ∧
          P.priority u = P.inherited k := by
        rcases le_or_gt (P.inherited k) (P.priority t) with hge | hlt
        · exact .inl hge
        · have hst : ¬ P.stale k := fun hst => hk (by simpa [Inheritance.wait, hlt] using hst)
          rcases h.attained k hst with hb | hu
          · rw [hb] at hlt; exact absurd hlt not_lt_bot
          · exact .inr hu
      right
      rcases le_or_gt (P.inherited k) (P.priority t) with hge | hlt
      · have htk : (P.wait t k o).waits t = some k := by simp [Inheritance.wait]
        exact ⟨t, htk, hatt t k htk (by rw [hself, max_eq_right hge])⟩
      · obtain ⟨u, hu, hp⟩ := hfind.resolve_left (not_le.mpr hlt)
        exact ⟨u, hkeep u k hu, hatt u k (hkeep u k hu) (by rw [hself, max_eq_left hlt.le, hp])⟩
    · have hinh : (P.wait t m o).inherited k = P.inherited k := by simp [Inheritance.wait, hkm]
      have hst : ¬ P.stale k := by simpa [Inheritance.wait, hkm] using hk
      rcases h.attained k hst with hb | ⟨u, hu, hp⟩
      · exact .inl (hinh.trans hb)
      · exact .inr ⟨u, hkeep u k hu, hatt u k (hkeep u k hu) (hp.trans hinh.symm)⟩
  · rcases hwait u k hu with ⟨rfl, rfl⟩ | hu
    · exact hn k' hk
    · exact h.flat u k k' hu hk

theorem leave (h : P.Exact) : (P.leave ts).Exact := by
  have hsub : ∀ u k, (P.leave ts).waits u = some k → u ∉ ts ∧ P.waits u = some k := by
    intro u k hu
    unfold Inheritance.leave at hu
    dsimp only at hu
    split at hu
    · cases hu
    · exact ⟨by assumption, hu⟩
  refine ⟨fun u k hu => h.le u k (hsub u k hu).2, fun k hk => ?_,
    fun u k k' hu hk => h.flat u k k' (hsub u k hu).2 hk⟩
  obtain ⟨hst, hts⟩ := not_or.mp hk
  rcases h.attained k hst with hb | ⟨u, hu, hp⟩
  · exact .inl hb
  · right
    by_cases hmem : u ∈ ts
    · -- another one as high is left
      have hrest : ¬ ∀ v, v ∉ ts → P.waits v = some k → P.priority v ≠ P.inherited k :=
        fun hall => hts ⟨⟨u, hmem, hu, hp⟩, hall⟩
      push Not at hrest
      obtain ⟨v, hv, hvk, hvp⟩ := hrest
      exact ⟨v, by simp [Inheritance.leave, hv, hvk], hvp⟩
    · exact ⟨u, by simp [Inheritance.leave, hmem, hu], hp⟩

theorem release (h : P.Exact) (hm : P.owner m = some o) (ho : P.waits o = none)
    (hn : ∀ t, P.waits t ≠ some m) : (P.release m o).Exact := by
  have hprio : ∀ u k, P.waits u = some k → (P.release m o).priority u = P.priority u :=
    fun u k hu => restored_of_ne (by rintro rfl; exact Option.some_ne_none k (hu.symm.trans ho))
  have hinh : ∀ k, k ≠ m → (P.release m o).inherited k = P.inherited k := fun k hkm => by
    simp [Inheritance.release, hkm]
  refine ⟨fun u k hu => ?_, fun k hk => ?_, fun u k k' hu hk => ?_⟩
  · have hkm : k ≠ m := by rintro rfl; exact hn u hu
    rw [hprio u k hu, hinh k hkm]
    exact h.le u k hu
  · by_cases hkm : k = m
    · subst hkm; exact .inl (by simp [Inheritance.release])
    · rw [hinh k hkm]
      rcases h.attained k (by simpa [Inheritance.release, hkm] using hk) with hb | ⟨u, hu, hp⟩
      · exact .inl hb
      · exact .inr ⟨u, hu, (hprio u k hu).trans hp⟩
  · have hkm : k' ≠ m := by rintro rfl; simp [Inheritance.release] at hk
    exact h.flat u k k' hu (by simpa [Inheritance.release, hkm] using hk)

theorem handOver (h : P.Exact) (hm : P.owner m = some o) (ho : P.waits o = none)
    (hw : P.waits w = some m) (htop : P.IsTop m (some w) top) : (P.handOver m o w top).Exact := by
  have hback : ∀ u k, (P.handOver m o w top).waits u = some k ↔ u ≠ w ∧ P.waits u = some k := by
    intro u k
    by_cases huw : u = w
    · subst huw; simp [Inheritance.handOver]
    · simp [Inheritance.handOver, huw]
  have hprio : ∀ u k, P.waits u = some k → u ≠ w →
      (P.handOver m o w top).priority u = P.priority u := by
    intro u k hu huw
    have huo : u ≠ o := by rintro rfl; exact Option.some_ne_none k (hu.symm.trans ho)
    simp [Inheritance.handOver, huw, restored_of_ne huo]
  have hself : (P.handOver m o w top).inherited m = top := by simp [Inheritance.handOver]
  have hinh : ∀ k, k ≠ m → (P.handOver m o w top).inherited k = P.inherited k := fun k hkm => by
    simp [Inheritance.handOver, hkm]
  refine ⟨fun u k hk => ?_, fun k hk => ?_, fun u k k' hu hk => ?_⟩
  · obtain ⟨huw, hu⟩ := (hback u k).mp hk
    rw [hprio u k hu huw]
    by_cases hkm : k = m
    · subst hkm
      rw [hself]
      exact htop.1 u hu fun e => huw (Option.some.inj e).symm
    · rw [hinh k hkm]; exact h.le u k hu
  · by_cases hkm : k = m
    · subst hkm
      rw [hself]
      rcases htop.2 with hb | ⟨u, hu, hn, hp⟩
      · exact .inl hb
      · have huw : u ≠ w := by rintro rfl; exact hn rfl
        exact .inr ⟨u, (hback u k).mpr ⟨huw, hu⟩, (hprio u k hu huw).trans hp⟩
    · rw [hinh k hkm]
      rcases h.attained k (by simpa [Inheritance.handOver, hkm] using hk) with hb | ⟨u, hu, hp⟩
      · exact .inl hb
      · have huw : u ≠ w := by rintro rfl; exact hkm (Option.some.inj (hu.symm.trans hw))
        exact .inr ⟨u, (hback u k).mpr ⟨huw, hu⟩, (hprio u k hu huw).trans hp⟩
  · obtain ⟨huw, hu⟩ := (hback u k).mp hu
    have hkm : k' ≠ m := by
      rintro rfl
      simp only [Inheritance.handOver, update_self, Option.some.injEq] at hk
      exact huw hk.symm
    exact h.flat u k k' hu (by simpa [Inheritance.handOver, hkm] using hk)

theorem create (h : P.Exact) (ht : P.waits t = none) : (P.create t p).Exact := by
  have hprio : ∀ u k, P.waits u = some k → (P.create t p).priority u = P.priority u := by
    intro u k hu
    have hut : u ≠ t := by rintro rfl; exact Option.some_ne_none k (hu.symm.trans ht)
    simp [Inheritance.create, hut]
  refine ⟨fun u k hu => (hprio u k hu).trans_le (h.le u k hu), fun k hk => ?_, h.flat⟩
  rcases h.attained k hk with hb | ⟨u, hu, hp⟩
  · exact .inl hb
  · exact .inr ⟨u, hu, (hprio u k hu).trans hp⟩

/-- A step keeps this, when no task begins to wait that owns something else. -/
theorem step (h : P.Exact) (hs : P.Step P') (hf : ∀ t m m', P.waits t = none →
    P'.waits t = some m → P.owner m' = some t → m' = m) : P'.Exact := by
  cases hs with
  | grant hm ht => exact h.grant ht
  | wait hm ht => exact h.wait hm ht fun m' => hf _ _ m' ht (by simp [Inheritance.wait])
  | leave ts => exact h.leave
  | release hm ho hn => exact h.release hm ho hn
  | handOver hm ho hw htop => exact h.handOver hm ho hw htop
  | create ho ht => exact h.create ht

end Exact

/-! ## Where a priority comes from -/

/-- A priority is the task's own, or inherited. -/
structure Settled (P : Inheritance τ μ π) : Prop where
  base_le : ∀ t, P.base t ≤ P.priority t
  kept_le : ∀ t, P.kept t ≤ P.priority t
  source : ∀ t, P.priority t = P.base t ∨ P.priority t = P.kept t ∨
    ∃ m, P.owner m = some t ∧ P.priority t = P.inherited m
  clear : ∀ t, (∀ m, P.owner m ≠ some t) → P.kept t = ⊥

namespace Settled

variable {t o w : τ} {m : μ} {top p : π} {ts : List τ}

/-- A task that owns only `m`. -/
theorem priority_eq (h : P.Settled) (hc : P.Covers) (hm : P.owner m = some t)
    (hn : ¬ P.OwnsOther t m) :
    P.priority t = max (max (P.base t) (P.kept t)) (P.inherited m) := by
  apply le_antisymm
  · rcases h.source t with hp | hp | ⟨k, hk, hp⟩
    · rw [hp]; exact le_max_of_le_left (le_max_left ..)
    · rw [hp]; exact le_max_of_le_left (le_max_right ..)
    · have hkm : k = m := by
        by_contra hkm
        exact hn ⟨k, hkm, hk⟩
      rw [hp, hkm]; exact le_max_right ..
  · exact max_le (max_le (h.base_le t) (h.kept_le t)) (hc.covers m t hm)

theorem grant (h : P.Settled) (hm : P.owner m = none) : (P.grant t m).Settled := by
  have hne : ∀ k u, P.owner k = some u → k ≠ m := by
    rintro k u hk rfl; rw [hm] at hk; cases hk
  refine ⟨h.base_le, h.kept_le, fun u => ?_, fun u hu => h.clear u fun k hk => hu k ?_⟩
  · rcases h.source u with hp | hp | ⟨k, hk, hp⟩
    · exact .inl hp
    · exact .inr (.inl hp)
    · exact .inr (.inr ⟨k, by simp [Inheritance.grant, hne k u hk, hk], hp⟩)
  · simp [Inheritance.grant, hne k u hk, hk]

theorem wait (h : P.Settled) (hm : P.owner m = some o) : (P.wait t m o).Settled := by
  have hge : ∀ u, P.priority u ≤ (P.wait t m o).priority u := by
    intro u
    by_cases huo : u = o
    · subst huo; simp [Inheritance.wait]
    · simp [Inheritance.wait, huo]
  refine ⟨fun u => le_trans (h.base_le u) (hge u), fun u => le_trans (h.kept_le u) (hge u),
    fun u => ?_, h.clear⟩
  by_cases huo : u = o
  · subst huo
    -- the owner ends at the inherited priority, or stays above it
    rcases le_total (P.priority u) (max (P.inherited m) (P.priority t)) with hle | hle
    · exact .inr (.inr ⟨m, hm, by simp only [Inheritance.wait, update_self, max_eq_right hle]⟩)
    · have hp : (P.wait t m u).priority u = P.priority u := by
        simp only [Inheritance.wait, update_self, max_eq_left hle]
      rw [hp]
      rcases h.source u with hs | hs | ⟨k, hk, hs⟩
      · exact .inl hs
      · exact .inr (.inl hs)
      · refine .inr (.inr ⟨k, hk, ?_⟩)
        by_cases hkm : k = m
        · subst hkm
          rw [show (P.wait t k u).inherited k = _ from update_self ..]
          exact le_antisymm (hs.trans_le (le_max_left ..)) hle
        · simpa [Inheritance.wait, hkm] using hs
  · have hp : (P.wait t m o).priority u = P.priority u := by simp [Inheritance.wait, huo]
    rw [hp]
    rcases h.source u with hs | hs | ⟨k, hk, hs⟩
    · exact .inl hs
    · exact .inr (.inl hs)
    · have hkm : k ≠ m := by rintro rfl; rw [hm] at hk; exact huo (Option.some.inj hk).symm
      exact .inr (.inr ⟨k, hk, by simpa [Inheritance.wait, hkm] using hs⟩)

theorem leave (h : P.Settled) : (P.leave ts).Settled := ⟨h.base_le, h.kept_le, h.source, h.clear⟩

/-- What is left of a priority when `o` has given up `m`, whoever gets `m`. -/
theorem give_up (h : P.Settled) (hc : P.Covers) (hm : P.owner m = some o) (u : τ) :
    P.base u ≤ P.restored m o u ∧ P.retained m o u ≤ P.restored m o u ∧
      (P.restored m o u = P.base u ∨ P.restored m o u = P.retained m o u ∨
        ∃ k, k ≠ m ∧ P.owner k = some u ∧ P.restored m o u = P.inherited k) ∧
      ((∀ k, k ≠ m → P.owner k ≠ some u) → P.retained m o u = ⊥) := by
  by_cases huo : u = o
  · subst huo
    unfold restored retained
    by_cases hown : P.OwnsOther u m
    · rw [if_pos hown, if_pos hown, update_self]
      have hle : max (P.kept u) (P.inherited m) ≤ P.priority u :=
        max_le (h.kept_le u) (hc.covers m u hm)
      refine ⟨h.base_le u, hle, ?_, fun hn => ?_⟩
      · rcases h.source u with hs | hs | ⟨k, hk, hs⟩
        · exact .inl hs
        · exact .inr (.inl (le_antisymm (hs.trans_le (le_max_left ..)) hle))
        · by_cases hkm : k = m
          · subst hkm
            exact .inr (.inl (le_antisymm (hs.trans_le (le_max_right ..)) hle))
          · exact .inr (.inr ⟨k, hkm, hk, hs⟩)
      · obtain ⟨k, hkm, hk⟩ := hown
        exact absurd hk (hn k hkm)
    · rw [if_neg hown, if_neg hown, update_self, update_self]
      exact ⟨le_rfl, bot_le, .inl rfl, fun _ => rfl⟩
  · rw [restored_of_ne huo, retained_of_ne huo]
    have hne : ∀ k, P.owner k = some u → k ≠ m := by
      rintro k hk rfl; rw [hm] at hk; exact huo (Option.some.inj hk).symm
    refine ⟨h.base_le u, h.kept_le u, ?_, fun hn => h.clear u fun k hk => hn k (hne k hk) hk⟩
    rcases h.source u with hs | hs | ⟨k, hk, hs⟩
    · exact .inl hs
    · exact .inr (.inl hs)
    · exact .inr (.inr ⟨k, hne k hk, hk, hs⟩)

theorem release (h : P.Settled) (hc : P.Covers) (hm : P.owner m = some o) :
    (P.release m o).Settled := by
  refine ⟨fun u => (h.give_up hc hm u).1, fun u => (h.give_up hc hm u).2.1, fun u => ?_,
    fun u hu => (h.give_up hc hm u).2.2.2 fun k hkm hk => hu k ?_⟩
  · rcases (h.give_up hc hm u).2.2.1 with hs | hs | ⟨k, hkm, hk, hs⟩
    · exact .inl hs
    · exact .inr (.inl hs)
    · refine .inr (.inr ⟨k, by simp [Inheritance.release, hkm, hk], ?_⟩)
      exact hs.trans (by simp [Inheritance.release, hkm])
  · simp [Inheritance.release, hkm, hk]

theorem handOver (h : P.Settled) (hc : P.Covers) (hm : P.owner m = some o) :
    (P.handOver m o w top).Settled := by
  have hge : ∀ u, P.restored m o u ≤ (P.handOver m o w top).priority u := by
    intro u
    by_cases huw : u = w
    · subst huw; simp [Inheritance.handOver]
    · simp [Inheritance.handOver, huw]
  refine ⟨fun u => le_trans (h.give_up hc hm u).1 (hge u),
    fun u => le_trans (h.give_up hc hm u).2.1 (hge u), fun u => ?_,
    fun u hu => (h.give_up hc hm u).2.2.2 fun k hkm hk => hu k ?_⟩
  · have hrest : (P.handOver m o w top).priority u = P.restored m o u →
        (P.handOver m o w top).priority u = P.base u ∨
        (P.handOver m o w top).priority u = P.retained m o u ∨
        ∃ k, (P.handOver m o w top).owner k = some u ∧
          (P.handOver m o w top).priority u = (P.handOver m o w top).inherited k := by
      intro hp
      rw [hp]
      rcases (h.give_up hc hm u).2.2.1 with hs | hs | ⟨k, hkm, hk, hs⟩
      · exact .inl hs
      · exact .inr (.inl hs)
      · refine .inr (.inr ⟨k, by simp [Inheritance.handOver, hkm, hk], ?_⟩)
        exact hs.trans (by simp [Inheritance.handOver, hkm])
    by_cases huw : u = w
    · subst huw
      rcases le_total (P.restored m o u) top with hle | hle
      · exact .inr (.inr ⟨m, by simp [Inheritance.handOver],
          by simp only [Inheritance.handOver, update_self, max_eq_right hle]⟩)
      · exact hrest (by simp only [Inheritance.handOver, update_self, max_eq_left hle])
    · exact hrest (by simp [Inheritance.handOver, huw])
  · simp [Inheritance.handOver, hkm, hk]

theorem create (h : P.Settled) (ho : ∀ m, P.owner m ≠ some t) : (P.create t p).Settled := by
  refine ⟨fun u => ?_, fun u => ?_, fun u => ?_, h.clear⟩
  · by_cases hut : u = t
    · subst hut; simp [Inheritance.create]
    · simpa [Inheritance.create, hut] using h.base_le u
  · by_cases hut : u = t
    · subst hut
      rw [show (P.create u p).kept u = ⊥ from h.clear u ho]
      exact bot_le
    · simpa [Inheritance.create, hut] using h.kept_le u
  · by_cases hut : u = t
    · subst hut; exact .inl (by simp [Inheritance.create])
    · simpa [Inheritance.create, hut] using h.source u

theorem step (h : P.Settled) (hc : P.Covers) (hs : P.Step P') : P'.Settled := by
  cases hs with
  | grant hm ht => exact h.grant hm
  | wait hm ht => exact h.wait hm
  | leave ts => exact h.leave
  | release hm ho hn => exact h.release hc hm
  | handOver hm ho hw htop => exact h.handOver hc hm
  | create ho ht => exact h.create ho

end Settled
end Inheritance
end Rpitos
