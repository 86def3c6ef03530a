import Rpitos.Lib.ListOps

/-!
# Lib.Rotation

A list with an index that goes around it: members leave anywhere, others join at the end, and the
index moves on past the member it is at. `Turn.rotation` is the list from the index on, `Turn.ahead x`
the part of it before `x`: who is served before `x`.

`Relinked.ahead`: of those who stay, nobody gets ahead of `x` by what others do; but who joins gets
ahead of `x` when the index has passed `x`. `Fair` is the invariant under which nobody is selected twice
between two selections of `x`.
-/

namespace Rpitos

open Heap

/-- A list and its index. -/
structure Turn (α : Type) where
  list : List α
  index : Option α

namespace Turn

variable {α : Type} [DecidableEq α] {s s' s₁ : Turn α} {x y i u : α} {as bs : List α}

/-- The index leaves with its member, to the next one. -/
def leave (s : Turn α) (x : α) : Turn α where
  list := s.list.erase x
  index := if s.index = some x then cyclicAfter s.list (s.list.erase x) x else s.index

def advance (s : Turn α) : Turn α :=
  match s.index with
  | some i => ⟨s.list, cyclicAfter s.list s.list i⟩
  | none => s

theorem advance_list (s : Turn α) : s.advance.list = s.list := by
  unfold advance
  split <;> rfl

/-- The list from the index on, around its end. -/
def rotation (s : Turn α) : List α :=
  s.list.dropWhile (fun y => s.index != some y) ++ s.list.takeWhile (fun y => s.index != some y)

/-- Who comes before `x`. -/
def ahead (s : Turn α) (x : α) : List α := s.rotation.takeWhile (· != x)

/-- The index is behind `x` in the list. -/
def passed (s : Turn α) (x : α) : Prop := x ∈ s.list.takeWhile (fun y => s.index != some y)

instance (s : Turn α) (x : α) : Decidable (s.passed x) := inferInstanceAs (Decidable (_ ∈ _))

/-- No member twice, and the index at a member if there is one. -/
structure Ok (s : Turn α) : Prop where
  nodup : s.list.Nodup
  index_none : s.index = none ↔ s.list = []
  index_mem : ∀ i, s.index = some i → i ∈ s.list

/-! ## The rotation -/

omit [DecidableEq α] in
theorem not_mem_cut (hn : (as ++ i :: bs).Nodup) : i ∉ as := fun hi =>
  List.disjoint_of_nodup_append hn hi List.mem_cons_self

/-- The list, cut at the index. -/
theorem rotation_cut (hi : s.index = some i) (hl : s.list = as ++ i :: bs)
    (hn : (as ++ i :: bs).Nodup) : s.rotation = i :: bs ++ as ∧
      s.list.takeWhile (fun y => s.index != some y) = as := by
  have has : ∀ y ∈ as, (some i != some y) = true := by
    intro y hy
    rw [bne_iff_ne]
    intro h
    cases h
    exact not_mem_cut hn hy
  have htake : s.list.takeWhile (fun y => s.index != some y) = as := by
    rw [hl, hi, List.takeWhile_append_of_pos has, List.takeWhile_cons_of_neg (by simp),
      List.append_nil]
  refine ⟨?_, htake⟩
  unfold rotation
  rw [htake, hl, hi, List.dropWhile_append_of_pos has, List.dropWhile_cons_of_neg (by simp)]

theorem rotation_cut_head (hi : s.index = some i) (hl : s.list = i :: bs) (hn : (i :: bs).Nodup) :
    s.rotation = i :: bs := by
  rw [(rotation_cut hi (show s.list = [] ++ i :: bs from hl) hn).1, List.append_nil]

omit [DecidableEq α] in
theorem Ok.cut (h : s.Ok) (hx : x ∈ s.list) : ∃ i as bs, s.index = some i ∧
    s.list = as ++ i :: bs ∧ (as ++ i :: bs).Nodup := by
  obtain ⟨i, hi⟩ := Option.ne_none_iff_exists'.mp fun hn =>
    List.ne_nil_of_mem hx (h.index_none.mp hn)
  obtain ⟨as, bs, hl⟩ := List.append_of_mem (h.index_mem i hi)
  exact ⟨i, as, bs, hi, hl, hl ▸ h.nodup⟩

/-- The part of a list before a member does not depend on what follows. -/
theorem takeWhile_append_of_mem {l : List α} (hx : x ∈ l) (l' : List α) :
    (l ++ l').takeWhile (· != x) = l.takeWhile (· != x) := by
  obtain ⟨as, bs, rfl, hxas⟩ := List.eq_append_cons_of_mem hx
  have has : ∀ y ∈ as, (y != x) = true := fun y hy => bne_iff_ne.mpr fun e => hxas (e ▸ hy)
  rw [List.append_assoc, List.takeWhile_append_of_pos has, List.takeWhile_append_of_pos has,
    List.cons_append, List.takeWhile_cons_of_neg (by simp), List.takeWhile_cons_of_neg (by simp)]

/-- The index is ahead of everybody else. -/
theorem ahead_cons (h : s.Ok) (hx : x ∈ s.list) (hi : s.index = some i) (hne : i ≠ x) :
    s.ahead x = i :: s.advance.ahead x ∧ s.advance.Ok := by
  obtain ⟨j, as, bs, hj, hl, hn⟩ := h.cut hx
  obtain rfl : i = j := Option.some.inj (hi.symm.trans hj)
  have hlist : s.advance.list = as ++ i :: bs := s.advance_list.trans hl
  have hindex : s.advance.index = cyclicAfter (as ++ i :: bs) (as ++ i :: bs) i := by
    unfold advance
    rw [hi, ← hl]
  rw [cyclicAfter, after_mid (not_mem_cut hn)] at hindex
  have hrest : x ∈ bs ++ as := by
    rw [hl] at hx
    rcases List.mem_append.mp hx with hm | hm
    · exact List.mem_append_right _ hm
    · exact List.mem_append_left _ ((List.mem_cons.mp hm).resolve_left (Ne.symm hne))
  have hok : ∀ {k}, s.advance.index = some k → k ∈ as ++ i :: bs → s.advance.Ok := by
    intro k hk hm
    refine ⟨hlist ▸ hn, ?_, fun k' hk' => ?_⟩
    · rw [hk, hlist]
      simp
    · rw [hk] at hk'
      cases hk'
      rw [hlist]
      exact hm
  have hmain : s.advance.rotation = bs ++ as ++ [i] → s.ahead x = i :: s.advance.ahead x := by
    intro hrot
    unfold ahead
    rw [hrot, (rotation_cut hi hl hn).1, List.cons_append,
      List.takeWhile_cons_of_pos (by simpa using hne), takeWhile_append_of_mem hrest]
  cases bs with
  | nil =>
    cases as with
    | nil => cases hrest
    | cons a as =>
      have hrot := rotation_cut_head hindex hlist hn
      exact ⟨hmain (by rw [hrot]; simp), hok hindex List.mem_cons_self⟩
  | cons b bs =>
    have hlist' : s.advance.list = (as ++ [i]) ++ b :: bs := by rw [hlist, List.append_assoc]; rfl
    have hrot := (rotation_cut hindex hlist' (hlist' ▸ hlist.symm ▸ hn)).1
    exact ⟨hmain (by rw [hrot, ← List.append_assoc]), hok hindex (by simp)⟩

theorem rotation_perm (s : Turn α) : s.rotation.Perm s.list := by
  unfold rotation
  refine List.perm_append_comm.trans ?_
  rw [List.takeWhile_append_dropWhile]

theorem ahead_subset (hu : u ∈ s.ahead x) : u ∈ s.list :=
  s.rotation_perm.subset ((List.takeWhile_sublist _).subset hu)

theorem Ok.nodup_ahead (h : s.Ok) (x : α) : (s.ahead x).Nodup :=
  (s.rotation_perm.nodup_iff.mpr h.nodup).sublist (List.takeWhile_sublist _)

/-! ## Members leave -/

/-- Leaving lets nobody get ahead. -/
theorem mem_takeWhile_erase {l : List α} (hne : y ≠ x)
    (hu : u ∈ (l.erase y).takeWhile (· != x)) : u ∈ l.takeWhile (· != x) := by
  induction l with
  | nil => exact hu
  | cons a l ih =>
    by_cases hay : a = y
    · subst hay
      rw [List.erase_cons_head] at hu
      rw [List.takeWhile_cons_of_pos (by simpa using hne)]
      exact List.mem_cons_of_mem _ hu
    · rw [List.erase_cons_tail (by simpa using hay)] at hu
      by_cases hax : a = x
      · rw [List.takeWhile_cons_of_neg (by simpa using hax)] at hu
        cases hu
      · rw [List.takeWhile_cons_of_pos (by simpa using hax)] at hu ⊢
        rcases List.mem_cons.mp hu with rfl | hu
        · exact List.mem_cons_self
        · exact List.mem_cons_of_mem _ (ih hu)

/-- Who is not a member does not leave. -/
theorem leave_of_not_mem (h : s.Ok) (hx : x ∉ s.list) : s.leave x = s := by
  have hi : s.index ≠ some x := fun hi => hx (h.index_mem x hi)
  unfold leave
  rw [if_neg hi, List.erase_of_not_mem hx]

theorem Ok.leave (h : s.Ok) : (s.leave x).Ok := by
  by_cases hx : x ∈ s.list
  · by_cases hi : s.index = some x
    · have hindex : (s.leave x).index = cyclicAfter s.list (s.list.erase x) x := if_pos hi
      obtain ⟨hnone, hmem⟩ := Seqs.cyclicAfter_ok h.nodup hx
      exact ⟨h.nodup.erase x, by rw [hindex]; exact hnone, by rw [hindex]; exact hmem⟩
    · have hindex : (s.leave x).index = s.index := if_neg hi
      obtain ⟨j, hj⟩ := Option.ne_none_iff_exists'.mp fun hn =>
        List.ne_nil_of_mem hx (h.index_none.mp hn)
      have hstays : j ∈ s.list.erase x :=
        h.nodup.mem_erase_iff.mpr ⟨fun e => hi (e ▸ hj), h.index_mem j hj⟩
      refine ⟨h.nodup.erase x, ?_, fun k hk => ?_⟩
      · rw [hindex, hj]
        exact iff_of_false (by simp) (List.ne_nil_of_mem hstays)
      · rw [hindex, hj] at hk
        cases hk
        exact hstays
  · rw [leave_of_not_mem h hx]
    exact h

/-- The rest of the rotation stays in order. -/
theorem leave_rotation (h : s.Ok) (hx : x ∈ s.list) :
    (s.leave x).rotation = s.rotation.erase x := by
  obtain ⟨i, as, bs, hi, hl, hn⟩ := h.cut hx
  have hnd : ((as ++ i :: bs).erase x).Nodup := hn.erase x
  rw [(rotation_cut hi hl hn).1]
  by_cases hxi : x = i
  · subst hxi
    have her : (as ++ x :: bs).erase x = as ++ bs := by
      rw [List.erase_append_right _ (not_mem_cut hn), List.erase_cons_head]
    have hlist : (s.leave x).list = as ++ bs := by rw [leave, hl, her]
    have hindex : (s.leave x).index = cyclicAfter (as ++ x :: bs) (as ++ bs) x := by
      unfold leave
      rw [if_pos hi, hl, her]
    rw [cyclicAfter, after_mid (not_mem_cut hn)] at hindex
    rw [her] at hnd
    rw [List.cons_append, List.erase_cons_head]
    cases bs with
    | nil =>
      rw [List.append_nil] at hlist hnd
      cases as with
      | nil =>
        unfold rotation
        rw [hlist]
        rfl
      | cons a as =>
        rw [rotation_cut_head hindex hlist hnd, List.nil_append]
    | cons b bs => exact (rotation_cut hindex hlist hnd).1
  · have hindex : (s.leave x).index = some i := by
      unfold leave
      rw [if_neg fun h => hxi (Option.some.inj (h.symm.trans hi)), hi]
    by_cases hxas : x ∈ as
    · have her : (as ++ i :: bs).erase x = as.erase x ++ i :: bs := List.erase_append_left _ hxas
      have hxbs : x ∉ i :: bs := fun hm => List.disjoint_of_nodup_append hn hxas hm
      have hlist : (s.leave x).list = as.erase x ++ i :: bs := by rw [leave, hl, her]
      rw [her] at hnd
      rw [(rotation_cut hindex hlist hnd).1, List.erase_append_right _ hxbs]
    · have hxbs : x ∈ bs := by
        rw [hl] at hx
        rcases List.mem_append.mp hx with hm | hm
        · exact absurd hm hxas
        · exact (List.mem_cons.mp hm).resolve_left hxi
      have her : (as ++ i :: bs).erase x = as ++ i :: bs.erase x := by
        rw [List.erase_append_right _ hxas, List.erase_cons_tail (by simpa using Ne.symm hxi)]
      have hlist : (s.leave x).list = as ++ i :: bs.erase x := by rw [leave, hl, her]
      rw [her] at hnd
      rw [(rotation_cut hindex hlist hnd).1,
        List.erase_append_left _ (List.mem_cons_of_mem _ hxbs),
        List.erase_cons_tail (by simpa using Ne.symm hxi)]

theorem leave_ahead (h : s.Ok) (hne : y ≠ x) (hu : u ∈ (s.leave y).ahead x) : u ∈ s.ahead x := by
  by_cases hy : y ∈ s.list
  · unfold ahead at hu
    rw [leave_rotation h hy] at hu
    exact mem_takeWhile_erase hne hu
  · rwa [leave_of_not_mem h hy] at hu

/-- Members leave, one after the other. -/
inductive Leaves (s : Turn α) : Turn α → Prop
  | refl : Leaves s s
  | leave {s₁ : Turn α} (y : α) : Leaves s s₁ → Leaves s (s₁.leave y)

theorem Leaves.ok (h : Leaves s s₁) (hok : s.Ok) : s₁.Ok := by
  induction h with
  | refl => exact hok
  | leave y _ ih => exact ih.leave

theorem Leaves.subset (h : Leaves s s₁) (hu : u ∈ s₁.list) : u ∈ s.list := by
  induction h with
  | refl => exact hu
  | leave y _ ih => exact ih (List.mem_of_mem_erase hu)

theorem Leaves.ahead (h : Leaves s s₁) (hok : s.Ok) (hx : x ∈ s₁.list) (hu : u ∈ s₁.ahead x) :
    u ∈ s.ahead x := by
  induction h with
  | refl => exact hu
  | @leave s₁ y h ih =>
    have hne : y ≠ x := by
      rintro rfl
      exact (h.ok hok).nodup.not_mem_erase hx
    exact ih (List.mem_of_mem_erase hx) (leave_ahead (h.ok hok) hne hu)

/-- The index stays at a member that stays. -/
theorem Leaves.index (h : Leaves s s₁) (hok : s.Ok) (hi : s.index = some i) (hm : i ∈ s₁.list) :
    s₁.index = some i := by
  induction h with
  | refl => exact hi
  | @leave s₁ y h ih =>
    have hne : i ≠ y := by
      rintro rfl
      exact (h.ok hok).nodup.not_mem_erase hm
    have hi' := ih (List.mem_of_mem_erase hm)
    unfold Turn.leave
    rw [if_neg fun e => hne (Option.some.inj (hi'.symm.trans e)), hi']

/-! ## Others join -/

/-- Members leave, and then others join at the end. -/
def Relinked (s s' : Turn α) : Prop :=
  ∃ s₁ new, Leaves s s₁ ∧ s'.list = s₁.list ++ new ∧ (s₁.list ≠ [] → s'.index = s₁.index) ∧
    ∀ y ∈ new, y ∉ s.list

theorem Relinked.of_leaves (h : Leaves s s') : Relinked s s' :=
  ⟨s', [], h, (List.append_nil _).symm, fun _ => rfl, fun _ hy => absurd hy List.not_mem_nil⟩

/-- More members join. -/
theorem Relinked.append {s'' : Turn α} {ys : List α} (h : Relinked s s')
    (hl : s''.list = s'.list ++ ys) (hi : s'.list ≠ [] → s''.index = s'.index)
    (hy : ∀ y ∈ ys, y ∉ s.list) : Relinked s s'' := by
  obtain ⟨s₁, new, hleaves, hlist, hindex, hnew⟩ := h
  refine ⟨s₁, new ++ ys, hleaves, ?_, fun hne => ?_, fun z hz => ?_⟩
  · rw [hl, hlist, List.append_assoc]
  · rw [hi (by rw [hlist]; exact List.append_ne_nil_of_left_ne_nil hne _), hindex hne]
  · rcases List.mem_append.mp hz with hz | hz
    · exact hnew z hz
    · exact hy z hz

/-- A member that is still one, or is one again, has stayed. -/
theorem Relinked.stays (h : Relinked s s') (hx : x ∈ s.list) (hx' : x ∈ s'.list) :
    ∃ s₁ new, Leaves s s₁ ∧ x ∈ s₁.list ∧ s'.list = s₁.list ++ new ∧ s'.index = s₁.index ∧
      ∀ y ∈ new, y ∉ s.list := by
  obtain ⟨s₁, new, hleaves, hlist, hindex, hnew⟩ := h
  rw [hlist] at hx'
  have hmem : x ∈ s₁.list := (List.mem_append.mp hx').resolve_right fun hm => hnew x hm hx
  exact ⟨s₁, new, hleaves, hmem, hlist, hindex (List.ne_nil_of_mem hmem), hnew⟩

/-- The index stays at a member that stays. -/
theorem Relinked.index (h : Relinked s s') (hok : s.Ok) (hi : s.index = some i) (hm : i ∈ s'.list) :
    s'.index = some i := by
  obtain ⟨s₁, new, hleaves, hmem, -, hindex, -⟩ := h.stays (hok.index_mem i hi) hm
  rw [hindex, hleaves.index hok hi hmem]

/-- Who is ahead of `x` was ahead, or has joined, and the index has passed `x`. -/
theorem Relinked.ahead (h : Relinked s s') (hok : s.Ok) (hok' : s'.Ok) (hx : x ∈ s.list)
    (hx' : x ∈ s'.list) (hu : u ∈ s'.ahead x) : u ∈ s.ahead x ∨ u ∉ s.list ∧ s'.passed x := by
  obtain ⟨s₁, new, hleaves, hmem, hlist, hindex, hnew⟩ := h.stays hx hx'
  obtain ⟨i, as, bs, hi, hl, hn⟩ := (hleaves.ok hok).cut hmem
  have hrot := (rotation_cut hi hl hn).1
  have hlist' : s'.list = as ++ i :: (bs ++ new) := by
    rw [hlist, hl, List.append_assoc, List.cons_append]
  obtain ⟨hrot', htake⟩ := rotation_cut (hindex.trans hi) hlist' (hlist' ▸ hok'.nodup)
  by_cases hpassed : x ∈ as
  · by_cases hold : u ∈ s.list
    · refine .inl (hleaves.ahead hok hmem ?_)
      have hunew : u ∉ new := fun hm => hnew u hm hold
      unfold Turn.ahead at hu ⊢
      rw [hrot'] at hu
      rw [hrot]
      have hxi : ∀ y ∈ i :: bs, (y != x) = true := fun y hy => by
        rw [bne_iff_ne]
        rintro rfl
        exact List.disjoint_of_nodup_append hn hpassed hy
      have hxnew : ∀ y ∈ new, (y != x) = true := fun y hy => by
        rw [bne_iff_ne]
        rintro rfl
        exact hnew y hy hx
      rw [← List.cons_append, List.append_assoc, List.takeWhile_append_of_pos hxi,
        List.takeWhile_append_of_pos hxnew] at hu
      rw [List.takeWhile_append_of_pos hxi]
      rcases List.mem_append.mp hu with hu | hu
      · exact List.mem_append_left _ hu
      · exact List.mem_append_right _ ((List.mem_append.mp hu).resolve_left hunew)
    · refine .inr ⟨hold, ?_⟩
      unfold passed
      rw [htake]
      exact hpassed
  · refine .inl (hleaves.ahead hok hmem ?_)
    have hxbs : x ∈ i :: bs := by
      rw [hl] at hmem
      exact (List.mem_append.mp hmem).resolve_left hpassed
    unfold Turn.ahead at hu ⊢
    rw [hrot', ← List.cons_append, List.append_assoc, takeWhile_append_of_mem hxbs] at hu
    rw [hrot, takeWhile_append_of_mem hxbs]
    exact hu

end Turn

/-! ## The lists of a program -/

section Lists

variable {α β : Type} [DecidableEq α] [DecidableEq β] {s : Seqs α β} {l k : β} {x : α}

/-- A list and its index. -/
def Seqs.turn (s : Seqs α β) (l : β) : Turn α := ⟨s.list l, s.index l⟩

theorem Seqs.turn_pushBackIndexed (hk : l ≠ k) : (s.pushBackIndexed k x).turn l = s.turn l := by
  unfold turn pushBackIndexed pushBack
  by_cases he : s.list k = []
  · simp [he, hk]
  · simp [he, hk]

/-- The index stays, unless the list was empty. -/
theorem Seqs.pushBackIndexed_self : (s.pushBackIndexed l x).list l = s.list l ++ [x] ∧
    (s.list l ≠ [] → (s.pushBackIndexed l x).index l = s.index l) :=
  ⟨Function.update_self .., fun hne => congrFun (if_neg hne) l⟩

theorem Seqs.turn_unlinkIndexed : (s.unlinkIndexed k x).turn l =
    if k = l then (s.turn l).leave x else s.turn l := by
  by_cases hk : k = l
  · subst hk
    rw [if_pos rfl]
    unfold turn unlinkIndexed unlink Turn.leave
    by_cases hx : s.index k = some x
    · simp [hx]
    · simp [hx]
  · rw [if_neg hk]
    unfold turn unlinkIndexed unlink
    by_cases hx : s.index k = some x
    · simp [hx, Ne.symm hk]
    · simp [hx, Ne.symm hk]

theorem Seqs.turn_advanceIndex : (s.advanceIndex k).turn l =
    if k = l then (s.turn l).advance else s.turn l := by
  unfold turn advanceIndex Turn.advance
  by_cases hk : k = l
  · subst hk
    rw [if_pos rfl]
    cases hi : s.index k with
    | none => simp [hi]
    | some i => simp
  · rw [if_neg hk]
    cases hi : s.index k with
    | none => rfl
    | some i => simp [Ne.symm hk]

end Lists

/-! ## Selections -/

section Selections

variable {α : Type} [DecidableEq α] {x y : α} {sel : List α}

/-- Of the selections, the last one first, those behind the last one of `x`. -/
def served (x : α) (sel : List α) : List α := sel.takeWhile (· != x)

/-- Between two selections of `x`, before the first and behind the last, nobody is selected twice. -/
def NotOvertaken (x : α) (sel : List α) : Prop :=
  ∀ stretch, stretch <:+: sel → x ∉ stretch → stretch.Nodup

theorem prefix_served {stretch : List α} (h : stretch <+: sel) (hx : x ∉ stretch) :
    ∀ y ∈ stretch, y ∈ served x sel := by
  obtain ⟨rest, rfl⟩ := h
  intro y hy
  have hpos : ∀ z ∈ stretch, (z != x) = true := fun z hz => bne_iff_ne.mpr fun e => hx (e ▸ hz)
  unfold served
  rw [List.takeWhile_append_of_pos hpos]
  exact List.mem_append_left _ hy

theorem NotOvertaken.cons (h : NotOvertaken x sel) (hy : y ≠ x → y ∉ served x sel) :
    NotOvertaken x (y :: sel) := by
  intro stretch hpart hx
  rcases List.infix_cons_iff.mp hpart with hfirst | hpart
  · cases stretch with
    | nil => exact List.nodup_nil
    | cons z stretch =>
      obtain ⟨rfl, hbehind⟩ := List.cons_prefix_cons.mp hfirst
      have hx' : x ∉ stretch := fun hm => hx (List.mem_cons_of_mem _ hm)
      have hne : z ≠ x := fun e => hx (e ▸ List.mem_cons_self)
      exact List.nodup_cons.mpr ⟨fun hm => hy hne (prefix_served hbehind hx' z hm),
        h stretch hbehind.isInfix hx'⟩
  · exact h stretch hpart hx

omit [DecidableEq α] in
theorem NotOvertaken.of_map {β : Type} {f : α → β} (hf : Function.Injective f)
    (h : NotOvertaken (f x) (sel.map f)) : NotOvertaken x sel := by
  intro stretch hpart hx
  have hx' : f x ∉ stretch.map f := fun hm => by
    obtain ⟨y, hy, he⟩ := List.mem_map.mp hm
    exact hx (hf he ▸ hy)
  exact (h (stretch.map f) (hpart.map f) hx').of_map f

theorem served_map {β : Type} [DecidableEq β] {f : α → β} (hf : Function.Injective f) :
    served (f x) (sel.map f) = (served x sel).map f := by
  unfold served
  rw [List.takeWhile_map]
  congr 2
  funext y
  exact Bool.eq_iff_iff.mpr (by simp [hf.eq_iff])

/-- Of those selected since `x` was, only the one at the index is ahead of `x`, while it runs. -/
structure Fair (s : Turn α) (x : α) (runs : α → Prop) (sel : List α) : Prop where
  not_overtaken : NotOvertaken x sel
  ahead : ∀ u ∈ s.ahead x, u ∈ served x sel → s.index = some u ∧ runs u

variable {s s' : Turn α} {runs runs' : α → Prop} {u : α}

theorem Fair.start (s : Turn α) (x : α) (runs : α → Prop) : Fair s x runs [] where
  not_overtaken stretch hpart _ := by
    rw [List.infix_nil.mp hpart]
    exact List.nodup_nil
  ahead u _ hu := absurd hu List.not_mem_nil

/-- Members leave and others join, none of those selected since `x` while the index is behind `x`. -/
theorem Fair.relinked (h : Fair s x runs sel) (hr : s.Relinked s') (hok : s.Ok) (hok' : s'.Ok)
    (hx : x ∈ s.list) (hx' : x ∈ s'.list)
    (hjoin : ∀ u ∈ served x sel, u ∉ s.list → u ∈ s'.list → ¬ s'.passed x)
    (hruns : ∀ u ∈ s'.list, runs u → runs' u) : Fair s' x runs' sel := by
  refine ⟨h.not_overtaken, fun u hu hserved => ?_⟩
  have hmem : u ∈ s'.list := Turn.ahead_subset hu
  rcases hr.ahead hok hok' hx hx' hu with hold | ⟨hnew, hpassed⟩
  · obtain ⟨hi, hrun⟩ := h.ahead u hold hserved
    exact ⟨hr.index hok hi hmem, hruns u hmem hrun⟩
  · exact absurd hpassed (hjoin u hserved hnew hmem)

/-- The quantum of the one at the index ends. -/
theorem Fair.advance (h : Fair s x runs sel) (hok : s.Ok) (hx : x ∈ s.list)
    (hi : s.index = some x → served x sel = []) : ∀ u ∈ s.advance.ahead x, u ∉ served x sel := by
  intro u hu hserved
  obtain ⟨i, as, bs, hat, -, -⟩ := hok.cut hx
  by_cases hix : i = x
  · subst hix
    rw [hi hat] at hserved
    exact absurd hserved List.not_mem_nil
  · obtain ⟨hcons, -⟩ := Turn.ahead_cons hok hx hat hix
    have hnodup := hok.nodup_ahead x
    rw [hcons] at hnodup
    obtain ⟨hu', -⟩ := h.ahead u (hcons ▸ List.mem_cons_of_mem _ hu) hserved
    obtain rfl : i = u := Option.some.inj (hat.symm.trans hu')
    exact (List.nodup_cons.mp hnodup).1 hu

/-- The one at the index is selected, when nobody ahead of `x` has been since. -/
theorem Fair.select (hn : NotOvertaken x sel) (hok : s.Ok) (hx : x ∈ s.list)
    (hfree : ∀ u ∈ s.ahead x, u ∉ served x sel) (hi : s.index = some y) (hy : runs y) :
    Fair s x runs (y :: sel) := by
  refine ⟨hn.cons fun hne => ?_, fun u hu hserved => ?_⟩
  · refine hfree y ?_
    rw [(Turn.ahead_cons hok hx hi hne).1]
    exact List.mem_cons_self
  · unfold served at hserved
    by_cases hyx : y = x
    · rw [List.takeWhile_cons_of_neg (by simpa using hyx)] at hserved
      cases hserved
    · rw [List.takeWhile_cons_of_pos (by simpa using hyx)] at hserved
      rcases List.mem_cons.mp hserved with rfl | hserved
      · exact ⟨hi, hy⟩
      · exact absurd hserved (hfree u hu)

end Selections

end Rpitos
