import Rpitos.Lib.DListOps

/-!
# Lib.DListRep

The operations on all lists at once: each is one `Function.update` of the represented sequences
(`Rep.unlink`, `Rep.pushBack`, ...), with the containers and the index it leaves.
-/

namespace Rpitos
namespace Heap

open Function

variable {α β : Type}

/-! ## Insertion keeps the order -/

theorem insertTail_perm (key : α → Nat) (w : Nat) (x : α) (xs : List α) :
    (insertTail key w x xs).Perm (x :: xs) := by
  obtain ⟨as, bs, rfl, h, -⟩ := insertTail_split key w x xs
  rw [h]; exact List.perm_middle

theorem insertKey_perm (key : α → Nat) (w : Nat) (x : α) (xs : List α) :
    (insertKey key w x xs).Perm (x :: xs) := by
  cases xs with
  | nil => simp [insertKey]
  | cons a as =>
    by_cases hw : w ≤ key a
    · simp [insertKey, hw]
    · simp only [insertKey, hw, if_false]
      exact ((insertTail_perm key w x as).cons a).trans (List.Perm.swap x a as)

theorem mem_insertTail {key : α → Nat} {w : Nat} {x y : α} {xs : List α} :
    y ∈ insertTail key w x xs ↔ y = x ∨ y ∈ xs := by
  rw [(insertTail_perm key w x xs).mem_iff, List.mem_cons]

@[simp] theorem mem_insertKey {key : α → Nat} {w : Nat} {x y : α} {xs : List α} :
    y ∈ insertKey key w x xs ↔ y = x ∨ y ∈ xs := by
  rw [(insertKey_perm key w x xs).mem_iff, List.mem_cons]

theorem insertKey_nodup {key : α → Nat} {w : Nat} {x : α} {xs : List α} (hn : xs.Nodup)
    (hx : x ∉ xs) : (insertKey key w x xs).Nodup :=
  (insertKey_perm key w x xs).nodup_iff.mpr (List.nodup_cons.mpr ⟨hx, hn⟩)

theorem insertTail_sorted {key : α → Nat} {x : α} {xs : List α}
    (h : xs.Pairwise (fun a b => key a ≤ key b)) :
    (insertTail key (key x) x xs).Pairwise (fun a b => key a ≤ key b) := by
  obtain ⟨as, bs, rfl, he, ha, hb⟩ := insertTail_split key (key x) x xs
  rw [List.pairwise_append] at h
  obtain ⟨h1, h2, h3⟩ := h
  rw [he, List.pairwise_append]
  refine ⟨h1, List.pairwise_cons.mpr ⟨fun b hbm => ?_, h2⟩, fun a ham b hbm => ?_⟩
  · -- the first of `bs` is above `x`, the others above the first
    cases bs with
    | nil => cases hbm
    | cons c cs =>
      have hc : key x < key c := hb c (by simp)
      rcases List.mem_cons.mp hbm with rfl | hbm
      · exact Nat.le_of_lt hc
      · exact Nat.le_trans (Nat.le_of_lt hc) ((List.pairwise_cons.mp h2).1 b hbm)
  · rcases List.mem_cons.mp hbm with rfl | hbm
    · exact ha a ham
    · exact h3 a ham b hbm

theorem insertKey_sorted {key : α → Nat} {x : α} {xs : List α}
    (h : xs.Pairwise (fun a b => key a ≤ key b)) :
    (insertKey key (key x) x xs).Pairwise (fun a b => key a ≤ key b) := by
  cases xs with
  | nil => simp [insertKey]
  | cons a as =>
    obtain ⟨h1, h2⟩ := List.pairwise_cons.mp h
    by_cases hw : key x ≤ key a
    · rw [insertKey, if_pos hw]
      refine List.pairwise_cons.mpr ⟨fun b hb => ?_, h⟩
      rcases List.mem_cons.mp hb with rfl | hb
      · exact hw
      · exact Nat.le_trans hw (h1 b hb)
    · rw [insertKey, if_neg hw]
      refine List.pairwise_cons.mpr ⟨fun b hb => ?_, insertTail_sorted h2⟩
      rcases mem_insertTail.mp hb with rfl | hb
      · exact Nat.le_of_not_le hw
      · exact h1 b hb

theorem empty_rep : (empty : Heap α β).Rep (fun _ => []) := fun _ =>
  ⟨trivial, rfl, rfl, rfl, List.nodup_nil, by simp⟩

section

variable [DecidableEq β]

/-- An operation on `l` that touches only `l`'s nodes and `x`, a node of no other list, is an
update of the represented lists at `l`. -/
theorem Rep.set {h h' : Heap α β} {A : β → List α} {l : β} {x : α} {ys : List α}
    (hr : h.Rep A) (hf : Frame h h' l (x :: A l)) (hx : ∀ k, k ≠ l → x ∉ A k)
    (hl : h'.IsList l ys) : h'.Rep (update A l ys) := by
  intro k
  by_cases hk : k = l
  · subst hk; simpa using hl
  · rw [update_of_ne hk]
    refine (hr k).frame hf hk (fun y hy hmem => ?_)
    rcases List.mem_cons.mp hmem with rfl | hmem
    · exact hx k hk hy
    · exact hk (hr.disjoint hy hmem)

end

/-! ## The index -/

theorem IsList.index_irrel {h : Heap α β} {l : β} {xs : List α} {i : β → Option α}
    (hl : h.IsList l xs) : { h with index := i }.IsList l xs :=
  ⟨hl.seg.congr (by simp) (by simp), hl.head_eq, hl.end_eq, hl.count, hl.nodup, hl.container⟩

theorem Rep.index_irrel {h : Heap α β} {A : β → List α} {i : β → Option α} (hr : h.Rep A) :
    { h with index := i }.Rep A := fun l => (hr l).index_irrel

variable [DecidableEq α]


/-- The element after `x`. -/
def after : List α → α → Option α
  | [], _ => none
  | y :: ys, x => if y = x then ys.head? else after ys x

/-- The element after `x`, cyclically, in a list `ys` that `x` may have left. -/
def cyclicAfter (xs ys : List α) (x : α) : Option α :=
  match after xs x with
  | some n => some n
  | none => ys.head?

theorem after_mid {as bs : List α} {x : α} (hx : x ∉ as) : after (as ++ x :: bs) x = bs.head? := by
  induction as with
  | nil => simp [after]
  | cons a as ih =>
    simp only [List.mem_cons, not_or] at hx
    simp [after, Ne.symm hx.1, ih hx.2]

theorem after_mem {xs : List α} {x y : α} (h : after xs x = some y) : y ∈ xs := by
  induction xs with
  | nil => cases h
  | cons a as ih =>
    simp only [after] at h
    split at h
    · exact List.mem_cons_of_mem _ (List.mem_of_mem_head? h)
    · exact List.mem_cons_of_mem _ (ih h)

theorem IsList.next_eq {h : Heap α β} {l : β} {xs : List α} {x : α} (hl : h.IsList l xs)
    (hx : x ∈ xs) : h.next x = after xs x := by
  obtain ⟨as, bs, rfl⟩ := List.append_of_mem hx
  obtain ⟨-, -, hn, -⟩ := hl.split
  rw [hn, after_mid (nodup_mid hl.nodup).2.2.1, first_eq_head?]

variable [DecidableEq β]

theorem unlinkIndexed_eq {h : Heap α β} {l : β} {x : α} {xs : List α} (hl : h.IsList l xs)
    (hx : x ∈ xs) :
    h.unlinkIndexed l x =
      { h.unlink l x with
        index := if h.index l = some x then update h.index l (cyclicAfter xs (xs.erase x) x)
                 else h.index } := by
  obtain ⟨as, bs, hxas, rfl, her⟩ := List.exists_erase_eq hx
  obtain ⟨-, hp, hn, -⟩ := hl.split
  have hst := stitch_eq (l := l) hxas hp hn
  have hh : h.head l = first as (some x) := by simpa using hl.head_eq
  have hhd : (h.stitch l x).head l = (as ++ bs).head? := by
    have := linkNext_head_last h l as (first bs none) hh
    rw [hst, linkPrev_head, this, ← first_append, first_eq_head?]
  have hnx : (h.stitch l x).next x = bs.head? := by
    rw [hst, linkPrev_next, linkNext_next, if_neg (last_ne hxas), hn, first_eq_head?]
  have hi : (h.stitch l x).index = h.index := by rw [hst]; simp
  rw [her]
  by_cases hix : h.index l = some x
  · simp only [unlinkIndexed, leaveIndex, hi, hix, if_true, hnx, hhd, cyclicAfter,
      after_mid hxas]
    rfl
  · simp only [unlinkIndexed, leaveIndex, hi, hix, if_false]
    simp only [unlink, decr, setLinks, hi]

/-! ## On all lists at once -/

section

variable {h : Heap α β} {A : β → List α} {l : β} {x : α}

theorem Rep.unlink (hr : h.Rep A) (hx : x ∈ A l) :
    (h.unlink l x).Rep (update A l ((A l).erase x)) := by
  obtain ⟨as, bs, hxas, hA, her⟩ := List.exists_erase_eq hx
  have hl : h.IsList l (as ++ x :: bs) := hA ▸ hr l
  rw [her]
  refine hr.set (x := x) ?_ (fun k hk hxk => hk (hr.disjoint hxk hx)) (unlink_isList hl)
  have := unlink_frame hl
  rw [← hA] at this
  exact this.mono (List.subset_cons_self _ _)

theorem Rep.unlinkIndexed (hr : h.Rep A) (hx : x ∈ A l) :
    (h.unlinkIndexed l x).Rep (update A l ((A l).erase x)) := by
  rw [unlinkIndexed_eq (hr l) hx]
  exact (hr.unlink hx).index_irrel

theorem Rep.pushBack (hr : h.Rep A) (hx : ∀ k, x ∉ A k) :
    (h.pushBack l x).Rep (update A l (A l ++ [x])) :=
  hr.set (pushBack_frame (hr l)) (fun k _ => hx k) (pushBack_isList (hr l) (hx l))

theorem Rep.popFront {xs : List α} (hr : h.Rep A) (hA : A l = x :: xs) :
    (h.popFront l x).Rep (update A l xs) := by
  have hl : h.IsList l (x :: xs) := hA ▸ hr l
  refine hr.set (x := x) ?_ (fun k hk hxk => hk (hr.disjoint hxk (by simp [hA])))
    (popFront_isList hl)
  rw [hA]
  exact (popFront_frame hl).mono (List.subset_cons_self _ _)

theorem Rep.insertSorted {key : α → Nat} {w fuel : Nat} (hr : h.Rep A) (hx : ∀ k, x ∉ A k)
    (hf : (A l).length ≤ fuel) :
    (h.insertSorted l key w fuel x).Rep (update A l (insertKey key w x (A l))) := by
  have hi : _ ∧ Frame h (h.insertSorted l key w fuel x) l (x :: A l) :=
    insertSorted_isList (hr l) (hx l) hf
  exact hr.set hi.2 (fun k _ => hx k) hi.1

end

/-! ## Containers -/

section

variable (h : Heap α β) (l : β) (x : α)

@[simp] theorem unlink_container :
    (h.unlink l x).container = update h.container x none := by
  simp [unlink, setLinks, decr, stitch]

@[simp] theorem unlinkIndexed_container :
    (h.unlinkIndexed l x).container = update h.container x none := by
  have : ∀ h : Heap α β, (h.leaveIndex l x).container = h.container := by
    intro h; unfold leaveIndex; split <;> rfl
  simp [unlinkIndexed, setLinks, decr, this, stitch]

@[simp] theorem pushBack_container :
    (h.pushBack l x).container = update h.container x (some l) := by
  simp [pushBack, setLinks, incr]

@[simp] theorem popFront_container : (h.popFront l x).container = h.container := by
  simp [popFront, decr]

@[simp] theorem insertSorted_container (key : α → Nat) (w fuel : Nat) :
    (h.insertSorted l key w fuel x).container = update h.container x (some l) := by
  unfold insertSorted
  dsimp only
  split
  · rfl
  · split <;> simp [setLinks, incr]

@[simp] theorem unlink_index : (h.unlink l x).index = h.index := by
  simp [unlink, setLinks, decr, stitch]

@[simp] theorem pushBack_index : (h.pushBack l x).index = h.index := by
  simp [pushBack, setLinks, incr]

@[simp] theorem popFront_index : (h.popFront l x).index = h.index := by
  simp [popFront, decr]

@[simp] theorem insertSorted_index (key : α → Nat) (w fuel : Nat) :
    (h.insertSorted l key w fuel x).index = h.index := by
  unfold insertSorted
  dsimp only
  split
  · rfl
  · split <;> simp [setLinks, incr]

end

end Heap
end Rpitos
