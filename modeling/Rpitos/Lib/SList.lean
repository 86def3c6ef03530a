import Mathlib.Logic.Function.Basic
import Mathlib.Data.List.Nodup

/-!
# Lib.SList

Singly linked lists that end in a null pointer. `Chain next p l` says that following `next` from `p`
visits exactly the nodes `l`; such a list has no cycle and no node twice. The walks take a bound on
their steps and give `none` when it runs out; `Chain` bounds them by the length of the list.
-/

namespace Rpitos

open Function

variable {α : Type}

/-- The nodes that `next` visits from `p` on are `l`. -/
def Chain (next : α → Option α) : Option α → List α → Prop
  | p, [] => p = none
  | p, a :: l => p = some a ∧ Chain next (next a) l

/-- The first node from `p` on that satisfies `stop`. -/
def seekNode (next : α → Option α) (stop : α → Bool) : Nat → Option α → Option (Option α)
  | 0, _ => none
  | _ + 1, none => some none
  | n + 1, some a => if stop a then some (some a) else seekNode next stop n (next a)

/-- Adds `t` behind the leading nodes with a smaller or equal key. -/
def insertBy (key : α → Nat) (t : α) : List α → List α
  | [] => [t]
  | a :: l => if key a ≤ key t then a :: insertBy key t l else t :: a :: l

theorem mem_insertBy {key : α → Nat} {t a : α} {l : List α} :
    a ∈ insertBy key t l ↔ a = t ∨ a ∈ l := by
  induction l with
  | nil => simp [insertBy]
  | cons b l ih =>
    unfold insertBy
    split
    · simp only [List.mem_cons, ih]; tauto
    · simp only [List.mem_cons]

/-- Inserting into a sorted list leaves it sorted. -/
theorem pairwise_insertBy {key : α → Nat} {t : α} {l : List α}
    (hs : l.Pairwise fun a b => key a ≤ key b) :
    (insertBy key t l).Pairwise fun a b => key a ≤ key b := by
  induction l with
  | nil => exact List.pairwise_singleton _ t
  | cons b l ih =>
    obtain ⟨hb, hs'⟩ := List.pairwise_cons.mp hs
    unfold insertBy
    split
    · rename_i hle
      refine List.pairwise_cons.mpr ⟨fun a ha => ?_, ih hs'⟩
      rcases mem_insertBy.mp ha with rfl | ha
      · exact hle
      · exact hb a ha
    · rename_i hle
      refine List.pairwise_cons.mpr ⟨fun a ha => ?_, hs⟩
      rcases List.mem_cons.mp ha with rfl | ha
      · omega
      · have := hb a ha
        omega

namespace Chain

variable {next next' : α → Option α} {p q : Option α} {a b : α} {l l' l₁ l₂ : List α}

theorem congr (hc : Chain next p l) (h : ∀ a ∈ l, next' a = next a) : Chain next' p l := by
  induction l generalizing p with
  | nil => exact hc
  | cons a l ih =>
    obtain ⟨hp, hc⟩ := hc
    refine ⟨hp, ?_⟩
    rw [h a (List.mem_cons_self ..)]
    exact ih hc fun b hb => h b (List.mem_cons_of_mem _ hb)

theorem unique (h : Chain next p l) (h' : Chain next p l') : l = l' := by
  induction l generalizing p l' with
  | nil =>
    cases l' with
    | nil => rfl
    | cons b l' => cases h.symm.trans h'.1
  | cons a l ih =>
    obtain ⟨rfl, h⟩ := h
    cases l' with
    | nil => cases h'
    | cons b l' =>
      obtain ⟨hb, h'⟩ := h'
      cases hb
      rw [ih h h']

/-- The rest of a list is a list. -/
theorem suffix (h : Chain next p (l₁ ++ b :: l₂)) : Chain next (some b) (b :: l₂) := by
  induction l₁ generalizing p with
  | nil => exact ⟨rfl, h.2⟩
  | cons a l₁ ih => exact ih h.2

theorem nodup (h : Chain next p l) : l.Nodup := by
  induction l generalizing p with
  | nil => exact List.nodup_nil
  | cons a l ih =>
    refine List.nodup_cons.mpr ⟨fun ha => ?_, ih h.2⟩
    -- A second visit to `a` would be followed by the same nodes, which are fewer.
    obtain ⟨l₁, l₂, rfl⟩ := List.append_of_mem ha
    have heq := List.cons.inj (unique ⟨rfl, h.2⟩ (suffix h.2))
    have hlen := congrArg List.length heq.2
    simp only [List.length_append, List.length_cons] at hlen
    omega

/-- The list up to `b` is kept, what follows is replaced. -/
theorem splice (h : Chain next p (l₁ ++ b :: l₂)) (hsame : ∀ a ∈ l₁, next' a = next a)
    (hrest : Chain next' (next' b) l) : Chain next' p (l₁ ++ b :: l) := by
  induction l₁ generalizing p with
  | nil => exact ⟨h.1, hrest⟩
  | cons a l₁ ih =>
    refine ⟨h.1, ?_⟩
    rw [hsame a (List.mem_cons_self ..)]
    exact ih h.2 fun c hc => hsame c (List.mem_cons_of_mem _ hc)

theorem seekNode {stop : α → Bool} {n : Nat} (h : Chain next p l) (hn : l.length < n) :
    seekNode next stop n p = some (l.find? stop) := by
  induction n generalizing p l with
  | zero => cases hn
  | succ n ih =>
    cases l with
    | nil => cases h; rfl
    | cons a l =>
      obtain ⟨rfl, h⟩ := h
      unfold Rpitos.seekNode
      split
      · rename_i hs; rw [List.find?_cons_of_pos hs]
      · rename_i hs
        rw [List.find?_cons_of_neg hs]
        exact ih h (Nat.lt_of_succ_lt_succ hn)

/-- A node that points to itself starts no list. -/
theorem not_loop (hloop : next a = some a) : ¬ Chain next (some a) l := by
  intro h
  cases l with
  | nil => cases h
  | cons b l =>
    obtain ⟨hb, h'⟩ := id h
    cases hb
    rw [hloop] at h'
    have hlen := congrArg List.length (unique h h')
    simp only [List.length_cons] at hlen
    omega

end Chain

section Operations

variable [DecidableEq α] {next : α → Option α} {head : Option α} {t : α} {l : List α} {n : Nat}

/-- Removes `t`: whether it was there, the links and the head. -/
def unlinkNode (next : α → Option α) (head : Option α) (t : α) (n : Nat) :
    Option (Bool × (α → Option α) × Option α) :=
  if head = some t then some (true, update next t none, next t)
  else
    match seekNode next (fun iter => next iter = some t) n head with
    | none => none
    | some none => some (false, next, head)
    | some (some iter) => some (true, update (update next iter (next t)) t none, head)

/-- Adds `t` behind the nodes with a smaller or equal key: the links and the head. -/
def insertNode (next : α → Option α) (head : Option α) (key : α → Nat) (t : α) (n : Nat) :
    Option ((α → Option α) × Option α) :=
  let next := update next t none
  let front := match head with
    | none => true
    | some h => key t < key h
  if front then some (update next t head, some t)
  else
    let stop := fun iter => match next iter with
      | none => true
      | some b => !decide (key b ≤ key t)
    match seekNode next stop n head with
    | none => none
    | some none => some (next, head)
    | some (some iter) => some (update (update next t (next iter)) iter (some t), head)

/-- Only the node before `t` points to it. -/
theorem Chain.find_before {l₁ l₂ : List α} {b : α}
    (h : Chain next head (l₁ ++ b :: t :: l₂)) :
    (l₁ ++ b :: t :: l₂).find? (fun iter => next iter = some t) = some b := by
  induction l₁ generalizing head with
  | nil => exact List.find?_cons_of_pos (by simpa using h.2.1)
  | cons a l₁ ih =>
    have hnd := h.nodup
    have ha : next a ≠ some t := by
      intro hat
      have hrest := h.2
      rw [hat] at hrest
      cases l₁ with
      | nil => cases hrest.1; simp at hnd
      | cons c l₁ => cases hrest.1; simp at hnd
    rw [List.cons_append, List.find?_cons_of_neg (by simpa using ha)]
    exact ih h.2

/-- Unlinking a node of a list takes it out and leaves all other nodes. -/
theorem Chain.unlinkNode (h : Chain next head l) (ht : t ∈ l) (hn : l.length < n) :
    ∃ next' head', unlinkNode next head t n = some (true, next', head') ∧
      Chain next' head' (l.erase t) ∧ ∀ a, a ∉ l → next' a = next a := by
  have hnd := h.nodup
  unfold Rpitos.unlinkNode
  obtain ⟨l₁, l₂, rfl⟩ := List.append_of_mem ht
  have ht₁ : t ∉ l₁ := by
    intro hm
    exact (List.nodup_append.mp hnd).2.2 t hm t (List.mem_cons_self ..) rfl
  have ht₂ : t ∉ l₂ := (List.nodup_cons.mp (List.nodup_append.mp hnd).2.1).1
  rw [List.erase_append_right _ ht₁, List.erase_cons_head]
  rcases List.eq_nil_or_concat l₁ with rfl | ⟨l₁, b, rfl⟩
  · obtain ⟨rfl, h⟩ := h
    rw [if_pos rfl]
    refine ⟨_, _, rfl, h.congr fun a ha => ?_, fun a ha => ?_⟩
    · exact update_of_ne (ne_of_mem_of_not_mem ha ht₂) ..
    · exact update_of_ne (ne_of_mem_of_not_mem ht ha).symm ..
  · simp only [List.append_assoc, List.singleton_append, List.concat_eq_append]
      at h hn hnd ht ht₁ ⊢
    have hhead : head ≠ some t := by
      intro he
      cases l₁ with
      | nil => cases he.symm.trans h.1; simp at ht₁
      | cons c l₁ => cases he.symm.trans h.1; simp at ht₁
    have hbt : b ≠ t := fun he => ht₁ (by simp [he])
    rw [if_neg hhead, h.seekNode hn, h.find_before]
    have hb₂ : b ∉ l₂ := fun hb =>
      (List.nodup_cons.mp (List.nodup_append.mp hnd).2.1).1 (List.mem_cons_of_mem _ hb)
    have hb₁ : b ∉ l₁ := fun hb =>
      (List.nodup_append.mp hnd).2.2 b hb b (List.mem_cons_self ..) rfl
    refine ⟨_, _, rfl, h.splice (fun a ha => ?_) ?_, fun a ha => ?_⟩
    · rw [update_of_ne (ne_of_mem_of_not_mem ha fun hm => ht₁ (List.mem_append_left _ hm)),
        update_of_ne (ne_of_mem_of_not_mem ha hb₁)]
    · rw [update_of_ne hbt, update_self]
      refine h.suffix.2.2.congr fun a ha => ?_
      rw [update_of_ne (ne_of_mem_of_not_mem ha ht₂), update_of_ne (ne_of_mem_of_not_mem ha hb₂)]
    · rw [update_of_ne (ne_of_mem_of_not_mem ht ha).symm,
        update_of_ne (ne_of_mem_of_not_mem (by simp) ha).symm]

omit [DecidableEq α] in
/-- The walk stops at the node behind which `t` belongs. -/
theorem Chain.find_last {b : α} (h : Chain next head (b :: l)) (key : α → Nat) (t : α)
    (hb : key b ≤ key t) : ∃ l₁ c l₂, b :: l = l₁ ++ c :: l₂ ∧
      insertBy key t (b :: l) = l₁ ++ c :: t :: l₂ ∧
      (b :: l).find? (fun iter => match next iter with
        | none => true
        | some b => !decide (key b ≤ key t)) = some c := by
  induction l generalizing head b with
  | nil =>
    refine ⟨[], b, [], rfl, by simp [insertBy, hb], List.find?_cons_of_pos ?_⟩
    rw [show next b = none from h.2]
  | cons d l ih =>
    have hnext : next b = some d := h.2.1
    unfold insertBy
    rw [if_pos hb]
    by_cases hd : key d ≤ key t
    · obtain ⟨l₁, c, l₂, hl, hi, hf⟩ := ih h.2 hd
      refine ⟨b :: l₁, c, l₂, by rw [hl]; rfl, by rw [hi]; rfl, ?_⟩
      rw [List.find?_cons_of_neg (by rw [hnext]; simpa using hd)]
      exact hf
    · refine ⟨[], b, d :: l, rfl, ?_, List.find?_cons_of_pos (by rw [hnext]; simpa using hd)⟩
      unfold insertBy
      rw [if_neg hd]; rfl

/-- Inserting a node that is not in the list puts it behind the smaller and equal keys, and leaves
all other nodes. -/
theorem Chain.insertNode (h : Chain next head l) (key : α → Nat) (ht : t ∉ l)
    (hn : l.length < n) :
    ∃ next' head', insertNode next head key t n = some (next', head') ∧
      Chain next' head' (insertBy key t l) ∧ ∀ a, a ∉ l → a ≠ t → next' a = next a := by
  have h' : Chain (update next t none) head l :=
    h.congr fun a ha => update_of_ne (ne_of_mem_of_not_mem ha ht) ..
  unfold Rpitos.insertNode
  cases l with
  | nil =>
    cases h
    refine ⟨_, _, rfl, ⟨rfl, ?_⟩, fun a _ ha => ?_⟩
    · exact update_self ..
    · rw [update_of_ne ha, update_of_ne ha]
  | cons b l =>
    obtain ⟨rfl, -⟩ := id h
    by_cases hb : key t < key b
    · simp only [hb, decide_true, if_true]
      refine ⟨_, _, rfl, ?_, fun a _ ha => ?_⟩
      · unfold insertBy
        rw [if_neg (by omega)]
        refine ⟨rfl, ?_⟩
        rw [update_self]
        exact h'.congr fun a ha => update_of_ne (ne_of_mem_of_not_mem ha ht) ..
      · rw [update_of_ne ha, update_of_ne ha]
    · simp only [hb, decide_false, Bool.false_eq_true, if_false]
      obtain ⟨l₁, c, l₂, hl, hi, hf⟩ := h'.find_last key t (by omega)
      rw [h'.seekNode hn, hf, hi]
      rw [hl] at h' ht
      have hnd := h'.nodup
      have hc₁ : c ∉ l₁ := fun hc =>
        (List.nodup_append.mp hnd).2.2 c hc c (List.mem_cons_self ..) rfl
      have hc₂ : c ∉ l₂ := (List.nodup_cons.mp (List.nodup_append.mp hnd).2.1).1
      have hct : c ≠ t := ne_of_mem_of_not_mem (by simp) ht
      refine ⟨_, _, rfl, h'.splice (fun a ha => ?_) ?_, fun a ha hat => ?_⟩
      · rw [update_of_ne (ne_of_mem_of_not_mem ha hc₁),
          update_of_ne (ne_of_mem_of_not_mem (List.mem_append_left _ ha) ht)]
      · rw [update_self]
        refine ⟨rfl, ?_⟩
        rw [update_of_ne hct.symm, update_self]
        refine h'.suffix.2.congr fun a ha => ?_
        rw [update_of_ne (ne_of_mem_of_not_mem ha hc₂),
          update_of_ne (ne_of_mem_of_not_mem (by simp [ha]) ht)]
      · rw [hl] at ha
        rw [update_of_ne (ne_of_mem_of_not_mem (by simp) ha).symm, update_of_ne hat,
          update_of_ne hat]

end Operations
end Rpitos
