import Mathlib.Data.List.Nodup
import Mathlib.Logic.Function.Basic

/-!
# Lib.DList

Intrusive doubly linked lists over an arbitrary type `α` of nodes and an arbitrary type `β` of
list headers. The heap is one function for each link field, so a store is a `Function.update`.

* `Heap.IsList h l xs` says that the header `l` and the links of `xs` form a well-formed list that
  visits exactly `xs`: no node twice, no cycle, `prev` inverse to `next`, the counter equal to
  the length.
* `Heap.Rep h A` says it of every header at once; since a node names one container, the lists
  are disjoint.
* `Heap.unlink`, `unlinkIndexed`, `pushBack`, `popFront`, `insertSorted` are the pointer
  operations. What each does to `IsList` is in `Lib.DListOps`, and to `Rep` in `Lib.DListRep`.
-/

namespace Rpitos

open Function

/-- The link fields of all nodes and headers. The counter is 16 bits wide. -/
structure Heap (α β : Type) where
  next : α → Option α
  prev : α → Option α
  container : α → Option β
  head : β → Option α
  index : β → Option α
  list_end : β → Option α
  num_items : β → Nat

namespace Heap

variable {α β : Type}

/-- All links null. -/
def empty : Heap α β where
  next _ := none
  prev _ := none
  container _ := none
  head _ := none
  index _ := none
  list_end _ := none
  num_items _ := 0

/-! ## Chains -/

/-- The first of `xs`, or `q`. -/
def first : List α → Option α → Option α
  | [], q => q
  | x :: _, _ => some x

/-- The last of `xs`, or `p`. -/
def last : Option α → List α → Option α
  | p, [] => p
  | _, x :: xs => last (some x) xs

/-- The nodes `xs` are chained in both directions, from `p` on the left to `q` on the right. -/
def Seg (h : Heap α β) : Option α → List α → Option α → Prop
  | _, [], _ => True
  | p, x :: xs, q => h.prev x = p ∧ h.next x = first xs q ∧ Seg h (some x) xs q

@[simp] theorem first_nil (q : Option α) : first [] q = q := rfl
@[simp] theorem first_cons (x : α) (xs : List α) (q : Option α) : first (x :: xs) q = some x := rfl
@[simp] theorem last_nil (p : Option α) : last p [] = p := rfl
@[simp] theorem last_cons (p : Option α) (x : α) (xs : List α) :
    last p (x :: xs) = last (some x) xs := rfl

@[simp] theorem first_append (xs ys : List α) (q : Option α) :
    first (xs ++ ys) q = first xs (first ys q) := by
  cases xs <;> rfl

@[simp] theorem last_append (xs ys : List α) :
    ∀ p : Option α, last p (xs ++ ys) = last (last p xs) ys := by
  induction xs with
  | nil => intro p; rfl
  | cons x xs ih => intro p; exact ih (some x)

theorem first_eq_head? (xs : List α) : first xs none = xs.head? := by
  cases xs <;> rfl

theorem last_mem {xs : List α} : ∀ {p : Option α} {y : α}, last p xs = some y → p = some y ∨ y ∈ xs := by
  induction xs with
  | nil => intro p y h; exact .inl h
  | cons x xs ih =>
    intro p y h
    rcases ih h with h | h
    · cases h; exact .inr (by simp)
    · exact .inr (List.mem_cons_of_mem _ h)

theorem first_mem {xs : List α} {q : Option α} {y : α} (h : first xs q = some y) :
    q = some y ∨ y ∈ xs := by
  cases xs with
  | nil => exact .inl h
  | cons x xs => cases h; exact .inr (by simp)

theorem seg_append {h : Heap α β} {xs ys : List α} :
    ∀ {p q : Option α},
      Seg h p (xs ++ ys) q ↔ Seg h p xs (first ys q) ∧ Seg h (last p xs) ys q := by
  induction xs with
  | nil => intro p q; simp [Seg]
  | cons x xs ih => intro p q; simp [Seg, ih, and_assoc]

/-- A chain only depends on the links of its own nodes. -/
theorem Seg.congr {h h' : Heap α β} {xs : List α} :
    ∀ {p q : Option α}, (∀ y ∈ xs, h'.next y = h.next y) → (∀ y ∈ xs, h'.prev y = h.prev y) →
      Seg h p xs q → Seg h' p xs q := by
  induction xs with
  | nil => intros; trivial
  | cons x xs ih =>
    intro p q hn hp hs
    obtain ⟨h1, h2, h3⟩ := hs
    refine ⟨by rw [hp x (by simp), h1], by rw [hn x (by simp), h2], ?_⟩
    exact ih (fun y hy => hn y (by simp [hy])) (fun y hy => hp y (by simp [hy])) h3

/-- Redirecting the last `next` link changes where the chain ends. -/
theorem Seg.setNext {h h' : Heap α β} {xs : List α} {a : α} {p q q' : Option α}
    (hs : Seg h p (xs ++ [a]) q) (hn : ∀ y ∈ xs, h'.next y = h.next y) (ha : h'.next a = q')
    (hp : ∀ y ∈ xs ++ [a], h'.prev y = h.prev y) : Seg h' p (xs ++ [a]) q' := by
  rw [seg_append] at hs ⊢
  obtain ⟨h1, h2, -, -⟩ := hs
  refine ⟨h1.congr hn (fun y hy => hp y (by simp [hy])), ?_, by simp [ha], trivial⟩
  rw [hp a (by simp), h2]

/-- Redirecting the first `prev` link changes where the chain starts. -/
theorem Seg.setPrev {h h' : Heap α β} {xs : List α} {b : α} {p p' q : Option α}
    (hs : Seg h p (b :: xs) q) (hp : ∀ y ∈ xs, h'.prev y = h.prev y) (hb : h'.prev b = p')
    (hn : ∀ y ∈ b :: xs, h'.next y = h.next y) : Seg h' p' (b :: xs) q := by
  obtain ⟨-, h2, h3⟩ := hs
  exact ⟨hb, by rw [hn b (by simp), h2], h3.congr (fun y hy => hn y (by simp [hy])) hp⟩

/-! ## Lists -/

/-- The header `l` and the nodes `xs` form a well-formed list. -/
structure IsList (h : Heap α β) (l : β) (xs : List α) : Prop where
  seg : Seg h none xs none
  head_eq : h.head l = first xs none
  end_eq : h.list_end l = last none xs
  count : h.num_items l = xs.length % 65536
  nodup : xs.Nodup
  container : ∀ x ∈ xs, h.container x = some l

/-- `h'` differs from `h` at most in the header `l` and in the links of the nodes in `S`. -/
structure Frame (h h' : Heap α β) (l : β) (S : List α) : Prop where
  next : ∀ y, y ∉ S → h'.next y = h.next y
  prev : ∀ y, y ∉ S → h'.prev y = h.prev y
  container : ∀ y, y ∉ S → h'.container y = h.container y
  head : ∀ k, k ≠ l → h'.head k = h.head k
  list_end : ∀ k, k ≠ l → h'.list_end k = h.list_end k
  num_items : ∀ k, k ≠ l → h'.num_items k = h.num_items k

theorem Frame.mono {h h' : Heap α β} {l : β} {S T : List α} (hf : Frame h h' l S) (hs : S ⊆ T) :
    Frame h h' l T :=
  ⟨fun y hy => hf.next y (fun hm => hy (hs hm)), fun y hy => hf.prev y (fun hm => hy (hs hm)),
    fun y hy => hf.container y (fun hm => hy (hs hm)), hf.head, hf.list_end, hf.num_items⟩

/-- Every header is the list that `A` gives it. -/
def Rep (h : Heap α β) (A : β → List α) : Prop := ∀ l, h.IsList l (A l)

theorem IsList.frame {h h' : Heap α β} {l k : β} {S xs : List α} (hl : h.IsList k xs)
    (hf : Frame h h' l S) (hk : k ≠ l) (hd : ∀ y ∈ xs, y ∉ S) : h'.IsList k xs where
  seg := hl.seg.congr (fun y hy => hf.next y (hd y hy)) (fun y hy => hf.prev y (hd y hy))
  head_eq := by rw [hf.head k hk, hl.head_eq]
  end_eq := by rw [hf.list_end k hk, hl.end_eq]
  count := by rw [hf.num_items k hk, hl.count]
  nodup := hl.nodup
  container := fun y hy => by rw [hf.container y (hd y hy), hl.container y hy]

theorem Rep.disjoint {h : Heap α β} {A : β → List α} (hr : h.Rep A) {l k : β} {x : α}
    (hx : x ∈ A l) (hx' : x ∈ A k) : l = k := by
  have h1 := (hr l).container x hx
  have h2 := (hr k).container x hx'
  rw [h1] at h2
  exact Option.some.inj h2

theorem nodup_mid {as bs : List α} {x : α} (h : (as ++ x :: bs).Nodup) :
    as.Nodup ∧ bs.Nodup ∧ x ∉ as ∧ x ∉ bs ∧ ∀ y ∈ as, y ∉ bs := by
  rw [List.nodup_append] at h
  obtain ⟨h1, h2, h3⟩ := h
  rw [List.nodup_cons] at h2
  refine ⟨h1, h2.2, fun hx => h3 x hx x (by simp) rfl, h2.1, fun y hy hy' => ?_⟩
  exact h3 y hy y (List.mem_cons_of_mem _ hy') rfl

theorem last_ne {as : List α} {y : α} (hy : y ∉ as) : last none as ≠ some y := by
  intro h
  rcases last_mem h with h | h
  · cases h
  · exact hy h

theorem first_ne {bs : List α} {y : α} (hy : y ∉ bs) : first bs none ≠ some y := by
  intro h
  rcases first_mem h with h | h
  · cases h
  · exact hy h

theorem IsList.split {h : Heap α β} {l : β} {x : α} {as bs : List α}
    (hl : h.IsList l (as ++ x :: bs)) :
    Seg h none as (some x) ∧ h.prev x = last none as ∧ h.next x = first bs none ∧
      Seg h (some x) bs none := by
  have hs := hl.seg
  rw [seg_append] at hs
  obtain ⟨h1, hp, hn, h2⟩ := hs
  exact ⟨h1, hp, hn, h2⟩

theorem Seg.next_last {h : Heap α β} {as : List α} {a : α} {p q : Option α}
    (hs : Seg h p (as ++ [a]) q) : h.next a = q := by
  rw [seg_append] at hs
  exact hs.2.2.1

/-! ## Operations -/

section Operations

variable [DecidableEq α] [DecidableEq β]

/-- `if (p != NULL) p->next = v; else l->head = v;` -/
def linkNext (h : Heap α β) (l : β) (p v : Option α) : Heap α β :=
  match p with
  | some a => { h with next := update h.next a v }
  | none => { h with head := update h.head l v }

/-- `if (n != NULL) n->prev = v; else l->list_end = v;` -/
def linkPrev (h : Heap α β) (l : β) (n v : Option α) : Heap α β :=
  match n with
  | some b => { h with prev := update h.prev b v }
  | none => { h with list_end := update h.list_end l v }

/-- Join the two neighbours of `x`, or move the ends of `l` past `x`. -/
def stitch (h : Heap α β) (l : β) (x : α) : Heap α β :=
  let h₁ := h.linkNext l (h.prev x) (h.next x)
  h₁.linkPrev l (h₁.next x) (h₁.prev x)

def decr (h : Heap α β) (l : β) : Heap α β :=
  { h with num_items := update h.num_items l ((h.num_items l + 65535) % 65536) }

def incr (h : Heap α β) (l : β) : Heap α β :=
  { h with num_items := update h.num_items l ((h.num_items l + 1) % 65536) }

/-- Store all three links of `x`. -/
def setLinks (h : Heap α β) (x : α) (next prev : Option α) (container : Option β) : Heap α β :=
  { h with next := update h.next x next
           prev := update h.prev x prev
           container := update h.container x container }

/-- Take `x` out of `l`. -/
def unlink (h : Heap α β) (l : β) (x : α) : Heap α β :=
  ((h.stitch l x).decr l).setLinks x none none none

/-- Move the index of `l` off `x`: to the node after it, else to the head. -/
def leaveIndex (h : Heap α β) (l : β) (x : α) : Heap α β :=
  if h.index l = some x then
    { h with index := update h.index l (match h.next x with | some n => some n | none => h.head l) }
  else h

/-- Take `x` out of `l` when `l` keeps an index. -/
def unlinkIndexed (h : Heap α β) (l : β) (x : α) : Heap α β :=
  (((h.stitch l x).leaveIndex l x).decr l).setLinks x none none none

/-- Append `x` to `l`. -/
def pushBack (h : Heap α β) (l : β) (x : α) : Heap α β :=
  let h₁ := h.setLinks x none (h.list_end l) (some l)
  let h₂ := h₁.linkNext l (h₁.list_end l) (some x)
  { h₂ with list_end := update h₂.list_end l (some x) }.incr l

/-- Drop the first node `x` of `l` from the chain; `x` keeps its own links. -/
def popFront (h : Heap α β) (l : β) (x : α) : Heap α β :=
  let h₁ := { h with head := update h.head l (h.next x) }
  (h₁.linkPrev l (h₁.head l) none).decr l

/-- Walk from `it` while the key of the next node is at most `w`. -/
def seek (h : Heap α β) (key : α → Nat) (w : Nat) : Nat → α → α
  | 0, it => it
  | fuel + 1, it =>
    match h.next it with
    | some y => if key y ≤ w then seek h key w fuel y else it
    | none => it

/-- Insert `x`, of key `w`, into `l`, kept in ascending order of `key`. -/
def insertSorted (h : Heap α β) (l : β) (key : α → Nat) (w fuel : Nat) (x : α) : Heap α β :=
  let h₁ := h.setLinks x none none (some l)
  match h₁.head l with
  | none =>
    { h₁ with head := update h₁.head l (some x)
              list_end := update h₁.list_end l (some x) }.incr l
  | some hd =>
    if w ≤ key hd then
      { h₁ with next := update h₁.next x (some hd)
                prev := update h₁.prev hd (some x)
                head := update h₁.head l (some x) }.incr l
    else
      let it := seek h₁ key w fuel hd
      let h₂ := h₁.setLinks x (h₁.next it) (some it) (some l)
      let h₃ := h₂.linkPrev l (h₂.next it) (some x)
      { h₃ with next := update h₃.next it (some x) }.incr l

end Operations

/-! ## What the operations touch -/

section Fields

variable [DecidableEq α] [DecidableEq β]

theorem linkNext_next (h : Heap α β) (l : β) (p v : Option α) (y : α) :
    (h.linkNext l p v).next y = if p = some y then v else h.next y := by
  cases p with
  | none => simp [linkNext]
  | some a => simp [linkNext, update_apply, eq_comm]

theorem linkNext_head (h : Heap α β) (l k : β) (p v : Option α) :
    (h.linkNext l p v).head k = if p = none ∧ k = l then v else h.head k := by
  cases p with
  | none => simp [linkNext, update_apply]
  | some a => simp [linkNext]

theorem linkPrev_prev (h : Heap α β) (l : β) (n v : Option α) (y : α) :
    (h.linkPrev l n v).prev y = if n = some y then v else h.prev y := by
  cases n with
  | none => simp [linkPrev]
  | some a => simp [linkPrev, update_apply, eq_comm]

theorem linkPrev_list_end (h : Heap α β) (l k : β) (n v : Option α) :
    (h.linkPrev l n v).list_end k = if n = none ∧ k = l then v else h.list_end k := by
  cases n with
  | none => simp [linkPrev, update_apply]
  | some a => simp [linkPrev]

section

variable (h : Heap α β) (l : β) (p v : Option α)

@[simp] theorem linkNext_prev : (h.linkNext l p v).prev = h.prev := by cases p <;> rfl
@[simp] theorem linkNext_container : (h.linkNext l p v).container = h.container := by
  cases p <;> rfl
@[simp] theorem linkNext_index : (h.linkNext l p v).index = h.index := by cases p <;> rfl
@[simp] theorem linkNext_list_end : (h.linkNext l p v).list_end = h.list_end := by cases p <;> rfl
@[simp] theorem linkNext_num_items : (h.linkNext l p v).num_items = h.num_items := by
  cases p <;> rfl
@[simp] theorem linkPrev_next : (h.linkPrev l p v).next = h.next := by cases p <;> rfl
@[simp] theorem linkPrev_container : (h.linkPrev l p v).container = h.container := by
  cases p <;> rfl
@[simp] theorem linkPrev_index : (h.linkPrev l p v).index = h.index := by cases p <;> rfl
@[simp] theorem linkPrev_head : (h.linkPrev l p v).head = h.head := by cases p <;> rfl
@[simp] theorem linkPrev_num_items : (h.linkPrev l p v).num_items = h.num_items := by
  cases p <;> rfl

end

end Fields

end Heap
end Rpitos
