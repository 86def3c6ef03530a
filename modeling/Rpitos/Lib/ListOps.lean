import Rpitos.Lib.DListRep

/-!
# Lib.ListOps

The list operations as an interface, with two implementations: `Heap`, where a list is a chain of
pointers, and `Seqs`, where it is the sequence of its nodes. A program over `ListOps` runs on both;
`Heap.Refines` relates the two runs, and there is one `Refines` lemma for each operation.

`Seqs.Exact s stale` says that a node is in the list its container names and in no other. The nodes
in `stale` are the exception: they are in no list, whatever their container says.
-/

namespace Rpitos

open Function

/-- Lists as sequences: the nodes of each header, the header each node names, the indices. -/
structure Seqs (α β : Type) where
  list : β → List α
  container : α → Option β
  index : β → Option α

/-- No list holds anything. -/
def Seqs.empty {α β : Type} : Seqs α β where
  list _ := []
  container _ := none
  index _ := none

/-- What a program may do with its lists. -/
class ListOps (L : Type) (α β : outParam Type) where
  container : L → α → Option β
  index : L → β → Option α
  head : L → β → Option α
  num_items : L → β → Nat
  /-- The nodes of a list, in the order of a walk of at most so many steps from the head. -/
  walk : L → β → Nat → List α
  /-- Append a node. -/
  pushBack : L → β → α → L
  /-- Append a node; the first node of a list becomes its index. -/
  pushBackIndexed : L → β → α → L
  unlink : L → β → α → L
  unlinkIndexed : L → β → α → L
  popFront : L → β → α → L
  insertSorted : L → β → (α → Nat) → Nat → Nat → α → L
  /-- The index moves to the next node, at the end to the head. -/
  advanceIndex : L → β → L
  /-- All links of the node null. -/
  clearNode : L → α → L
  /-- All fields of the header null. -/
  clearHeader : L → β → L

namespace Heap

variable {α β : Type}

/-- At most `n` nodes along `next`, from `it`. -/
def walkFrom (h : Heap α β) : Nat → Option α → List α
  | 0, _ => []
  | _, none => []
  | n + 1, some x => x :: walkFrom h n (h.next x)

theorem Seg.walkFrom {h : Heap α β} {xs : List α} :
    ∀ {p : Option α} {n : Nat}, Seg h p xs none → xs.length ≤ n →
      h.walkFrom n (first xs none) = xs := by
  induction xs with
  | nil => intro p n _ _; cases n <;> rfl
  | cons x xs ih =>
    intro p n hs hn
    cases n with
    | zero => simp at hn
    | succ n =>
      obtain ⟨-, h2, h3⟩ := hs
      simp only [first_cons, Heap.walkFrom, h2]
      rw [ih h3 (by simpa using hn)]

variable [DecidableEq α] [DecidableEq β]

/-- `pushBack`, and the first node of a list becomes its index. -/
def pushBackIndexed (h : Heap α β) (l : β) (x : α) : Heap α β :=
  match h.list_end l with
  | some _ => h.pushBack l x
  | none => { h.pushBack l x with index := update h.index l (some x) }

def advanceIndex (h : Heap α β) (l : β) : Heap α β :=
  match h.index l with
  | some i =>
    { h with index :=
        update h.index l (match h.next i with | some n => some n | none => h.head l) }
  | none => h

def clearHeader (h : Heap α β) (l : β) : Heap α β :=
  { h with head := update h.head l none
           index := update h.index l none
           list_end := update h.list_end l none
           num_items := update h.num_items l 0 }

instance : ListOps (Heap α β) α β where
  container := container
  index := index
  head := head
  num_items := num_items
  walk h l n := h.walkFrom n (h.head l)
  pushBack := pushBack
  pushBackIndexed := pushBackIndexed
  unlink := unlink
  unlinkIndexed := unlinkIndexed
  popFront := popFront
  insertSorted := insertSorted
  advanceIndex := advanceIndex
  clearNode h x := h.setLinks x none none none
  clearHeader := clearHeader

end Heap

namespace Seqs

variable {α β : Type} [DecidableEq α] [DecidableEq β]

def pushBack (s : Seqs α β) (l : β) (x : α) : Seqs α β :=
  { s with list := update s.list l (s.list l ++ [x])
           container := update s.container x (some l) }

def pushBackIndexed (s : Seqs α β) (l : β) (x : α) : Seqs α β :=
  { s.pushBack l x with
    index := if s.list l = [] then update s.index l (some x) else s.index }

def unlink (s : Seqs α β) (l : β) (x : α) : Seqs α β :=
  { s with list := update s.list l ((s.list l).erase x)
           container := update s.container x none }

def unlinkIndexed (s : Seqs α β) (l : β) (x : α) : Seqs α β :=
  { s.unlink l x with
    index := if s.index l = some x then
        update s.index l (Heap.cyclicAfter (s.list l) ((s.list l).erase x) x)
      else s.index }

def popFront (s : Seqs α β) (l : β) : Seqs α β :=
  { s with list := update s.list l (s.list l).tail }

def insertSorted (s : Seqs α β) (l : β) (key : α → Nat) (w : Nat) (x : α) : Seqs α β :=
  { s with list := update s.list l (Heap.insertKey key w x (s.list l))
           container := update s.container x (some l) }

def advanceIndex (s : Seqs α β) (l : β) : Seqs α β :=
  match s.index l with
  | some i => { s with index := update s.index l (Heap.cyclicAfter (s.list l) (s.list l) i) }
  | none => s

def clearNode (s : Seqs α β) (x : α) : Seqs α β :=
  { s with container := update s.container x none }

def clearHeader (s : Seqs α β) (l : β) : Seqs α β :=
  { s with list := update s.list l [], index := update s.index l none }

/-- The counter is that of the pointers: 16 bits wide. -/
instance : ListOps (Seqs α β) α β where
  container := container
  index := index
  head s l := (s.list l).head?
  num_items s l := (s.list l).length % 65536
  walk s l n := (s.list l).take n
  pushBack := pushBack
  pushBackIndexed := pushBackIndexed
  unlink := unlink
  unlinkIndexed := unlinkIndexed
  popFront s l _ := s.popFront l
  insertSorted s l key w _ x := s.insertSorted l key w x
  advanceIndex := advanceIndex
  clearNode := clearNode
  clearHeader := clearHeader

end Seqs

/-! ## Refinement -/

namespace Heap

variable {α β : Type}

/-- The pointers of `h` represent the sequences of `s`. -/
structure Refines (h : Heap α β) (s : Seqs α β) : Prop where
  rep : h.Rep s.list
  container : h.container = s.container
  index : h.index = s.index

theorem empty_refines : (empty : Heap α β).Refines Seqs.empty := ⟨empty_rep, rfl, rfl⟩

variable {h : Heap α β} {s : Seqs α β} {l : β} {x : α}

theorem Refines.head (hr : h.Refines s) (l : β) : h.head l = (s.list l).head? := by
  rw [(hr.rep l).head_eq, first_eq_head?]

theorem Refines.num_items (hr : h.Refines s) (l : β) :
    h.num_items l = (s.list l).length % 65536 := (hr.rep l).count

theorem Refines.walk (hr : h.Refines s) {n : Nat} (hn : (s.list l).length ≤ n) :
    h.walkFrom n (h.head l) = (s.list l).take n := by
  have hs := (hr.rep l).seg
  rw [(hr.rep l).head_eq, hs.walkFrom hn, List.take_of_length_le hn]

theorem Refines.list_end_none (hr : h.Refines s) (l : β) :
    h.list_end l = none ↔ s.list l = [] := by
  rw [(hr.rep l).end_eq]
  rcases List.eq_nil_or_concat' (s.list l) with h | ⟨as, a, h⟩ <;> simp [h]

variable [DecidableEq α] [DecidableEq β]

theorem Refines.pushBack (hr : h.Refines s) (hx : ∀ k, x ∉ s.list k) :
    (h.pushBack l x).Refines (s.pushBack l x) :=
  ⟨hr.rep.pushBack hx, by simp [Seqs.pushBack, hr.container], by simp [Seqs.pushBack, hr.index]⟩

theorem Refines.pushBackIndexed (hr : h.Refines s) (hx : ∀ k, x ∉ s.list k) :
    (h.pushBackIndexed l x).Refines (s.pushBackIndexed l x) := by
  have hp : (h.pushBack l x).Refines (s.pushBack l x) := hr.pushBack hx
  unfold Heap.pushBackIndexed
  by_cases he : s.list l = []
  · rw [(hr.list_end_none l).mpr he]
    exact ⟨hp.rep.index_irrel, hp.container, by simp [Seqs.pushBackIndexed, he, hr.index]⟩
  · cases hl : h.list_end l with
    | none => exact absurd ((hr.list_end_none l).mp hl) he
    | some e => exact ⟨hp.rep, hp.container, by simp [Seqs.pushBackIndexed, he, hr.index]⟩

theorem Refines.unlink (hr : h.Refines s) (hx : x ∈ s.list l) :
    (h.unlink l x).Refines (s.unlink l x) :=
  ⟨hr.rep.unlink hx, by simp [Seqs.unlink, hr.container], by simp [Seqs.unlink, hr.index]⟩

theorem Refines.unlinkIndexed (hr : h.Refines s) (hx : x ∈ s.list l) :
    (h.unlinkIndexed l x).Refines (s.unlinkIndexed l x) := by
  refine ⟨hr.rep.unlinkIndexed hx, ?_, ?_⟩
  · simp [Seqs.unlinkIndexed, Seqs.unlink, hr.container]
  · rw [unlinkIndexed_eq (hr.rep l) hx]
    simp [Seqs.unlinkIndexed, hr.index]

theorem Refines.popFront {xs : List α} (hr : h.Refines s) (hA : s.list l = x :: xs) :
    (h.popFront l x).Refines (s.popFront l) := by
  refine ⟨?_, by simp [Seqs.popFront, hr.container], by simp [Seqs.popFront, hr.index]⟩
  have := hr.rep.popFront hA
  simpa [Seqs.popFront, hA] using this

theorem Refines.insertSorted {key : α → Nat} {w fuel : Nat} (hr : h.Refines s)
    (hx : ∀ k, x ∉ s.list k) (hf : (s.list l).length ≤ fuel) :
    (h.insertSorted l key w fuel x).Refines (s.insertSorted l key w x) :=
  ⟨hr.rep.insertSorted hx hf, by simp [Seqs.insertSorted, hr.container],
    by simp [Seqs.insertSorted, hr.index]⟩

theorem Refines.advanceIndex (hr : h.Refines s) (hi : ∀ i, s.index l = some i → i ∈ s.list l) :
    (h.advanceIndex l).Refines (s.advanceIndex l) := by
  unfold Heap.advanceIndex Seqs.advanceIndex
  rw [hr.index]
  cases hc : s.index l with
  | none => exact hr
  | some i =>
    have hn : (match h.next i with | some n => some n | none => h.head l) =
        cyclicAfter (s.list l) (s.list l) i := by
      rw [(hr.rep l).next_eq (hi i hc), hr.head l]
      unfold cyclicAfter
      cases after (s.list l) i <;> simp
    refine ⟨hr.rep.index_irrel, hr.container, ?_⟩
    exact congrArg (update s.index l) hn

omit [DecidableEq β] in
theorem Refines.clearNode (hr : h.Refines s) (hx : ∀ k, x ∉ s.list k) :
    (h.setLinks x none none none).Refines (s.clearNode x) := by
  have hne : ∀ k, ∀ y ∈ s.list k, y ≠ x := fun k y hy e => hx k (e ▸ hy)
  refine ⟨fun k => ?_, by simp [Seqs.clearNode, setLinks, hr.container], hr.index⟩
  have hl := hr.rep k
  refine ⟨hl.seg.congr ?_ ?_, hl.head_eq, hl.end_eq, hl.count, hl.nodup, ?_⟩ <;> intro y hy
  · simp [setLinks, hne k y hy]
  · simp [setLinks, hne k y hy]
  · simp [setLinks, hne k y hy, hl.container y hy]

omit [DecidableEq α] in
theorem Refines.clearHeader (hr : h.Refines s) (hl : s.list l = []) :
    (h.clearHeader l).Refines (s.clearHeader l) := by
  refine ⟨?_, hr.container, by simp [Heap.clearHeader, Seqs.clearHeader, hr.index]⟩
  have hc : (h.clearHeader l).IsList l [] :=
    ⟨trivial, by simp [Heap.clearHeader], by simp [Heap.clearHeader],
      by simp [Heap.clearHeader], List.nodup_nil, by simp⟩
  intro k
  by_cases hk : k = l
  · subst hk; simpa [Seqs.clearHeader] using hc
  · have hf : Frame h (h.clearHeader l) l [] := by
      refine ⟨?_, ?_, ?_, ?_, ?_, ?_⟩ <;> intro y hy <;> simp [Heap.clearHeader, hy]
    simpa [Seqs.clearHeader, hk] using (hr.rep k).frame hf hk (by simp)

end Heap

/-! ## Sequences in which containers are exact -/

namespace Seqs

variable {α β : Type}

/-- A node is in the list its container names and in no other, once. A stale node is in none. -/
structure Exact (s : Seqs α β) (stale : α → Prop) : Prop where
  nodup : ∀ l, (s.list l).Nodup
  mem_iff : ∀ x, ¬ stale x → ∀ l, x ∈ s.list l ↔ s.container x = some l
  stale_free : ∀ x, stale x → ∀ l, x ∉ s.list l

/-- The index of `l` is null exactly when `l` is empty, and otherwise one of its nodes. -/
def IndexOk (s : Seqs α β) (l : β) : Prop :=
  (s.index l = none ↔ s.list l = []) ∧ ∀ i, s.index l = some i → i ∈ s.list l

variable {s : Seqs α β} {stale : α → Prop} {l k : β} {x : α}

theorem Exact.free (he : s.Exact stale) (hc : s.container x = none) : ∀ l, x ∉ s.list l := by
  intro l hx
  by_cases hs : stale x
  · exact he.stale_free x hs l hx
  · have := (he.mem_iff x hs l).mp hx
    rw [hc] at this; cases this

theorem Exact.not_stale (he : s.Exact stale) (hx : x ∈ s.list l) : ¬ stale x :=
  fun hs => he.stale_free x hs l hx

theorem Exact.container (he : s.Exact stale) (hx : x ∈ s.list l) : s.container x = some l :=
  (he.mem_iff x (he.not_stale hx) l).mp hx

theorem Exact.congr {stale' : α → Prop} (he : s.Exact stale) (h : ∀ x, stale' x ↔ stale x) :
    s.Exact stale' :=
  ⟨he.nodup, fun x hx => he.mem_iff x (fun hs => hx ((h x).mpr hs)),
    fun x hx => he.stale_free x ((h x).mp hx)⟩

variable [DecidableEq α] [DecidableEq β]

/-- Adding to one list a node that is in none. -/
theorem Exact.add {s' : Seqs α β} {ys : List α} (he : s.Exact stale) (hc : s.container x = none)
    (hs : ¬ stale x) (hl : s'.list = update s.list l ys)
    (hc' : s'.container = update s.container x (some l)) (hn : ys.Nodup)
    (hm : ∀ y, y ∈ ys ↔ y = x ∨ y ∈ s.list l) : s'.Exact stale := by
  have hfree := he.free hc
  refine ⟨fun k => ?_, fun y hy k => ?_, fun y hy k => ?_⟩
  · by_cases hk : k = l
    · subst hk; simpa [hl] using hn
    · simpa [hl, hk] using he.nodup k
  · rw [hl, hc']
    by_cases hyx : y = x
    · subst hyx
      by_cases hk : k = l
      · subst hk; simp [hm]
      · simp [hk, hfree k, Ne.symm hk]
    · by_cases hk : k = l
      · subst hk; simp [hm, hyx, he.mem_iff y hy]
      · simp [hk, hyx, he.mem_iff y hy]
  · rw [hl]
    have hyx : y ≠ x := fun e => hs (e ▸ hy)
    by_cases hk : k = l
    · subst hk; simp [hm, hyx, he.stale_free y hy]
    · simpa [hk] using he.stale_free y hy k

theorem Exact.pushBack (he : s.Exact stale) (hc : s.container x = none) (hs : ¬ stale x) :
    (s.pushBack l x).Exact stale := by
  refine he.add hc hs rfl rfl ?_ (fun y => ?_)
  · rw [List.nodup_append]
    refine ⟨he.nodup l, by simp, fun a ha b hb => ?_⟩
    rintro rfl
    rw [List.mem_singleton] at hb
    exact he.free hc l (hb ▸ ha)
  · simp [or_comm]

theorem Exact.pushBackIndexed (he : s.Exact stale) (hc : s.container x = none) (hs : ¬ stale x) :
    (s.pushBackIndexed l x).Exact stale :=
  have hp := he.pushBack (l := l) hc hs
  ⟨hp.nodup, hp.mem_iff, hp.stale_free⟩

theorem Exact.insertSorted {key : α → Nat} {w : Nat} (he : s.Exact stale)
    (hc : s.container x = none) (hs : ¬ stale x) : (s.insertSorted l key w x).Exact stale := by
  refine he.add hc hs rfl rfl ?_ (fun y => Heap.mem_insertKey)
  exact Heap.insertKey_nodup (he.nodup l) (he.free hc l)

theorem Exact.unlink (he : s.Exact stale) (hx : x ∈ s.list l) : (s.unlink l x).Exact stale := by
  have hs : ¬ stale x := he.not_stale hx
  refine ⟨fun k => ?_, fun y hy k => ?_, fun y hy k => ?_⟩ <;> simp only [Seqs.unlink]
  · by_cases hk : k = l
    · subst hk; simpa using (he.nodup k).erase x
    · simpa [hk] using he.nodup k
  · by_cases hk : k = l
    · subst hk
      by_cases hyx : y = x
      · subst hyx; simp [(he.nodup k).not_mem_erase]
      · simp [hyx, he.mem_iff y hy]
    · by_cases hyx : y = x
      · subst hyx
        have : s.container y = some l := he.container hx
        simp [hk, he.mem_iff y hy, this, Ne.symm hk]
      · simp [hk, hyx, he.mem_iff y hy]
  · have hyx : y ≠ x := fun e => hs (e ▸ hy)
    by_cases hk : k = l
    · subst hk; simpa [hyx] using he.stale_free y hy k
    · simpa [hk] using he.stale_free y hy k

theorem Exact.unlinkIndexed (he : s.Exact stale) (hx : x ∈ s.list l) :
    (s.unlinkIndexed l x).Exact stale :=
  have hp := he.unlink hx
  ⟨hp.nodup, hp.mem_iff, hp.stale_free⟩

omit [DecidableEq α] in
/-- The popped node still names the list: it is stale until its links are cleared. -/
theorem Exact.popFront {xs : List α} (he : s.Exact stale) (hA : s.list l = x :: xs) :
    (s.popFront l).Exact (fun y => stale y ∨ y = x) := by
  have hn := he.nodup l
  rw [hA, List.nodup_cons] at hn
  have hxl : x ∈ s.list l := by simp [hA]
  refine ⟨fun k => ?_, fun y hy k => ?_, fun y hy k => ?_⟩ <;> simp only [Seqs.popFront]
  · by_cases hk : k = l
    · subst hk; simpa [hA] using hn.2
    · simpa [hk] using he.nodup k
  · obtain ⟨hy, hyx⟩ := not_or.mp hy
    by_cases hk : k = l
    · subst hk
      have := he.mem_iff y hy k
      simpa [hA, hyx] using this
    · simpa [hk] using he.mem_iff y hy k
  · by_cases hk : k = l
    · subst hk
      rcases hy with hy | rfl
      · intro hm
        exact he.stale_free y hy k (List.mem_of_mem_tail (by simpa using hm))
      · simpa [hA] using hn.1
    · rcases hy with hy | rfl
      · simpa [hk] using he.stale_free y hy k
      · rw [update_of_ne hk, he.mem_iff y (he.not_stale hxl), he.container hxl]
        simp [Ne.symm hk]

omit [DecidableEq β] in
theorem Exact.clearNode (he : s.Exact (fun y => stale y ∨ y = x)) (hs : ¬ stale x) :
    (s.clearNode x).Exact stale := by
  refine ⟨he.nodup, fun y hy k => ?_, fun y hy => he.stale_free y (.inl hy)⟩
  by_cases hyx : y = x
  · subst hyx; simp [Seqs.clearNode, he.stale_free y (.inr rfl)]
  · simp [Seqs.clearNode, hyx, he.mem_iff y (not_or.mpr ⟨hy, hyx⟩)]

/-! ## The index stays on the list -/

omit [DecidableEq α] [DecidableEq β] in
theorem IndexOk.congr {s' : Seqs α β} (hi : s.IndexOk k) (hl : s'.list k = s.list k)
    (hx : s'.index k = s.index k) : s'.IndexOk k := by
  unfold IndexOk; rw [hl, hx]; exact hi

omit [DecidableEq β] in
theorem cyclicAfter_ok {xs : List α} (hn : xs.Nodup) (hx : x ∈ xs) :
    (Heap.cyclicAfter xs (xs.erase x) x = none ↔ xs.erase x = []) ∧
      ∀ i, Heap.cyclicAfter xs (xs.erase x) x = some i → i ∈ xs.erase x := by
  obtain ⟨as, bs, hxas, rfl, her⟩ := List.exists_erase_eq hx
  rw [her, Heap.cyclicAfter, Heap.after_mid hxas]
  cases bs with
  | nil => cases as <;> simp
  | cons b bs => simp

theorem IndexOk.pushBackIndexed (hi : s.IndexOk k) : (s.pushBackIndexed l x).IndexOk k := by
  by_cases hk : k = l
  · subst hk
    by_cases he : s.list k = []
    · constructor <;> simp [Seqs.pushBackIndexed, Seqs.pushBack, he]
    · have hne : s.index k ≠ none := fun hn => he (hi.1.mp hn)
      refine ⟨by simp [Seqs.pushBackIndexed, Seqs.pushBack, he, hne], fun i h => ?_⟩
      have : i ∈ s.list k := hi.2 i (by simpa [Seqs.pushBackIndexed, he] using h)
      simp [Seqs.pushBackIndexed, Seqs.pushBack, this]
  · refine hi.congr ?_ ?_
    · simp [Seqs.pushBackIndexed, Seqs.pushBack, hk]
    · by_cases he : s.list l = [] <;> simp [Seqs.pushBackIndexed, he, hk]

theorem IndexOk.unlinkIndexed (hi : s.IndexOk k) (hn : (s.list l).Nodup) (hx : x ∈ s.list l) :
    (s.unlinkIndexed l x).IndexOk k := by
  by_cases hk : k = l
  · subst hk
    have hlist : (s.unlinkIndexed k x).list k = (s.list k).erase x := by
      simp [Seqs.unlinkIndexed, Seqs.unlink]
    by_cases hix : s.index k = some x
    · have hidx : (s.unlinkIndexed k x).index k =
          Heap.cyclicAfter (s.list k) ((s.list k).erase x) x := by
        simp [Seqs.unlinkIndexed, hix]
      unfold IndexOk; rw [hlist, hidx]
      exact cyclicAfter_ok hn hx
    · have hidx : (s.unlinkIndexed k x).index k = s.index k := by
        simp [Seqs.unlinkIndexed, Seqs.unlink, hix]
      have hne : s.list k ≠ [] := List.ne_nil_of_mem hx
      obtain ⟨i, hs⟩ := Option.ne_none_iff_exists'.mp (fun e => hne (hi.1.mp e))
      have hi' : i ∈ (s.list k).erase x := by
        rw [hn.mem_erase_iff]
        exact ⟨fun e => hix (e ▸ hs), hi.2 i hs⟩
      unfold IndexOk; rw [hlist, hidx, hs]
      refine ⟨by simp only [reduceCtorEq, List.ne_nil_of_mem hi'], fun j hj => ?_⟩
      cases hj; exact hi'
  · refine hi.congr (by simp [Seqs.unlinkIndexed, Seqs.unlink, hk]) ?_
    by_cases hix : s.index l = some x <;> simp [Seqs.unlinkIndexed, Seqs.unlink, hix, hk]

theorem IndexOk.advanceIndex (hi : s.IndexOk k) : (s.advanceIndex l).IndexOk k := by
  unfold Seqs.advanceIndex
  cases hl : s.index l with
  | none => exact hi
  | some i =>
    by_cases hk : k = l
    · subst hk
      have hm : i ∈ s.list k := hi.2 i hl
      have hne := List.ne_nil_of_mem hm
      refine ⟨?_, fun j hj => ?_⟩
      · simp only [update_self, hne, iff_false, Heap.cyclicAfter]
        cases Heap.after (s.list k) i <;> simp [hne]
      · simp only [update_self, Heap.cyclicAfter] at hj
        cases ha : Heap.after (s.list k) i with
        | none => rw [ha] at hj; exact List.mem_of_mem_head? hj
        | some n => rw [ha] at hj; cases hj; exact Heap.after_mem ha
    · exact hi.congr rfl (by simp [hk])

end Seqs
end Rpitos
