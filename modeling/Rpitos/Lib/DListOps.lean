import Rpitos.Lib.DList

/-!
# Lib.DListOps

What each operation of `Lib.DList` does to the list it works on: the sequence after it
(`unlink_isList`, `pushBack_isList`, `popFront_isList`, `insertSorted_isList`) and the links it may
touch (the `_frame` lemmas).
-/

namespace Rpitos
namespace Heap

open Function

variable {α β : Type}

/-! ## Two half joins -/

section Joins

variable [DecidableEq α] [DecidableEq β]

/-- Redirecting the right end of the chain `as` that starts at the header of `l`. -/
theorem Seg.linkNext {h : Heap α β} {l : β} {as : List α} {q v : Option α}
    (hs : Seg h none as q) (hnd : as.Nodup) :
    Seg (h.linkNext l (last none as) v) none as v := by
  rcases List.eq_nil_or_concat' as with rfl | ⟨as, a, rfl⟩
  · trivial
  · have ha : a ∉ as := by
      intro h; exact (List.nodup_append.mp hnd).2.2 a h a (by simp) rfl
    refine hs.setNext ?_ (by simp [linkNext_next]) (by simp)
    intro y hy
    have hya : a ≠ y := by rintro rfl; exact ha hy
    simp [linkNext_next, hya]

/-- Redirecting the left end of the chain `bs` that ends at the header of `l`. -/
theorem Seg.linkPrev {h : Heap α β} {l : β} {bs : List α} {p v : Option α}
    (hs : Seg h p bs none) (hnd : bs.Nodup) :
    Seg (h.linkPrev l (first bs none) v) v bs none := by
  cases bs with
  | nil => trivial
  | cons b bs =>
    have hb : b ∉ bs := (List.nodup_cons.mp hnd).1
    refine hs.setPrev ?_ (by simp [linkPrev_prev]) (by simp)
    intro y hy
    have hyb : b ≠ y := by rintro rfl; exact hb hy
    simp [linkPrev_prev, hyb]

theorem linkNext_head_last (h : Heap α β) (l : β) (as : List α) (v : Option α) {q : Option α}
    (hh : h.head l = first as q) : (h.linkNext l (last none as) v).head l = first as v := by
  rcases List.eq_nil_or_concat' as with rfl | ⟨as, a, rfl⟩
  · simp [linkNext_head]
  · simp only [linkNext_head, last_append, last_cons, last_nil, reduceCtorEq, false_and, if_false,
      hh, first_append, first_cons]

theorem linkPrev_list_end_first (h : Heap α β) (l : β) (bs : List α) (v : Option α) {p : Option α}
    (hh : h.list_end l = last p bs) : (h.linkPrev l (first bs none) v).list_end l = last v bs := by
  cases bs with
  | nil => simp [linkPrev_list_end]
  | cons b bs => simp [linkPrev_list_end, hh]

end Joins

/-! ## Removing and appending -/

section

variable [DecidableEq α] [DecidableEq β]

/-- Joining the two halves around a gap. -/
theorem Seg.join {h : Heap α β} {l : β} {as bs : List α} {q p : Option α}
    (h1 : Seg h none as q) (h2 : Seg h p bs none) (hna : as.Nodup) (hnb : bs.Nodup)
    (hab : ∀ y ∈ as, y ∉ bs) :
    Seg ((h.linkNext l (last none as) (first bs none)).linkPrev l (first bs none) (last none as))
      none (as ++ bs) none := by
  rw [seg_append]
  constructor
  · refine (h1.linkNext (l := l) hna).congr (by simp) (fun y hy => ?_)
    rw [linkPrev_prev, if_neg (first_ne (hab y hy))]
  · refine Seg.linkPrev (h2.congr (fun y hy => ?_) (by simp)) hnb
    rw [linkNext_next, if_neg (last_ne (fun hy' => hab y hy' hy))]

theorem stitch_eq {h : Heap α β} {l : β} {x : α} {as bs : List α} (hx : x ∉ as)
    (hp : h.prev x = last none as) (hn : h.next x = first bs none) :
    h.stitch l x =
      (h.linkNext l (last none as) (first bs none)).linkPrev l (first bs none) (last none as) := by
  simp only [stitch, linkNext_next, linkNext_prev, hp, hn, if_neg (last_ne hx)]

theorem unlink_isList {h : Heap α β} {l : β} {x : α} {as bs : List α}
    (hl : h.IsList l (as ++ x :: bs)) : (h.unlink l x).IsList l (as ++ bs) := by
  obtain ⟨hna, hnb, hxa, hxb, hab⟩ := nodup_mid hl.nodup
  obtain ⟨h1, hpx, hnx, h2⟩ := hl.split
  have hne : ∀ y ∈ as ++ bs, y ≠ x := by
    rintro y hy rfl
    rcases List.mem_append.mp hy with hy | hy
    · exact hxa hy
    · exact hxb hy
  have hst := stitch_eq (l := l) hxa hpx hnx
  refine ⟨?_, ?_, ?_, ?_, ?_, ?_⟩
  · refine (h1.join (l := l) h2 hna hnb hab).congr (fun y hy => ?_) (fun y hy => ?_)
    · simp [unlink, setLinks, decr, hst, hne y hy]
    · simp [unlink, setLinks, decr, hst, hne y hy]
  · have hh : h.head l = first as (some x) := by simpa using hl.head_eq
    simpa [unlink, setLinks, decr, hst] using linkNext_head_last h l as (first bs none) hh
  · have he : h.list_end l = last (some x) bs := by simpa using hl.end_eq
    have := linkPrev_list_end_first (h.linkNext l (last none as) (first bs none)) l bs
      (last none as) (p := some x) (by simpa using he)
    simpa [unlink, setLinks, decr, hst] using this
  · simp only [unlink, setLinks, decr, hst, linkPrev_num_items, linkNext_num_items, update_self,
      hl.count, List.length_append, List.length_cons]
    omega
  · exact List.nodup_append.mpr ⟨hna, hnb, fun a ha b hb e => hab a ha (e ▸ hb)⟩
  · intro y hy
    have hy' : y ∈ as ++ x :: bs := by
      rcases List.mem_append.mp hy with h | h <;> simp [h]
    simp [unlink, setLinks, decr, hst, hne y hy, hl.container y hy']

theorem unlink_frame {h : Heap α β} {l : β} {x : α} {as bs : List α}
    (hl : h.IsList l (as ++ x :: bs)) : Frame h (h.unlink l x) l (as ++ x :: bs) := by
  obtain ⟨-, -, hxa, -, -⟩ := nodup_mid hl.nodup
  obtain ⟨-, hpx, hnx, -⟩ := hl.split
  have hst := stitch_eq (l := l) hxa hpx hnx
  refine ⟨fun y hy => ?_, fun y hy => ?_, fun y hy => ?_, fun k hk => ?_, fun k hk => ?_,
    fun k hk => ?_⟩
  · simp only [List.mem_append, List.mem_cons, not_or] at hy
    simp [unlink, setLinks, decr, hst, hy.2.1, linkNext_next, last_ne hy.1]
  · simp only [List.mem_append, List.mem_cons, not_or] at hy
    simp [unlink, setLinks, decr, hst, hy.2.1, linkPrev_prev, first_ne hy.2.2]
  · simp only [List.mem_append, List.mem_cons, not_or] at hy
    simp [unlink, setLinks, decr, hst, hy.2.1]
  · simp [unlink, setLinks, decr, hst, linkNext_head, hk]
  · simp [unlink, setLinks, decr, hst, linkPrev_list_end, hk]
  · simp [unlink, setLinks, decr, hst, hk]

theorem pushBack_isList {h : Heap α β} {l : β} {x : α} {xs : List α}
    (hl : h.IsList l xs) (hx : x ∉ xs) : (h.pushBack l x).IsList l (xs ++ [x]) := by
  have hne : ∀ y ∈ xs, y ≠ x := fun y hy e => hx (e ▸ hy)
  refine ⟨?_, ?_, ?_, ?_, ?_, ?_⟩
  · rw [seg_append]
    have hs : Seg (h.setLinks x none (last none xs) (some l)) none xs none :=
      hl.seg.congr (fun y hy => by simp [setLinks, hne y hy])
        (fun y hy => by simp [setLinks, hne y hy])
    refine ⟨?_, ?_, ?_, trivial⟩
    · refine (hs.linkNext (l := l) (v := some x) hl.nodup).congr (fun y _ => ?_) (fun y _ => ?_)
      · simp [pushBack, incr, hl.end_eq, setLinks]
      · simp [pushBack, incr, hl.end_eq, setLinks]
    · simp [pushBack, incr, setLinks, hl.end_eq]
    · simp [pushBack, incr, setLinks, hl.end_eq, linkNext_next, last_ne hx]
  · have hh : (h.setLinks x none (last none xs) (some l)).head l = first xs none := by
      simpa [setLinks] using hl.head_eq
    simpa [pushBack, incr, hl.end_eq, setLinks] using linkNext_head_last _ l xs (some x) hh
  · simp [pushBack, incr]
  · simp only [pushBack, incr, setLinks, linkNext_num_items, update_self, hl.count,
      List.length_append, List.length_singleton]
    omega
  · exact List.nodup_append.mpr ⟨hl.nodup, by simp, by simpa using hne⟩
  · intro y hy
    by_cases hyx : y = x
    · simp [pushBack, incr, setLinks, hyx]
    · have : y ∈ xs := by simpa [hyx] using hy
      simp [pushBack, incr, setLinks, hyx, hl.container y this]

theorem pushBack_frame {h : Heap α β} {l : β} {x : α} {xs : List α}
    (hl : h.IsList l xs) : Frame h (h.pushBack l x) l (x :: xs) := by
  refine ⟨fun y hy => ?_, fun y hy => ?_, fun y hy => ?_, fun k hk => ?_, fun k hk => ?_,
    fun k hk => ?_⟩
  · simp only [List.mem_cons, not_or] at hy
    simp [pushBack, incr, setLinks, hl.end_eq, linkNext_next, last_ne hy.2, hy.1]
  · simp only [List.mem_cons, not_or] at hy
    simp [pushBack, incr, setLinks, hy.1]
  · simp only [List.mem_cons, not_or] at hy
    simp [pushBack, incr, setLinks, hy.1]
  · simp [pushBack, incr, setLinks, linkNext_head, hk]
  · simp [pushBack, incr, setLinks, hk]
  · simp [pushBack, incr, setLinks, hk]

theorem popFront_isList {h : Heap α β} {l : β} {x : α} {xs : List α}
    (hl : h.IsList l (x :: xs)) : (h.popFront l x).IsList l xs := by
  obtain ⟨-, -, hnx, h2⟩ := IsList.split (show h.IsList l ([] ++ x :: xs) from hl)
  have hnd := (List.nodup_cons.mp hl.nodup).2
  refine ⟨?_, ?_, ?_, ?_, hnd, ?_⟩
  · have h2' : Seg { h with head := update h.head l (first xs none) } (some x) xs none := by
      refine h2.congr ?_ ?_ <;> simp
    refine (h2'.linkPrev (l := l) (v := none) hnd).congr (fun y _ => ?_) (fun y _ => ?_)
    · simp [popFront, decr, hnx]
    · simp [popFront, decr, hnx]
  · simp [popFront, decr, hnx]
  · have he : h.list_end l = last (some x) xs := by simpa using hl.end_eq
    have := linkPrev_list_end_first { h with head := update h.head l (first xs none) } l xs none he
    simpa [popFront, decr, hnx] using this
  · simp only [popFront, decr, linkPrev_num_items, update_self, hl.count, List.length_cons]
    omega
  · intro y hy
    simp [popFront, decr, hl.container y (List.mem_cons_of_mem _ hy)]

theorem popFront_frame {h : Heap α β} {l : β} {x : α} {xs : List α}
    (hl : h.IsList l (x :: xs)) : Frame h (h.popFront l x) l (x :: xs) := by
  obtain ⟨-, -, hnx, -⟩ := IsList.split (show h.IsList l ([] ++ x :: xs) from hl)
  refine ⟨fun y hy => ?_, fun y hy => ?_, fun y hy => ?_, fun k hk => ?_, fun k hk => ?_,
    fun k hk => ?_⟩
  · simp [popFront, decr]
  · simp only [List.mem_cons, not_or] at hy
    simp [popFront, decr, hnx, linkPrev_prev, first_ne hy.2]
  · simp [popFront, decr]
  · simp [popFront, decr, hk]
  · simp [popFront, decr, linkPrev_list_end, hk]
  · simp [popFront, decr, hk]

end

/-! ## Insertion in order -/

/-- Where `insertSorted` puts `x`: behind every key at most `w`, starting after the first node. -/
def insertTail (key : α → Nat) (w : Nat) (x : α) : List α → List α
  | [] => [x]
  | y :: ys => if key y ≤ w then y :: insertTail key w x ys else x :: y :: ys

/-- The sequence that `insertSorted` makes of `xs`. -/
def insertKey (key : α → Nat) (w : Nat) (x : α) : List α → List α
  | [] => [x]
  | y :: ys => if w ≤ key y then x :: y :: ys else y :: insertTail key w x ys

theorem insertTail_split (key : α → Nat) (w : Nat) (x : α) (ys : List α) :
    ∃ as bs, ys = as ++ bs ∧ insertTail key w x ys = as ++ x :: bs ∧ (∀ y ∈ as, key y ≤ w) ∧
      (∀ b ∈ bs.head?, w < key b) := by
  induction ys with
  | nil => exact ⟨[], [], rfl, rfl, by simp, by simp⟩
  | cons y ys ih =>
    by_cases hy : key y ≤ w
    · obtain ⟨as, bs, h1, h2, h3, h4⟩ := ih
      refine ⟨y :: as, bs, by simp [h1], by simp [insertTail, hy, h2], ?_, h4⟩
      intro z hz
      rcases List.mem_cons.mp hz with rfl | hz
      · exact hy
      · exact h3 z hz
    · exact ⟨[], y :: ys, rfl, by simp [insertTail, hy], by simp, by simp; omega⟩

/-- `seek` stops at the last node of the prefix that `insertTail` skips. -/
theorem seek_eq {h : Heap α β} {key : α → Nat} {w : Nat} {as bs : List α} :
    ∀ {hd : α} {p : Option α} {fuel : Nat}, Seg h p (hd :: (as ++ bs)) none →
      (∀ y ∈ as, key y ≤ w) → (∀ b ∈ bs.head?, w < key b) → as.length < fuel →
      some (seek h key w fuel hd) = last (some hd) as := by
  induction as with
  | nil =>
    intro hd p fuel hs _ hb hf
    obtain ⟨fuel, rfl⟩ : ∃ n, fuel = n + 1 := ⟨fuel - 1, by simp at hf; omega⟩
    obtain ⟨-, hn, -⟩ := hs
    cases bs with
    | nil => simp at hn; simp [seek, hn]
    | cons b bs =>
      have : ¬ key b ≤ w := by simpa using hb b (by simp)
      simp at hn; simp [seek, hn, this]
  | cons a as ih =>
    intro hd p fuel hs ha hb hf
    obtain ⟨fuel, rfl⟩ : ∃ n, fuel = n + 1 := ⟨fuel - 1, by simp at hf; omega⟩
    obtain ⟨-, hn, hs⟩ := hs
    have hka : key a ≤ w := ha a (by simp)
    simp at hn
    simp only [seek, hn, if_pos hka, last_cons]
    exact ih hs (fun y hy => ha y (by simp [hy])) hb (by simpa using hf)

variable [DecidableEq α] [DecidableEq β]

theorem insertSorted_nil {h : Heap α β} {l : β} {key : α → Nat} {w fuel : Nat} {x : α}
    (hl : h.IsList l []) :
    (h.insertSorted l key w fuel x).IsList l [x] ∧
      Frame h (h.insertSorted l key w fuel x) l [x] := by
  have hh : h.head l = none := hl.head_eq
  have e : h.insertSorted l key w fuel x =
      { h.setLinks x none none (some l) with
        head := update h.head l (some x)
        list_end := update h.list_end l (some x) }.incr l := by
    simp [insertSorted, setLinks, hh]
  rw [e]
  constructor
  · refine ⟨?_, ?_, ?_, ?_, by simp, ?_⟩
    · simp [Seg, incr, setLinks]
    · simp [incr]
    · simp [incr]
    · simp [incr, setLinks, hl.count]
    · simp [incr, setLinks]
  · refine ⟨?_, ?_, ?_, ?_, ?_, ?_⟩ <;> intro y hy
    · simp only [List.mem_singleton] at hy; simp [incr, setLinks, hy]
    · simp only [List.mem_singleton] at hy; simp [incr, setLinks, hy]
    · simp only [List.mem_singleton] at hy; simp [incr, setLinks, hy]
    · simp [incr, hy]
    · simp [incr, hy]
    · simp [incr, setLinks, hy]

theorem insertSorted_front {h : Heap α β} {l : β} {key : α → Nat} {w fuel : Nat} {x hd : α}
    {tl : List α} (hl : h.IsList l (hd :: tl)) (hx : x ∉ hd :: tl) (hw : w ≤ key hd) :
    (h.insertSorted l key w fuel x).IsList l (x :: hd :: tl) ∧
      Frame h (h.insertSorted l key w fuel x) l (x :: hd :: tl) := by
  have hh : h.head l = some hd := hl.head_eq
  have hne : ∀ y ∈ hd :: tl, y ≠ x := fun y hy e => hx (e ▸ hy)
  have hdx : hd ≠ x := hne hd (by simp)
  have e : h.insertSorted l key w fuel x =
      { h.setLinks x (some hd) none (some l) with
        prev := update (update h.prev x none) hd (some x)
        head := update h.head l (some x) }.incr l := by
    simp [insertSorted, setLinks, hh, hw]
  rw [e]
  have hhd : hd ∉ tl := (List.nodup_cons.mp hl.nodup).1
  constructor
  · refine ⟨⟨?_, ?_, ?_⟩, ?_, ?_, ?_, ?_, ?_⟩
    · simp [incr, Ne.symm hdx]
    · simp [incr, setLinks]
    · refine hl.seg.setPrev (fun y hy => ?_) (by simp [incr]) (fun y hy => ?_)
      · have hyd : y ≠ hd := by rintro rfl; exact hhd hy
        simp [incr, hyd, hne y (List.mem_cons_of_mem _ hy)]
      · simp [incr, setLinks, hne y hy]
    · simp [incr]
    · simpa [incr, setLinks] using hl.end_eq
    · simp only [incr, setLinks, update_self, hl.count, List.length_cons]
      omega
    · exact List.nodup_cons.mpr ⟨hx, hl.nodup⟩
    · intro y hy
      by_cases hyx : y = x
      · simp [incr, setLinks, hyx]
      · have : y ∈ hd :: tl := by simpa [hyx] using hy
        simp [incr, setLinks, hyx, hl.container y this]
  · refine ⟨?_, ?_, ?_, ?_, ?_, ?_⟩ <;> intro y hy
    · simp only [List.mem_cons, not_or] at hy; simp [incr, setLinks, hy.1]
    · simp only [List.mem_cons, not_or] at hy; simp [incr, hy.1, hy.2.1]
    · simp only [List.mem_cons, not_or] at hy; simp [incr, setLinks, hy.1]
    · simp [incr, hy]
    · simp [incr, setLinks]
    · simp [incr, setLinks, hy]

/-- Linking `x` between the two halves `as` and `bs` of the list at `l`, as the last branch of
`insertSorted` does it. -/
theorem insertMid {h : Heap α β} {l : β} {x it : α} {as bs : List α}
    (hl : h.IsList l (as ++ [it] ++ bs)) (hx : x ∉ as ++ [it] ++ bs) :
    let h₂ := h.setLinks x (first bs none) (some it) (some l)
    let h₃ := h₂.linkPrev l (first bs none) (some x)
    let h₄ := { h₃ with next := update h₃.next it (some x) }.incr l
    h₄.IsList l (as ++ [it] ++ x :: bs) ∧ Frame h h₄ l (x :: (as ++ [it] ++ bs)) := by
  intro h₂ h₃ h₄
  have hnd := hl.nodup
  rw [List.nodup_append] at hnd
  obtain ⟨hna, hnb, hab⟩ := hnd
  have hita : it ∉ as := fun hi => (List.nodup_append.mp hna).2.2 it hi it (by simp) rfl
  have hs := hl.seg
  rw [seg_append] at hs
  obtain ⟨h1, h2⟩ := hs
  have hxa : ∀ y ∈ as ++ [it], y ≠ x := fun y hy e => hx (by simp_all)
  have hxb : ∀ y ∈ bs, y ≠ x := fun y hy e => hx (by simp_all)
  have hitx : it ≠ x := hxa it (by simp)
  have hfb : ∀ y ∈ as ++ [it], first bs none ≠ some y := by
    intro y hy e
    rcases first_mem e with e | e
    · cases e
    · exact hab y hy y e rfl
  have hfx : first bs none ≠ some x := by
    intro e
    rcases first_mem e with e | e
    · cases e
    · exact hxb x e rfl
  constructor
  · refine ⟨?_, ?_, ?_, ?_, ?_, ?_⟩
    · rw [seg_append]
      refine ⟨h1.setNext (fun y hy => ?_) (by simp [h₄, incr]) (fun y hy => ?_), ?_, ?_, ?_⟩
      · have hyi : y ≠ it := by rintro rfl; exact hita hy
        simp [h₄, h₃, h₂, incr, setLinks, hyi, hxa y (by simp [hy])]
      · simp [h₄, h₃, h₂, incr, linkPrev_prev, hfb y hy, setLinks, hxa y hy]
      · simp [h₄, h₃, h₂, incr, linkPrev_prev, hfx, setLinks]
      · simp [h₄, h₃, h₂, incr, setLinks, Ne.symm hitx]
      · have h2' : Seg h₂ (last none (as ++ [it])) bs none :=
          h2.congr (fun y hy => by simp [h₂, setLinks, hxb y hy])
            (fun y hy => by simp [h₂, setLinks, hxb y hy])
        refine (h2'.linkPrev (l := l) (v := some x) hnb).congr (fun y hy => ?_) (fun y _ => ?_)
        · have hyi : y ≠ it := fun e => hab it (by simp) y hy e.symm
          simp [h₄, h₃, incr, hyi]
        · simp [h₄, h₃, incr]
    · simpa [h₄, h₃, h₂, incr, setLinks] using hl.head_eq
    · have he : h₂.list_end l = last (some it) bs := by simpa [h₂, setLinks] using hl.end_eq
      simpa [h₄, h₃, incr] using linkPrev_list_end_first h₂ l bs (some x) he
    · simp only [h₄, h₃, h₂, incr, setLinks, linkPrev_num_items, update_self, hl.count,
        List.length_append, List.length_cons, List.length_nil]
      omega
    · rw [List.nodup_append]
      refine ⟨hna, List.nodup_cons.mpr ⟨fun e => hxb x e rfl, hnb⟩, fun a ha b hb => ?_⟩
      rcases List.mem_cons.mp hb with rfl | hb
      · exact hxa a ha
      · exact hab a ha b hb
    · intro y hy
      by_cases hyx : y = x
      · simp [h₄, h₃, h₂, incr, setLinks, hyx]
      · have hy' : y ∈ as ++ [it] ++ bs := by
          rcases List.mem_append.mp hy with hy | hy
          · exact List.mem_append_left _ hy
          · exact List.mem_append_right _ (by simpa [hyx] using hy)
        simp [h₄, h₃, h₂, incr, setLinks, hyx, hl.container y hy']
  · refine ⟨?_, ?_, ?_, ?_, ?_, ?_⟩ <;> intro y hy
    · simp only [List.mem_cons, List.mem_append, not_or] at hy
      simp [h₄, h₃, h₂, incr, setLinks, hy.1, hy.2.1.2.1]
    · simp only [List.mem_cons, List.mem_append, not_or] at hy
      simp [h₄, h₃, h₂, incr, setLinks, hy.1, linkPrev_prev, first_ne hy.2.2]
    · simp only [List.mem_cons, not_or] at hy
      simp [h₄, h₃, h₂, incr, setLinks, hy.1]
    · simp [h₄, h₃, h₂, incr, setLinks]
    · simp [h₄, h₃, h₂, incr, setLinks, linkPrev_list_end, hy]
    · simp [h₄, h₃, h₂, incr, setLinks, hy]

theorem insertSorted_isList {h : Heap α β} {l : β} {key : α → Nat} {w fuel : Nat} {x : α}
    {xs : List α} (hl : h.IsList l xs) (hx : x ∉ xs) (hf : xs.length ≤ fuel) :
    (h.insertSorted l key w fuel x).IsList l (insertKey key w x xs) ∧
      Frame h (h.insertSorted l key w fuel x) l (x :: xs) := by
  cases xs with
  | nil => exact insertSorted_nil hl
  | cons hd tl =>
    by_cases hw : w ≤ key hd
    · rw [insertKey, if_pos hw]; exact insertSorted_front hl hx hw
    · obtain ⟨as, bs, rfl, hins, ha, hb⟩ := insertTail_split key w x tl
      obtain ⟨cs, it, hcs⟩ : ∃ cs it, hd :: as = cs ++ [it] := by
        rcases List.eq_nil_or_concat' (hd :: as) with h | ⟨cs, it, h⟩
        · cases h
        · exact ⟨cs, it, h⟩
      have hxs : hd :: (as ++ bs) = cs ++ [it] ++ bs := by rw [← hcs]; rfl
      have hs : Seg (h.setLinks x none none (some l)) none (hd :: (as ++ bs)) none :=
        hl.seg.congr (fun y hy => by
            have : y ≠ x := fun e => hx (e ▸ hy)
            simp [setLinks, this])
          (fun y hy => by
            have : y ≠ x := fun e => hx (e ▸ hy)
            simp [setLinks, this])
      have hlen : as.length < fuel := by
        simp only [List.length_cons, List.length_append] at hf; omega
      have hseek : seek (h.setLinks x none none (some l)) key w fuel hd = it := by
        have : some (seek (h.setLinks x none none (some l)) key w fuel hd) = last (some hd) as :=
          seek_eq hs ha hb hlen
        rw [show last (some hd) as = last none (hd :: as) from rfl, hcs] at this
        simpa using this
      have hnit : h.next it = first bs none := by
        have := hl.seg
        rw [hxs, seg_append] at this
        exact this.1.next_last
      have hitx : it ≠ x := fun e => hx (by rw [hxs, ← e]; simp)
      have hh : h.head l = some hd := hl.head_eq
      rw [insertKey, if_neg hw, hins, show hd :: (as ++ x :: bs) = cs ++ [it] ++ x :: bs by
        rw [← List.cons_append, hcs], hxs]
      rw [hxs] at hl hx
      have hmid := insertMid hl hx
      have e : h.insertSorted l key w fuel x =
          (let h₂ := h.setLinks x (first bs none) (some it) (some l)
           let h₃ := h₂.linkPrev l (first bs none) (some x)
           { h₃ with next := update h₃.next it (some x) }.incr l) := by
        have hh₁ : (h.setLinks x none none (some l)).head l = some hd := by
          simpa [setLinks] using hh
        simp only [insertSorted, hh₁, if_neg hw, hseek]
        simp [setLinks, hitx, hnit]
      rw [e]; exact hmid

end Heap
end Rpitos
