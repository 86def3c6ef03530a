import Rpitos.Kernel.System

/-!
# Kernel.Linked

Which list each item is in. `Linked h s wake sh eh fl` says that the pointers `h` represent the
sequences `s`, that the state item of `t` is in the list `sh t` and its event item in the list
`eh t` and in no other, that each ready list has its index, and that each blocked list is in the
order of `wake`. The tasks in `fl` are in flight: their event item is in no list, whatever its
container says.

Each list operation of the kernel is one lemma here; it changes `sh` or `eh` at one task.
-/

namespace Rpitos

open Function ListOps

/-- The lists of waiting tasks, linked by their event items. -/
@[simp] def ListRef.isWait : ListRef → Bool
  | .ready_list _ _ => false
  | .blocked_task_list _ => false
  | .mutex_blocked_list _ => true
  | .semaphore_blocked_list _ => true

structure Linked (h : Links) (s : Sequences) (wake : Tcb → Nat) (sh eh : Tcb → Option ListRef)
    (fl : Tcb → Prop) : Prop where
  refines : h.Refines s
  exact : s.Exact (fun x => ∃ t, fl t ∧ x = .event_list_item t)
  state : ∀ t, s.container (.state_list_item t) = sh t
  event : ∀ t, ¬ fl t → s.container (.event_list_item t) = eh t
  state_kind : ∀ t l, sh t = some l → l.isWait = false
  event_kind : ∀ t l, eh t = some l → l.isWait = true
  index_ok : ∀ c p, s.IndexOk (.ready_list c p)
  sorted : ∀ c, (s.list (.blocked_task_list c)).Pairwise
    (fun a b => wake a.owner ≤ wake b.owner)

namespace Linked

variable {h : Links} {s : Sequences} {wake : Tcb → Nat} {sh eh : Tcb → Option ListRef}
  {fl : Tcb → Prop} {l : ListRef} {t : Tcb} {c : CoreId} {p : TaskPriorityLevel}

theorem empty : Linked Heap.empty Seqs.empty wake (fun _ => none) (fun _ => none)
    (fun _ => False) where
  refines := Heap.empty_refines
  exact := ⟨fun _ => List.nodup_nil, fun x _ l => by simp [Seqs.empty], by simp⟩
  state _ := rfl
  event _ _ := rfl
  state_kind := by simp
  event_kind := by simp
  index_ok c p := ⟨by simp [Seqs.empty], by simp [Seqs.empty]⟩
  sorted c := List.Pairwise.nil

/-! ## What it says of the lists -/

theorem state_not_stale (t : Tcb) :
    ¬ ∃ t', fl t' ∧ ItemRef.state_list_item t = .event_list_item t' := by
  rintro ⟨t', -, e⟩; cases e

theorem event_not_stale (hf : ¬ fl t) :
    ¬ ∃ t', fl t' ∧ ItemRef.event_list_item t = .event_list_item t' := by
  rintro ⟨t', h, e⟩; cases e; exact hf h

theorem mem_state (hl : Linked h s wake sh eh fl) :
    .state_list_item t ∈ s.list l ↔ sh t = some l := by
  rw [hl.exact.mem_iff _ (state_not_stale t), hl.state]

theorem mem_event (hl : Linked h s wake sh eh fl) :
    .event_list_item t ∈ s.list l ↔ ¬ fl t ∧ eh t = some l := by
  by_cases hf : fl t
  · simp [hf, hl.exact.stale_free (.event_list_item t) ⟨t, hf, rfl⟩]
  · rw [hl.exact.mem_iff _ (event_not_stale hf), hl.event t hf]
    simp [hf]

/-- The items of one list are all of one kind. -/
theorem mem_kind (hl : Linked h s wake sh eh fl) {x : ItemRef} (hx : x ∈ s.list l) :
    x = if l.isWait then .event_list_item x.owner else .state_list_item x.owner := by
  cases x with
  | state_list_item t => rw [hl.state_kind t l (hl.mem_state.mp hx)]; rfl
  | event_list_item t => rw [hl.event_kind t l (hl.mem_event.mp hx).2]; rfl

theorem state_free (hl : Linked h s wake sh eh fl) (ht : sh t = none) :
    s.container (.state_list_item t) = none := by rw [hl.state, ht]

theorem event_free (hl : Linked h s wake sh eh fl) (hf : ¬ fl t) (ht : eh t = none) :
    s.container (.event_list_item t) = none := by rw [hl.event t hf, ht]

/-- No list is longer than there are tasks. -/
theorem length_le (hl : Linked h s wake sh eh fl) (l : ListRef) :
    (s.list l).length ≤ MAX_TCBS := by
  have hn : ((s.list l).map ItemRef.owner).Nodup := by
    refine List.Nodup.map_on (fun x hx y hy e => ?_) (hl.exact.nodup l)
    rw [hl.mem_kind hx, hl.mem_kind hy, e]
  have := hn.length_le_card
  rwa [List.length_map, card_tcb] at this

theorem num_items_eq (hl : Linked h s wake sh eh fl) (l : ListRef) :
    num_items h l = (s.list l).length := by
  have h1 : num_items h l = (s.list l).length % 65536 := hl.refines.num_items l
  have h2 := hl.length_le l
  have h3 : MAX_TCBS = 68 := rfl
  omega

theorem congr {sh' eh' : Tcb → Option ListRef} {fl' : Tcb → Prop}
    (hl : Linked h s wake sh eh fl) (hsh : ∀ t, sh' t = sh t) (heh : ∀ t, eh' t = eh t)
    (hfl : ∀ t, fl' t ↔ fl t) : Linked h s wake sh' eh' fl' := by
  have h1 : sh' = sh := funext hsh
  have h2 : eh' = eh := funext heh
  have h3 : fl' = fl := funext fun t => propext (hfl t)
  subst h1 h2 h3; exact hl

/-- The order of the blocked lists only depends on the wake-up times of the tasks in them. -/
theorem congr_wake (wake' : Tcb → Nat) (hl : Linked h s wake sh eh fl)
    (hw : ∀ t c, sh t = some (.blocked_task_list c) → wake' t = wake t) :
    Linked h s wake' sh eh fl := by
  refine { hl with sorted := fun c => (hl.sorted c).imp_of_mem ?_ }
  intro a b ha hb hab
  have key : ∀ x ∈ s.list (.blocked_task_list c), wake' x.owner = wake x.owner := by
    intro x hx
    have e := hl.mem_kind hx
    refine hw x.owner c ?_
    rw [← hl.mem_state (l := .blocked_task_list c)]
    rwa [e] at hx
  rw [key a ha, key b hb]; exact hab

/-! ## The ready lists -/

theorem ready_push (hl : Linked h s wake sh eh fl) (ht : sh t = none) :
    Linked (pushBackIndexed h (.ready_list c p) (.state_list_item t))
      (pushBackIndexed s (.ready_list c p) (.state_list_item t)) wake
      (update sh t (some (.ready_list c p))) eh fl := by
  have hc := hl.state_free ht
  refine ⟨hl.refines.pushBackIndexed (hl.exact.free hc),
    hl.exact.pushBackIndexed hc (state_not_stale t), fun u => ?_, fun u hu => ?_, fun u k hk => ?_,
    hl.event_kind, fun c' p' => (hl.index_ok c' p').pushBackIndexed, fun c' => ?_⟩
  · by_cases hut : u = t
    · subst hut; simp [pushBackIndexed, Seqs.pushBackIndexed, Seqs.pushBack]
    · simp [pushBackIndexed, Seqs.pushBackIndexed, Seqs.pushBack, hut, hl.state]
  · simp [pushBackIndexed, Seqs.pushBackIndexed, Seqs.pushBack, hl.event u hu]
  · by_cases hut : u = t
    · subst hut; simp at hk; subst hk; rfl
    · exact hl.state_kind u k (by simpa [hut] using hk)
  · simpa [pushBackIndexed, Seqs.pushBackIndexed, Seqs.pushBack] using hl.sorted c'

theorem ready_unlink (hl : Linked h s wake sh eh fl) (ht : sh t = some (.ready_list c p)) :
    Linked (unlinkIndexed h (.ready_list c p) (.state_list_item t))
      (unlinkIndexed s (.ready_list c p) (.state_list_item t)) wake (update sh t none) eh fl := by
  have hm := hl.mem_state.mpr ht
  refine ⟨hl.refines.unlinkIndexed hm, hl.exact.unlinkIndexed hm, fun u => ?_, fun u hu => ?_,
    fun u k hk => ?_, hl.event_kind,
    fun c' p' => (hl.index_ok c' p').unlinkIndexed (hl.exact.nodup _) hm, fun c' => ?_⟩
  · by_cases hut : u = t
    · subst hut; simp [unlinkIndexed, Seqs.unlinkIndexed, Seqs.unlink]
    · simp [unlinkIndexed, Seqs.unlinkIndexed, Seqs.unlink, hut, hl.state]
  · simp [unlinkIndexed, Seqs.unlinkIndexed, Seqs.unlink, hl.event u hu]
  · by_cases hut : u = t
    · subst hut; simp at hk
    · exact hl.state_kind u k (by simpa [hut] using hk)
  · simpa [unlinkIndexed, Seqs.unlinkIndexed, Seqs.unlink] using hl.sorted c'

theorem ready_advance (hl : Linked h s wake sh eh fl) :
    Linked (advanceIndex h (.ready_list c p)) (advanceIndex s (.ready_list c p)) wake sh eh fl := by
  have hlist : (Seqs.advanceIndex s (.ready_list c p)).list = s.list := by
    unfold Seqs.advanceIndex; split <;> rfl
  have hcont : (Seqs.advanceIndex s (.ready_list c p)).container = s.container := by
    unfold Seqs.advanceIndex; split <;> rfl
  refine ⟨hl.refines.advanceIndex (hl.index_ok c p).2, ⟨?_, ?_, ?_⟩, ?_, ?_, hl.state_kind,
    hl.event_kind, fun c' p' => (hl.index_ok c' p').advanceIndex, ?_⟩ <;>
    simp only [advanceIndex, hlist, hcont]
  · exact hl.exact.nodup
  · exact hl.exact.mem_iff
  · exact hl.exact.stale_free
  · exact hl.state
  · exact hl.event
  · exact hl.sorted

/-! ## The blocked lists -/

theorem blocked_insert {w : Nat} (hl : Linked h s wake sh eh fl) (ht : sh t = none) :
    Linked
      (insertSorted h (.blocked_task_list c) (fun x => update wake t w x.owner) w MAX_TCBS
        (.state_list_item t))
      (insertSorted s (.blocked_task_list c) (fun x => update wake t w x.owner) w MAX_TCBS
        (.state_list_item t))
      (update wake t w) (update sh t (some (.blocked_task_list c))) eh fl := by
  have hc := hl.state_free ht
  have hw : Linked h s (update wake t w) sh eh fl := hl.congr_wake _ fun u c' hu => by
    have : u ≠ t := fun e => by rw [e, ht] at hu; cases hu
    simp [this]
  refine ⟨hl.refines.insertSorted (hl.exact.free hc) (hl.length_le _),
    hl.exact.insertSorted hc (state_not_stale t), fun u => ?_, fun u hu => ?_, fun u k hk => ?_,
    hl.event_kind, fun c' p' => (hl.index_ok c' p').congr ?_ rfl, fun c' => ?_⟩
  · by_cases hut : u = t
    · subst hut; simp [insertSorted, Seqs.insertSorted]
    · simp [insertSorted, Seqs.insertSorted, hut, hl.state]
  · simp [insertSorted, Seqs.insertSorted, hl.event u hu]
  · by_cases hut : u = t
    · subst hut; simp at hk; subst hk; rfl
    · exact hl.state_kind u k (by simpa [hut] using hk)
  · simp [insertSorted, Seqs.insertSorted]
  · by_cases hcc : c' = c
    · subst hcc
      have := Heap.insertKey_sorted (x := ItemRef.state_list_item t) (hw.sorted c')
      simpa [insertSorted, Seqs.insertSorted, ItemRef.owner] using this
    · have := hw.sorted c'
      simpa [insertSorted, Seqs.insertSorted, hcc] using this

theorem blocked_unlink (hl : Linked h s wake sh eh fl) (ht : sh t = some (.blocked_task_list c)) :
    Linked (unlink h (.blocked_task_list c) (.state_list_item t))
      (unlink s (.blocked_task_list c) (.state_list_item t)) wake (update sh t none) eh fl := by
  have hm := hl.mem_state.mpr ht
  refine ⟨hl.refines.unlink hm, hl.exact.unlink hm, fun u => ?_, fun u hu => ?_, fun u k hk => ?_,
    hl.event_kind, fun c' p' => (hl.index_ok c' p').congr ?_ rfl, fun c' => ?_⟩
  · by_cases hut : u = t
    · subst hut; simp [unlink, Seqs.unlink]
    · simp [unlink, Seqs.unlink, hut, hl.state]
  · simp [unlink, Seqs.unlink, hl.event u hu]
  · by_cases hut : u = t
    · subst hut; simp at hk
    · exact hl.state_kind u k (by simpa [hut] using hk)
  · simp [unlink, Seqs.unlink]
  · by_cases hcc : c' = c
    · subst hcc; simpa [unlink, Seqs.unlink] using (hl.sorted c').sublist List.erase_sublist
    · simpa [unlink, Seqs.unlink, hcc] using hl.sorted c'

/-! ## The wait lists -/

/-- The other lists of a wait-list operation. -/
theorem wait_ne (hk : l.isWait = true) :
    (∀ c p, ListRef.ready_list c p ≠ l) ∧ ∀ c, ListRef.blocked_task_list c ≠ l := by
  refine ⟨fun c p e => ?_, fun c e => ?_⟩ <;> subst e <;> cases hk

theorem wait_push (hl : Linked h s wake sh eh fl) (hk : l.isWait = true) (hf : ¬ fl t)
    (ht : eh t = none) :
    Linked (pushBack h l (.event_list_item t)) (pushBack s l (.event_list_item t)) wake sh
      (update eh t (some l)) fl := by
  have hc := hl.event_free hf ht
  obtain ⟨hr, hb⟩ := wait_ne hk
  refine ⟨hl.refines.pushBack (hl.exact.free hc), hl.exact.pushBack hc (event_not_stale hf),
    fun u => ?_, fun u hu => ?_, hl.state_kind, fun u k hk' => ?_,
    fun c p => (hl.index_ok c p).congr ?_ rfl, fun c => ?_⟩
  · simp [pushBack, Seqs.pushBack, hl.state]
  · by_cases hut : u = t
    · subst hut; simp [pushBack, Seqs.pushBack]
    · simp [pushBack, Seqs.pushBack, hut, hl.event u hu]
  · by_cases hut : u = t
    · subst hut; simp at hk'; subst hk'; exact hk
    · exact hl.event_kind u k (by simpa [hut] using hk')
  · simp [pushBack, Seqs.pushBack, hr]
  · simpa [pushBack, Seqs.pushBack, hb] using hl.sorted c

theorem wait_unlink (hl : Linked h s wake sh eh fl) (hf : ¬ fl t) (ht : eh t = some l) :
    Linked (unlink h l (.event_list_item t)) (unlink s l (.event_list_item t)) wake sh
      (update eh t none) fl := by
  have hm := hl.mem_event.mpr ⟨hf, ht⟩
  obtain ⟨hr, hb⟩ := wait_ne (hl.event_kind t l ht)
  refine ⟨hl.refines.unlink hm, hl.exact.unlink hm, fun u => ?_, fun u hu => ?_, hl.state_kind,
    fun u k hk => ?_, fun c p => (hl.index_ok c p).congr ?_ rfl, fun c => ?_⟩
  · simp [unlink, Seqs.unlink, hl.state]
  · by_cases hut : u = t
    · subst hut; simp [unlink, Seqs.unlink]
    · simp [unlink, Seqs.unlink, hut, hl.event u hu]
  · by_cases hut : u = t
    · subst hut; simp at hk
    · exact hl.event_kind u k (by simpa [hut] using hk)
  · simp [unlink, Seqs.unlink, hr]
  · simpa [unlink, Seqs.unlink, hb] using hl.sorted c

/-- The popped waiter is in flight. -/
theorem wait_pop {xs : List ItemRef} (hl : Linked h s wake sh eh fl) (hk : l.isWait = true)
    (hA : s.list l = .event_list_item t :: xs) :
    Linked (popFront h l (.event_list_item t)) (popFront s l (.event_list_item t)) wake sh
      (update eh t none) (fun u => fl u ∨ u = t) := by
  obtain ⟨hr, hb⟩ := wait_ne hk
  refine ⟨hl.refines.popFront hA, (hl.exact.popFront hA).congr fun x => ?_, hl.state,
    fun u hu => ?_, hl.state_kind, fun u k hk => ?_,
    fun c p => (hl.index_ok c p).congr ?_ rfl, fun c => ?_⟩
  · constructor
    · rintro ⟨u, hu | rfl, e⟩
      · exact .inl ⟨u, hu, e⟩
      · exact .inr e
    · rintro (⟨u, hu, e⟩ | e)
      · exact ⟨u, .inl hu, e⟩
      · exact ⟨t, .inr rfl, e⟩
  · obtain ⟨hu, hut⟩ := not_or.mp hu
    rw [update_of_ne hut]; exact hl.event u hu
  · by_cases hut : u = t
    · subst hut; simp at hk
    · exact hl.event_kind u k (by simpa [hut] using hk)
  · simp [popFront, Seqs.popFront, hr]
  · simpa [popFront, Seqs.popFront, hb] using hl.sorted c

/-- Clearing the links of a task in flight ends the flight. -/
theorem wait_clear (fl' : Tcb → Prop) (hl : Linked h s wake sh eh fl)
    (hfl : ∀ u, fl u ↔ fl' u ∨ u = t) (hf : ¬ fl' t) :
    Linked (clearNode h (.event_list_item t)) (clearNode s (.event_list_item t)) wake sh
      (update eh t none) fl' := by
  have ht : fl t := (hfl t).mpr (.inr rfl)
  have he : s.Exact (fun x => (∃ u, fl' u ∧ x = .event_list_item u) ∨ x = .event_list_item t) :=
    hl.exact.congr fun x => by
      constructor
      · rintro (⟨u, hu, e⟩ | e)
        · exact ⟨u, (hfl u).mpr (.inl hu), e⟩
        · exact ⟨t, ht, e⟩
      · rintro ⟨u, hu, e⟩
        rcases (hfl u).mp hu with hu | rfl
        · exact .inl ⟨u, hu, e⟩
        · exact .inr e
  refine ⟨hl.refines.clearNode (hl.exact.stale_free _ ⟨t, ht, rfl⟩),
    he.clearNode (event_not_stale hf), fun u => ?_, fun u hu => ?_, hl.state_kind,
    fun u k hk => ?_, hl.index_ok, hl.sorted⟩
  · simp [clearNode, Seqs.clearNode, hl.state]
  · by_cases hut : u = t
    · subst hut; simp [clearNode, Seqs.clearNode]
    · have : ¬ fl u := fun h => by
        rcases (hfl u).mp h with h | h
        · exact hu h
        · exact hut h
      simp [clearNode, Seqs.clearNode, hut, hl.event u this]
  · by_cases hut : u = t
    · subst hut; simp at hk
    · exact hl.event_kind u k (by simpa [hut] using hk)

/-! ## Fresh items and headers -/

/-- Clearing an item that is in no list changes nothing. -/
theorem clear_item {x : ItemRef} (hl : Linked h s wake sh eh fl) (hx : s.container x = none) :
    Linked (clearNode h x) (clearNode s x) wake sh eh fl := by
  have hs : clearNode s x = s := by
    show Seqs.clearNode s x = s
    unfold Seqs.clearNode; rw [← hx, update_eq_self]
  have hr : (clearNode h x).Refines (Seqs.clearNode s x) :=
    hl.refines.clearNode (hl.exact.free hx)
  rw [hs]
  exact { hl with refines := (show Seqs.clearNode s x = s from hs) ▸ hr }

/-- So does clearing the header of an empty list, but for its index. -/
theorem clear_header {l : ListRef} (hl : Linked h s wake sh eh fl) (hx : s.list l = []) :
    Linked (clearHeader h l) (clearHeader s l) wake sh eh fl := by
  have hlist : (clearHeader s l).list = s.list := by
    show update s.list l [] = s.list
    rw [← hx, update_eq_self]
  refine ⟨hl.refines.clearHeader hx, ⟨?_, ?_, ?_⟩, hl.state, hl.event, hl.state_kind,
    hl.event_kind, fun c p => ?_, ?_⟩ <;> try rw [hlist]
  · exact hl.exact.nodup
  · exact hl.exact.mem_iff
  · exact hl.exact.stale_free
  · by_cases hk : ListRef.ready_list c p = l
    · subst hk
      constructor <;> simp [clearHeader, Seqs.clearHeader]
    · exact (hl.index_ok c p).congr (by rw [hlist]) (by simp [clearHeader, Seqs.clearHeader, hk])
  · exact hl.sorted

end Linked
end Rpitos
