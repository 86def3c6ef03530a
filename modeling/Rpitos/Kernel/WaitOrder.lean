import Rpitos.Kernel.Effects

/-!
# Kernel.WaitOrder

Who waits, and in which order. Only the two calls that wait add to a wait list, and they add at its
end; every other section leaves of a wait list some of its tasks, in the order they were in.
-/

namespace Rpitos

open Function ListOps StatusCode

/-- Of the tasks in `l` some are left, in the same order. -/
def Shrinks (l : ListRef) (K K' : Kernel Sequences) : Prop :=
  List.Sublist (K'.lists.list l) (K.lists.list l)

namespace Shrinks

variable {l k : ListRef} {K K' K'' : Kernel Sequences} {s : Sequences} {x : ItemRef} {t : Tcb}

theorem same (h : K'.lists.list l = K.lists.list l) : Shrinks l K K' := by
  unfold Shrinks; rw [h]

theorem trans (h : Shrinks l K K') (h' : Shrinks l K' K'') : Shrinks l K K'' :=
  List.Sublist.trans h' h

/-! ## The list operations -/

theorem unlink : List.Sublist ((s.unlink k x).list l) (s.list l) := by
  by_cases hk : l = k
  · subst hk; simpa [Seqs.unlink] using List.erase_sublist
  · simp [Seqs.unlink, hk]

theorem clearHeader : List.Sublist ((s.clearHeader k).list l) (s.list l) := by
  by_cases hk : l = k
  · subst hk; simp [Seqs.clearHeader]
  · simp [Seqs.clearHeader, hk]

theorem popFront : List.Sublist ((s.popFront k).list l) (s.list l) := by
  by_cases hk : l = k
  · subst hk; simpa [Seqs.popFront] using List.tail_sublist _
  · simp [Seqs.popFront, hk]

theorem advanceIndex : (s.advanceIndex k).list l = s.list l := by
  unfold Seqs.advanceIndex; split <;> rfl

theorem clear_header_lists (c : CoreId) :
    List.Sublist ((clear_lists s c).list l) (s.list l) := by
  unfold clear_lists
  refine clearHeader.trans ?_
  generalize List.finRange NUM_TASK_PRIORITIES = ps
  induction ps generalizing s with
  | nil => exact List.Sublist.refl _
  | cons p ps ih => exact (ih (s := s.clearHeader _)).trans clearHeader

/-! ## The scheduler -/

variable (hl : l.isWait = true)
include hl

theorem add_to_ready (K : Kernel Sequences) (t : Tcb) :
    Shrinks l K (scheduler_add_to_ready_list K t).2 := by
  have hne : l ≠ .ready_list (K.core_id t) (K.priority t) := by rintro rfl; cases hl
  show List.Sublist ((Seqs.pushBackIndexed _ _ _).list l) _
  simp [Seqs.pushBackIndexed, Seqs.pushBack, hne]

theorem add_to_blocked (K : Kernel Sequences) (t : Tcb) (w : Nat) :
    Shrinks l K (scheduler_add_to_blocked_list K t w).2 := by
  have hne : l ≠ .blocked_task_list (K.core_id t) := by rintro rfl; cases hl
  show List.Sublist ((Seqs.insertSorted _ _ _ _ _).list l) _
  simp [Seqs.insertSorted, hne]

omit hl in
theorem remove_from_ready (K : Kernel Sequences) (t : Tcb) :
    Shrinks l K (scheduler_remove_from_ready_list K t).2 := by
  unfold scheduler_remove_from_ready_list
  dsimp only
  split
  · exact unlink
  · exact same rfl

omit hl in
theorem remove_from_blocked (K : Kernel Sequences) (t : Tcb) :
    Shrinks l K (scheduler_remove_from_blocked_list K t).2 := by
  unfold scheduler_remove_from_blocked_list
  dsimp only
  split
  · exact unlink
  · exact same rfl

theorem rejoin (K : Kernel Sequences) (t : Tcb) : Shrinks l K (rejoin K t) :=
  (remove_from_blocked K t).trans (add_to_ready hl _ t)

theorem change_task_priority (K : Kernel Sequences) (t : Tcb) (p : TaskPriorityLevel) :
    Shrinks l K (scheduler_change_task_priority K t p) := by
  unfold scheduler_change_task_priority
  dsimp only
  split
  · cases container K.lists (ItemRef.state_list_item t) with
    | none => exact add_to_ready hl { K with priority := update K.priority t p } t
    | some r =>
      have hu : Shrinks l K { K with lists := unlinkIndexed K.lists r (.state_list_item t) } := unlink
      exact hu.trans
        (add_to_ready hl { K with lists := unlinkIndexed K.lists r (.state_list_item t)
                                  priority := update K.priority t p } t)
  · exact same rfl

theorem block_until (K : Kernel Sequences) (t : Tcb) (w : Nat) :
    Shrinks l K (block_until K t w) :=
  (remove_from_ready K t).trans (add_to_blocked hl _ t w)

theorem expire_task (K : Kernel Sequences) (t : Tcb) : Shrinks l K (expire_task K t) := by
  unfold Rpitos.expire_task
  dsimp only
  refine (remove_from_blocked K t).trans ?_
  generalize (scheduler_remove_from_blocked_list K t).2 = K₁
  split
  · rename_i r _
    have hu : Shrinks l K₁ { K₁ with lists := ListOps.unlink K₁.lists r (.event_list_item t) } :=
      unlink
    exact hu.trans (add_to_ready hl _ t)
  · exact add_to_ready hl _ t

theorem expire_loop (c : CoreId) : ∀ (n : Nat) (K : Kernel Sequences),
    Shrinks l K (expire_loop c n K).2 := by
  intro n
  induction n with
  | zero => intro K; exact same rfl
  | succ n ih =>
    intro K
    unfold Rpitos.expire_loop
    split
    · exact same rfl
    · split
      · exact (expire_task hl K _).trans (ih _)
      · exact same rfl

theorem timer_tick_handler (K : Kernel Sequences) (c : CoreId) :
    Shrinks l K (timer_tick_handler K c).2 :=
  expire_loop hl c MAX_TCBS (next_tick K c)

omit hl in
theorem switch_context (K : Kernel Sequences) (c : CoreId) :
    Shrinks l K (scheduler_switch_context K c) := by
  have he : Shrinks l K (end_quantum K c) := by
    unfold end_quantum
    split
    · split
      · show List.Sublist ((Seqs.advanceIndex _ _).list l) _
        rw [advanceIndex]
      · exact same rfl
    · exact same rfl
  unfold scheduler_switch_context
  split
  · exact same rfl
  · refine he.trans ?_
    unfold select_next
    split
    · split <;> exact same rfl
    · exact same rfl

theorem scheduler_init (K : Kernel Sequences) (c : CoreId) :
    Shrinks l K (scheduler_init K c) := by
  unfold Rpitos.scheduler_init
  dsimp only
  have hc : Shrinks l K { K with lists := clear_items (clear_lists K.lists c) (.idle c) } :=
    clear_header_lists c
  exact hc.trans (add_to_ready hl _ _)

theorem task_create (K : Kernel Sequences) (c : CoreId) (d p : Nat) :
    Shrinks l K (task_create K c d p).2.2 := by
  unfold Rpitos.task_create
  split
  · dsimp only
    split
    · exact same rfl
    · rename_i hn _ _ _ _
      have hs : Shrinks l K
          { K with lists := clear_items K.lists (.pool c ⟨K.task_counter c, hn⟩) } := same rfl
      exact hs.trans (add_to_ready hl _ _)
  · exact same rfl

/-! ## The mutex -/

theorem mutex_boost_holder (K : Kernel Sequences) (mtx : MutexId) :
    Shrinks l K (mutex_boost_holder K mtx) := by
  unfold Rpitos.mutex_boost_holder
  split
  · split
    · exact change_task_priority hl K _ _
    · exact same rfl
  · exact same rfl

theorem mutex_inherit (K : Kernel Sequences) (mtx : MutexId) (t : Tcb) :
    Shrinks l K (mutex_inherit K mtx t) := by
  unfold Rpitos.mutex_inherit
  split
  · exact mutex_boost_holder hl { K with inherited_priority := _ } mtx
  · exact same rfl

theorem mutex_restore_holder (K : Kernel Sequences) (mtx : MutexId) (holder : Option Tcb) :
    Shrinks l K (mutex_restore_holder K mtx holder) := by
  unfold Rpitos.mutex_restore_holder
  split
  · split
    · dsimp only
      split
      · exact change_task_priority hl { K with mutexes_held := _ } _ _
      · exact same rfl
    · exact same rfl
  · exact same rfl

theorem mutex_boost_owner (K : Kernel Sequences) (mtx : MutexId) (t : Tcb) :
    Shrinks l K (mutex_boost_owner K mtx t) := by
  unfold Rpitos.mutex_boost_owner
  split
  · dsimp only
    split
    · exact change_task_priority hl { K with mutexes_held := _ } _ _
    · exact same rfl
  · exact same rfl

theorem mutex_transfer (K : Kernel Sequences) (mtx : MutexId) (t : Tcb) :
    Shrinks l K (mutex_transfer K mtx t) :=
  (mutex_boost_owner hl { K with mutex_owner := update K.mutex_owner mtx (some t) } mtx t).trans
    (rejoin hl _ t)

theorem mutex_unlock (K : Kernel Sequences) (mtx : MutexId) :
    Shrinks l K (mutex_unlock K mtx).2 := by
  have hpop : Shrinks l K (mutex_pop_best K mtx).2 := by
    unfold mutex_pop_best; split
    · exact same rfl
    · exact unlink
  unfold Rpitos.mutex_unlock
  split
  · split
    · exact mutex_restore_holder hl { K with
        mutex_owner := _, mutex_state := _, inherited_priority := _ } mtx _
    · split
      · rename_i w K' he
        rw [he] at hpop
        exact (hpop.trans (mutex_restore_holder hl K' mtx _)).trans (mutex_transfer hl _ mtx w)
      · rename_i K' he
        rw [he] at hpop; exact hpop
  · exact same rfl

/-! ## Waiting -/

/-- A task that starts to wait is the last of its wait list, and in no other. -/
theorem enter_wait (K : Kernel Sequences) (r : ListRef) (t : Tcb) (timeout_ms : Int) (w : Nat) :
    List.Sublist ((enter_wait K r t timeout_ms w).lists.list l)
      (K.lists.list l ++ if l = r then [.event_list_item t] else []) := by
  have hp : (ListOps.pushBack K.lists r (.event_list_item t)).list l =
      K.lists.list l ++ if l = r then [.event_list_item t] else [] := by
    show (Seqs.pushBack _ _ _).list l = _
    by_cases hr : l = r
    · subst hr; simp [Seqs.pushBack]
    · simp [Seqs.pushBack, hr]
  unfold Rpitos.enter_wait
  dsimp only
  rw [← hp]
  have h1 := remove_from_ready (l := l)
    { K with lists := ListOps.pushBack K.lists r (.event_list_item t) } t
  split
  · exact h1.trans (add_to_blocked hl _ t w)
  · exact h1

theorem mutex_lock (K : Kernel Sequences) (mtx : MutexId) (t : Tcb) (timeout_ms : Int)
    (hm : l ≠ .mutex_blocked_list mtx) : Shrinks l K (mutex_lock K mtx t timeout_ms).2 := by
  by_cases hu : K.mutex_state mtx = .UNLOCKED
  · unfold Rpitos.mutex_lock; rw [if_pos hu]; exact same rfl
  · by_cases ht : timeout_ms = 0
    · unfold Rpitos.mutex_lock; rw [if_neg hu, if_pos ht]; exact same rfl
    · rw [mutex_lock_blocks_eq hu ht]
      have := enter_wait hl K (.mutex_blocked_list mtx) t timeout_ms
        (u64 (K.tick_count t.home + timeout_ms.toNat))
      rw [if_neg hm, List.append_nil] at this
      exact trans this (mutex_inherit hl _ mtx t)

/-- A round of `semaphore_take` puts the caller at the end of the wait list, if anywhere. -/
theorem semaphore_take (K : Kernel Sequences) (smph : SemaphoreId) (t : Tcb) (timeout_ms : Int)
    (deadline : Nat) :
    List.Sublist ((semaphore_take K smph t timeout_ms deadline).2.lists.list l)
      (K.lists.list l ++ if l = .semaphore_blocked_list smph ∧
        (semaphore_take K smph t timeout_ms deadline).1 = none then [.event_list_item t] else []) := by
  by_cases hc : 0 < K.count smph
  · unfold Rpitos.semaphore_take; rw [if_pos hc]; simp
  · by_cases ht : timeout_ms = 0
    · unfold Rpitos.semaphore_take; rw [if_neg hc, if_pos ht]; simp
    · by_cases hd : 0 < timeout_ms ∧ deadline ≤ K.tick_count t.home
      · unfold Rpitos.semaphore_take; rw [if_neg hc, if_neg ht, if_pos hd]; simp
      · rw [semaphore_take_blocks_eq hc ht hd]
        simpa using enter_wait hl K (.semaphore_blocked_list smph) t timeout_ms deadline

/-- `semaphore_give` takes at most the first task off a wait list. -/
theorem semaphore_give (K : Kernel Sequences) (smph : SemaphoreId) :
    Shrinks l K (semaphore_give K smph).2.2 := by
  have hpop : Shrinks l K (semaphore_pop_waiter K smph).2 := by
    unfold semaphore_pop_waiter; split
    · exact popFront
    · exact same rfl
  have hcnt : Shrinks l K (semaphore_count_up K smph).2 := by
    unfold semaphore_count_up; split <;> exact same rfl
  unfold Rpitos.semaphore_give
  split
  · split
    · rename_i w K' he
      rw [he] at hpop
      refine (hpop.trans (remove_from_blocked K' w)).trans ?_
      generalize he : (scheduler_remove_from_blocked_list K' w).2 = K₁
      show Shrinks l K₁ (semaphore_wake K' w)
      unfold semaphore_wake
      dsimp only
      rw [he]
      exact add_to_ready hl { K₁ with
        lists := ListOps.clearNode K₁.lists (.event_list_item w), wakeup_reason := _ } w
    · rename_i K' he
      rw [he] at hpop; exact hpop
  · exact hcnt

end Shrinks

/-! ## Between two sections -/

section Between

variable {K K' : Kernel Links} {S S' : Kernel Sequences} {call : Tcb → Call} {l : ListRef} {t : Tcb}

/-- A wait list holds the blocked tasks whose call waits there. -/
theorem Sim.mem_wait (h : Sim K S call grounded) (hl : l.isWait = true) :
    .event_list_item t ∈ S.lists.list l ↔
      K.current_state t = .BLOCKED ∧ (call t).waits_on = some l := by
  constructor
  · intro hm
    obtain ⟨-, -, hb, -, hw⟩ := h.wait_mem hl (grounded_entered l) hm
    exact ⟨hb, hw⟩
  · rintro ⟨hb, hw⟩
    have hc : K.created t = true := by
      by_contra hc
      rw [h.tasks.fresh t (by simpa using hc)] at hw; cases hw
    rw [h.linked.mem_event, eventHome, hc, hb]
    exact ⟨by simp [grounded], hw⟩

/-- A task that is not blocked waits nowhere. -/
theorem Sim.event_unlinked (h : Sim K S call grounded) (hst : K.current_state t ≠ .BLOCKED) :
    K.lists.container (.event_list_item t) = none := by
  rw [h.linked.refines.container, h.linked.event t (by simp [grounded]), eventHome,
    eventList_of_ne hst]
  simp [grounded]

/-- Of a list without repetitions that has shrunk, what is left is what the members say. -/
theorem sublist_eq_filter {α : Type} {xs ys : List α} {p : α → Bool} (hsub : List.Sublist ys xs)
    (hn : xs.Nodup) (hp : ∀ x ∈ xs, p x = true ↔ x ∈ ys) : ys = xs.filter p := by
  have hys : ys.filter p = ys := List.filter_eq_self.mpr fun y hy =>
    (hp y (hsub.subset hy)).mpr hy
  have hle : List.Sublist ys (xs.filter p) := by
    have := hsub.filter p
    rwa [hys] at this
  refine hle.eq_of_length_le ((hn.filter p).subperm fun x hx => ?_).length_le
  obtain ⟨hx, hpx⟩ := List.mem_filter.mp hx
  exact (hp x hx).mp hpx

/-- When the tasks `ts` wake and no other starts to wait, they leave the wait lists, and the others
stay in their order. -/
theorem Sim.wait_list_eq (ts : List Tcb) (h : Sim K S call grounded) (h' : Sim K' S' call grounded)
    (hl : l.isWait = true) (hsub : Shrinks l S S')
    (hst : ∀ u, K'.current_state u = .BLOCKED ↔ u ∉ ts ∧ K.current_state u = .BLOCKED) :
    S'.lists.list l = (S.lists.list l).filter (fun x => decide (x.owner ∉ ts)) := by
  refine sublist_eq_filter hsub (h.linked.exact.nodup l) fun x hx => ?_
  obtain ⟨hk, -, hb, -, hw⟩ := h.wait_mem hl (grounded_entered l) hx
  rw [decide_eq_true_iff, hk, h'.mem_wait hl, hst]
  exact ⟨fun hn => ⟨⟨hn, hb⟩, hw⟩, fun hm => hm.1.1⟩

end Between
end Rpitos
