import Rpitos.Lib.Rotation
import Rpitos.Kernel.SwitchContext

/-!
# Kernel.ReadyTurns

A ready list and its index under the functions of the kernel. Tasks join at the end of the list
(`Joins`), or one leaves it (`LeavesOne`), or a change of priority does the one or the other (`Moves`).
Each function outside a context switch comes to leaving first and joining then, `Turn.Relinked`.
-/

namespace Rpitos

open Function ListOps StatusCode

/-- Ready list `p` of core `c`, and its index. -/
def Kernel.turn {L : Type} [ListOps L ItemRef ListRef] (K : Kernel L) (c : CoreId)
    (p : TaskPriorityLevel) : Turn ItemRef :=
  ⟨walk K.lists (.ready_list c p) MAX_TCBS, index K.lists (.ready_list c p)⟩

/-! ## Tasks that join -/

section Joins

variable {c : CoreId} {p : TaskPriorityLevel} {P : Tcb → Prop} {S S' S'' : Kernel Sequences}
  {t : Tcb}

/-- Tasks with `P` join ready list `p` of core `c`, at its end. -/
def Joins (c : CoreId) (p : TaskPriorityLevel) (P : Tcb → Prop) (S S' : Kernel Sequences) : Prop :=
  ∃ ts : List Tcb, (∀ t ∈ ts, P t) ∧
    S'.lists.list (.ready_list c p) = S.lists.list (.ready_list c p) ++ ts.map .state_list_item ∧
    (S.lists.list (.ready_list c p) ≠ [] →
      S'.lists.index (.ready_list c p) = S.lists.index (.ready_list c p))

theorem Joins.same (hl : S'.lists.list (.ready_list c p) = S.lists.list (.ready_list c p))
    (hi : S'.lists.index (.ready_list c p) = S.lists.index (.ready_list c p)) : Joins c p P S S' :=
  ⟨[], fun _ ht => absurd ht List.not_mem_nil, by rw [hl, List.map_nil, List.append_nil], fun _ => hi⟩

/-- Another list changes. -/
theorem Joins.other {l : ListRef} {xs : List ItemRef} (hne : .ready_list c p ≠ l)
    (hl : S'.lists.list = update S.lists.list l xs) (hi : S'.lists.index = S.lists.index) :
    Joins c p P S S' :=
  .same (by rw [hl, update_of_ne hne]) (by rw [hi])

theorem Joins.trans (h : Joins c p P S S') (h' : Joins c p P S' S'') : Joins c p P S S'' := by
  obtain ⟨ts, hP, hlist, hindex⟩ := h
  obtain ⟨ts', hP', hlist', hindex'⟩ := h'
  refine ⟨ts ++ ts', fun t ht => ?_, ?_, fun hne => ?_⟩
  · exact (List.mem_append.mp ht).elim (hP t) (hP' t)
  · rw [hlist', hlist, List.map_append, List.append_assoc]
  · rw [hindex' (by rw [hlist]; exact List.append_ne_nil_of_left_ne_nil hne _), hindex hne]

/-- Ready lists hold no event items. -/
theorem Joins.no_events (h : Joins c p P S S')
    (hev : ∀ u, .event_list_item u ∉ S.lists.list (.ready_list c p)) :
    ∀ u, .event_list_item u ∉ S'.lists.list (.ready_list c p) := by
  obtain ⟨ts, -, hlist, -⟩ := h
  intro u hu
  rw [hlist] at hu
  rcases List.mem_append.mp hu with hu | hu
  · exact hev u hu
  · obtain ⟨t, -, ht⟩ := List.mem_map.mp hu
    cases ht

theorem Joins.add_to_ready (S : Kernel Sequences) (ht : P t) :
    Joins c p P S (scheduler_add_to_ready_list S t).2 := by
  show Joins c p P S { S with
    lists := Seqs.pushBackIndexed S.lists (.ready_list (S.core_id t) (S.priority t)) _
    current_state := _ }
  by_cases hl : ListRef.ready_list c p = .ready_list (S.core_id t) (S.priority t)
  · obtain ⟨hlist, hindex⟩ :=
      Seqs.pushBackIndexed_self (s := S.lists) (l := .ready_list c p) (x := .state_list_item t)
    rw [hl] at hlist hindex
    refine ⟨[t], fun u hu => List.mem_singleton.mp hu ▸ ht, ?_, ?_⟩
    · rw [hl]
      exact hlist
    · rw [hl]
      exact hindex
  · have hturn := Seqs.turn_pushBackIndexed (s := S.lists) (x := .state_list_item t) hl
    exact .same (congrArg Turn.list hturn) (congrArg Turn.index hturn)

theorem Joins.remove_from_blocked (S : Kernel Sequences) (t : Tcb) :
    Joins c p P S (scheduler_remove_from_blocked_list S t).2 := by
  unfold scheduler_remove_from_blocked_list
  dsimp only
  split
  · exact .other ListRef.noConfusion rfl rfl
  · exact .same rfl rfl

theorem Joins.rejoin (S : Kernel Sequences) (ht : P t) : Joins c p P S (rejoin S t) :=
  (remove_from_blocked S t).trans (add_to_ready _ ht)

theorem Joins.semaphore_wake (S : Kernel Sequences) (ht : P t) :
    Joins c p P S (semaphore_wake S t) := by
  unfold Rpitos.semaphore_wake
  refine (remove_from_blocked S t).trans ?_
  exact Joins.trans (.same rfl rfl) (add_to_ready _ ht)

theorem Joins.semaphore_give (S : Kernel Sequences) (smph : SemaphoreId) :
    Joins c p (fun _ => True) S (semaphore_give S smph).2.2 := by
  have hpop : Joins c p (fun _ => True) S (semaphore_pop_waiter S smph).2 := by
    unfold semaphore_pop_waiter
    split
    · exact .other ListRef.noConfusion rfl rfl
    · exact .same rfl rfl
  have hcount : Joins c p (fun _ => True) S (semaphore_count_up S smph).2 := by
    unfold semaphore_count_up
    split <;> exact .same rfl rfl
  unfold Rpitos.semaphore_give
  split
  · split
    · rename_i w K' he
      rw [he] at hpop
      exact hpop.trans (semaphore_wake K' trivial)
    · rename_i K' he
      rw [he] at hpop
      exact hpop
  · exact hcount

theorem Joins.expire_task (S : Kernel Sequences) (t : Tcb)
    (hev : ∀ u, .event_list_item u ∉ S.lists.list (.ready_list c p)) :
    Joins c p (fun _ => True) S (expire_task S t) := by
  unfold Rpitos.expire_task
  dsimp only
  have hblocked := remove_from_blocked (c := c) (p := p) (P := fun _ => True) S t
  have hev' := hblocked.no_events hev
  refine hblocked.trans ?_
  generalize (scheduler_remove_from_blocked_list S t).2 = S₁ at hev' ⊢
  split
  · rename_i l _
    have hunlink : Joins c p (fun _ => True) S₁
        { S₁ with lists := unlink S₁.lists l (.event_list_item t) } := by
      by_cases hl : ListRef.ready_list c p = l
      · subst hl
        exact .same ((update_self ..).trans (List.erase_of_not_mem (hev' t))) rfl
      · exact .other hl rfl rfl
    exact hunlink.trans (add_to_ready _ trivial)
  · exact add_to_ready _ trivial

theorem Joins.expire_loop (c' : CoreId) (n : Nat) : ∀ S : Kernel Sequences,
    (∀ u, .event_list_item u ∉ S.lists.list (.ready_list c p)) →
    Joins c p (fun _ => True) S (expire_loop c' n S).2 := by
  induction n with
  | zero => exact fun S _ => .same rfl rfl
  | succ n ih =>
    intro S hev
    unfold Rpitos.expire_loop
    split
    · exact .same rfl rfl
    · rename_i item _
      split
      · have hone := expire_task S item.owner hev
        exact hone.trans (ih _ (hone.no_events hev))
      · exact .same rfl rfl

theorem Joins.timer_tick_handler (S : Kernel Sequences) (c' : CoreId)
    (hev : ∀ u, .event_list_item u ∉ S.lists.list (.ready_list c p)) :
    Joins c p (fun _ => True) S (timer_tick_handler S c').2 :=
  expire_loop c' MAX_TCBS (next_tick S c') hev

theorem Joins.task_create (S : Kernel Sequences) (c' : CoreId) (d q : Nat) :
    Joins c p (fun _ => True) S (task_create S c' d q).2.2 := by
  unfold Rpitos.task_create
  split
  · dsimp only
    split
    · exact .same rfl rfl
    · exact Joins.trans (.same rfl rfl) (add_to_ready _ trivial)
  · exact .same rfl rfl

theorem clear_header_of_ne {l k : ListRef} (hne : l ≠ k) (s : Sequences) :
    (clearHeader s k).list l = s.list l ∧ (clearHeader s k).index l = s.index l :=
  ⟨update_of_ne hne .., update_of_ne hne ..⟩

/-- Another core starts. -/
theorem Joins.scheduler_init (S : Kernel Sequences) {c' : CoreId} (hc : c' ≠ c) :
    Joins c p (fun _ => True) S (scheduler_init S c') := by
  have hready : ∀ (ps : List TaskPriorityLevel) (s : Sequences),
      (ps.foldl (fun s q => clearHeader s (.ready_list c' q)) s).list (.ready_list c p) =
        s.list (.ready_list c p) ∧
      (ps.foldl (fun s q => clearHeader s (.ready_list c' q)) s).index (.ready_list c p) =
        s.index (.ready_list c p) := by
    intro ps
    induction ps with
    | nil => exact fun s => ⟨rfl, rfl⟩
    | cons q ps ih =>
      intro s
      obtain ⟨hlist, hindex⟩ := ih (clearHeader s (.ready_list c' q))
      obtain ⟨hlist', hindex'⟩ := clear_header_of_ne
        (fun h : ListRef.ready_list c p = .ready_list c' q => hc (ListRef.ready_list.inj h).1.symm) s
      exact ⟨hlist.trans hlist', hindex.trans hindex'⟩
  have hclear : Joins c p (fun _ => True) S
      { S with lists := clear_items (clear_lists S.lists c') (.idle c') } := by
    obtain ⟨hlist, hindex⟩ := hready (List.finRange NUM_TASK_PRIORITIES) S.lists
    obtain ⟨hlist', hindex'⟩ := clear_header_of_ne (l := .ready_list c p) (k := .blocked_task_list c')
      ListRef.noConfusion ((List.finRange NUM_TASK_PRIORITIES).foldl
        (fun s q => clearHeader s (.ready_list c' q)) S.lists)
    exact .same (hlist'.trans hlist) (hindex'.trans hindex)
  unfold Rpitos.scheduler_init
  dsimp only
  exact hclear.trans (Joins.trans (.same rfl rfl) (add_to_ready _ trivial))

/-- Another core switches. -/
theorem Joins.switch_context (S : Kernel Sequences) {c' : CoreId} (hc : c' ≠ c) :
    Joins c p P S (scheduler_switch_context S c') := by
  have hselect : ∀ S : Kernel Sequences, (select_next S c').lists = S.lists := by
    intro S
    unfold select_next
    split
    · split <;> rfl
    · rfl
  have hend : (end_quantum S c').lists.turn (.ready_list c p) = S.lists.turn (.ready_list c p) := by
    obtain ⟨t, -, -, he⟩ | ⟨-, he⟩ := end_quantum_cases S c'
    · rw [he]
      refine Seqs.turn_advanceIndex.trans (if_neg fun h => ?_)
      exact hc (ListRef.ready_list.inj h).1
    · rw [he]
  unfold scheduler_switch_context
  split
  · exact .same rfl rfl
  · refine .same ?_ ?_
    · rw [hselect]
      exact congrArg Turn.list hend
    · rw [hselect]
      exact congrArg Turn.index hend

theorem Joins.gives (smphs : List SemaphoreId) : ∀ A : System Sequences,
    Joins c p (fun _ => True) A.kernel (A.gives smphs).2.kernel := by
  induction smphs with
  | nil => exact fun A => .same rfl rfl
  | cons smph rest ih => exact fun A => (semaphore_give A.kernel smph).trans (ih (A.give smph).2)

end Joins

/-! ## Tasks that leave -/

section Leaving

variable {c : CoreId} {p : TaskPriorityLevel} {t : Tcb}

/-- A task leaves the list, or was not in it. -/
def LeavesOne (c : CoreId) (p : TaskPriorityLevel) (t : Tcb) (S S' : Kernel Sequences) : Prop :=
  S'.lists.turn (.ready_list c p) = S.lists.turn (.ready_list c p) ∨
    S'.lists.turn (.ready_list c p) = (S.lists.turn (.ready_list c p)).leave (.state_list_item t)

theorem LeavesOne.remove_from_ready (S : Kernel Sequences) (t : Tcb) :
    LeavesOne c p t S (scheduler_remove_from_ready_list S t).2 := by
  unfold scheduler_remove_from_ready_list
  dsimp only
  split
  · have hturn := Seqs.turn_unlinkIndexed (s := S.lists) (l := .ready_list c p)
      (k := .ready_list (S.core_id t) (S.priority t)) (x := .state_list_item t)
    split at hturn
    · exact .inr hturn
    · exact .inl hturn
  · exact .inl rfl

theorem turn_of_ne {S S' : Kernel Sequences} {l : ListRef} {xs : List ItemRef}
    (hne : .ready_list c p ≠ l) (hl : S'.lists.list = update S.lists.list l xs)
    (hi : S'.lists.index = S.lists.index) :
    S'.lists.turn (.ready_list c p) = S.lists.turn (.ready_list c p) := by
  unfold Seqs.turn
  rw [hl, hi, update_of_ne hne]

theorem add_to_blocked_turn (S : Kernel Sequences) (t : Tcb) (w : Nat) :
    (scheduler_add_to_blocked_list S t w).2.lists.turn (.ready_list c p) =
      S.lists.turn (.ready_list c p) :=
  turn_of_ne (l := .blocked_task_list (S.core_id t)) ListRef.noConfusion rfl rfl

theorem LeavesOne.block_until (S : Kernel Sequences) (t : Tcb) (w : Nat) :
    LeavesOne c p t S (block_until S t w) := by
  have hblocked := add_to_blocked_turn (c := c) (p := p) (scheduler_remove_from_ready_list S t).2 t w
  exact (remove_from_ready S t).imp hblocked.trans hblocked.trans

theorem LeavesOne.enter_wait (S : Kernel Sequences) {l : ListRef} (hl : l.isWait = true) (t : Tcb)
    (timeout_ms : Int) (w : Nat) : LeavesOne c p t S (enter_wait S l t timeout_ms w) := by
  have hne : .ready_list c p ≠ l := by
    rintro rfl
    cases hl
  have hpush : ({ S with lists := pushBack S.lists l (.event_list_item t) } : Kernel Sequences).lists.turn
      (.ready_list c p) = S.lists.turn (.ready_list c p) := turn_of_ne hne rfl rfl
  have hleave := remove_from_ready (c := c) (p := p)
    { S with lists := pushBack S.lists l (.event_list_item t) } t
  unfold LeavesOne at hleave ⊢
  rw [hpush] at hleave
  unfold Rpitos.enter_wait
  dsimp only
  split
  · have hblocked := add_to_blocked_turn (c := c) (p := p) (scheduler_remove_from_ready_list
      { S with lists := pushBack S.lists l (.event_list_item t) } t).2 t w
    exact hleave.imp hblocked.trans hblocked.trans
  · exact hleave

end Leaving

section Relinking

variable {c : CoreId} {p : TaskPriorityLevel} {t : Tcb} {K K' : Kernel Links}
  {S S' : Kernel Sequences} {call call' : Tcb → Call} {fl fl' : Tcb → Flight}

theorem Sim.turn_eq (h : Sim K S call fl) : K.turn c p = S.lists.turn (.ready_list c p) := by
  unfold Kernel.turn
  rw [h.walk_left, h.index_eq]
  rfl

theorem Sim.turn_ok (h : Sim K S call fl) : (K.turn c p).Ok := by
  rw [h.turn_eq]
  obtain ⟨hnone, hmem⟩ := h.linked.index_ok c p
  exact ⟨h.linked.exact.nodup _, hnone, hmem⟩

/-- A task moves to another priority: it leaves the list, or joins it, or neither. -/
theorem change_priority_turn (h : Sim K S call fl) (hc : K.created t = true)
    (hl : (fl t).left = none) {q : TaskPriorityLevel} (hq : K.priority t ≠ q) :
    LeavesOne c p t S (scheduler_change_task_priority S t q) ∨
      Joins c p (· = t) S (scheduler_change_task_priority S t q) ∧
        K.current_state t ≠ .BLOCKED ∧ .state_list_item t ∉ S.lists.list (.ready_list c p) := by
  by_cases hs : K.current_state t = .BLOCKED
  · obtain ⟨s, rfl⟩ := h.exists_over
    rw [change_priority_blocked_eq (K := K.over s) hs]
    exact .inl (.inl rfl)
  · have hh := h.ready_home hc hs hl
    have hs' := h.ready_or_running hc hs
    have hright := (h.state_right t).trans hh
    have hmem : ∀ l, .state_list_item t ∈ S.lists.list l ↔
        l = .ready_list (K.core_id t) (K.priority t) := by
      intro l
      rw [h.linked.mem_state, hh, Option.some.injEq, eq_comm]
    obtain ⟨s, rfl⟩ := h.exists_over
    rw [change_priority_ready_eq (K := K.over s) hs' hright]
    have hunlink := Seqs.turn_unlinkIndexed (s := s) (l := .ready_list c p)
      (k := .ready_list (K.core_id t) (K.priority t)) (x := .state_list_item t)
    by_cases hnew : ListRef.ready_list c p = .ready_list (K.core_id t) q
    · have hold : ListRef.ready_list (K.core_id t) (K.priority t) ≠ .ready_list c p := by
        rw [hnew]
        exact fun h => hq (ListRef.ready_list.inj h).2
      refine .inr ⟨?_, hs, fun hm => hold ((hmem _).mp hm).symm⟩
      rw [if_neg hold] at hunlink
      obtain ⟨hlist, hindex⟩ := Seqs.pushBackIndexed_self (x := .state_list_item t)
        (s := Seqs.unlinkIndexed s (.ready_list (K.core_id t) (K.priority t)) (.state_list_item t))
        (l := .ready_list (K.core_id t) q)
      rw [← hnew] at hlist hindex
      have hlist₁ := congrArg Turn.list hunlink
      have hindex₁ := congrArg Turn.index hunlink
      refine ⟨[t], fun u hu => List.mem_singleton.mp hu, ?_, fun hne => ?_⟩
      · show (Seqs.pushBackIndexed _ (ListRef.ready_list (K.core_id t) q) _).list _ = _
        rw [← hnew]
        exact hlist.trans (congrArg (· ++ [ItemRef.state_list_item t]) hlist₁)
      · show (Seqs.pushBackIndexed _ (ListRef.ready_list (K.core_id t) q) _).index _ = _
        rw [← hnew]
        exact (hindex fun he => hne (hlist₁.symm.trans he)).trans hindex₁
    · have hpush := Seqs.turn_pushBackIndexed (x := .state_list_item t)
        (s := Seqs.unlinkIndexed s (.ready_list (K.core_id t) (K.priority t)) (.state_list_item t))
        hnew
      split at hunlink
      · exact .inl (.inr (hpush.trans hunlink))
      · exact .inl (.inl (hpush.trans hunlink))

/-- One task changes its priority, or none. -/
def Moves (c : CoreId) (p : TaskPriorityLevel) (K : Kernel Links) (S S' : Kernel Sequences) : Prop :=
  ∃ o, LeavesOne c p o S S' ∨ Joins c p (· = o) S S' ∧
    K.current_state o ≠ .BLOCKED ∧ .state_list_item o ∉ S.lists.list (.ready_list c p)

theorem Moves.same (h : S'.lists = S.lists) : Moves c p K S S' :=
  ⟨.idle c, .inl (.inl (by rw [h]))⟩

theorem mutex_boost_holder_moves (h : Sim K S call fl) (hl : ∀ o, (fl o).left = none)
    (mtx : MutexId) : Moves c p K S (mutex_boost_holder S mtx) := by
  obtain ⟨s, hs⟩ := h.exists_over
  have hprio : S.priority = K.priority := by rw [h.same]; rfl
  have hown : S.mutex_owner = K.mutex_owner := by rw [h.same]; rfl
  unfold mutex_boost_holder
  rw [hown, hprio]
  cases ho : K.mutex_owner mtx with
  | none => exact .same rfl
  | some o =>
    dsimp only
    split
    · rename_i hlt
      exact ⟨o, change_priority_turn h (h.owners mtx o ho) (hl o) (ne_of_lt hlt)⟩
    · exact .same rfl

theorem mutex_inherit_moves (h : Sim K S call fl) (hl : ∀ o, (fl o).left = none) (mtx : MutexId)
    (t : Tcb) : Moves c p K S (mutex_inherit S mtx t) := by
  unfold mutex_inherit
  split
  · have hsame : ∀ inh, Sim { K with inherited_priority := inh } { S with inherited_priority := inh }
        call fl := by
      intro inh
      obtain ⟨s, rfl⟩ := h.exists_over
      exact ⟨rfl, h.linked, h.tasks, h.counter, h.owners⟩
    exact mutex_boost_holder_moves (hsame _) hl mtx
  · exact .same rfl

theorem mutex_restore_holder_moves (h : Sim K S call fl) (hl : ∀ o, (fl o).left = none)
    (mtx : MutexId) {holder : Option Tcb} (hc : ∀ o, holder = some o → K.created o = true) :
    Moves c p K S (mutex_restore_holder S mtx holder) := by
  have hprio : S.priority = K.priority := by rw [h.same]; rfl
  unfold mutex_restore_holder
  cases holder with
  | none => exact .same rfl
  | some o =>
    dsimp only
    split
    · split
      · rename_i hne
        have hsame : ∀ held, Sim { K with mutexes_held := held } { S with mutexes_held := held }
            call fl := by
          intro held
          obtain ⟨s, rfl⟩ := h.exists_over
          exact ⟨rfl, h.linked, h.tasks, h.counter, h.owners⟩
        exact ⟨o, change_priority_turn
          (hsame (update S.mutexes_held o (u32 (S.mutexes_held o + (2 ^ 32 - 1))))) (hc o rfl) (hl o)
          (hprio ▸ hne.2)⟩
      · exact .same rfl
    · exact .same rfl

theorem Joins.relinked (hj : Joins c p (fun _ => True) S S')
    (hnodup : (S'.lists.list (.ready_list c p)).Nodup) :
    (S.lists.turn (.ready_list c p)).Relinked (S'.lists.turn (.ready_list c p)) := by
  obtain ⟨ts, -, hlist, hindex⟩ := hj
  refine (Turn.Relinked.of_leaves .refl).append hlist hindex fun y hy hm => ?_
  rw [hlist] at hnodup
  exact List.disjoint_of_nodup_append hnodup hm hy

theorem LeavesOne.leaves (hl : LeavesOne c p t S S') :
    (S.lists.turn (.ready_list c p)).Leaves (S'.lists.turn (.ready_list c p)) := by
  rcases hl with heq | heq
  · rw [heq]
    exact .refl
  · rw [heq]
    exact .leave _ .refl

theorem Joins.append {s : Turn ItemRef} {P : Tcb → Prop} (hj : Joins c p P S S')
    (hs : s.Relinked (S.lists.turn (.ready_list c p))) (hP : ∀ t, P t → .state_list_item t ∉ s.list) :
    s.Relinked (S'.lists.turn (.ready_list c p)) := by
  obtain ⟨ts, hts, hlist, hindex⟩ := hj
  refine hs.append hlist hindex fun y hy => ?_
  obtain ⟨t, ht, rfl⟩ := List.mem_map.mp hy
  exact hP t (hts t ht)

theorem Moves.relinked (hm : Moves c p K S S') :
    (S.lists.turn (.ready_list c p)).Relinked (S'.lists.turn (.ready_list c p)) := by
  obtain ⟨o, hl | ⟨hj, -, hmem⟩⟩ := hm
  · exact .of_leaves hl.leaves
  · refine hj.append (.of_leaves .refl) fun t ht => ?_
    rw [ht]
    exact hmem

/-- The caller blocks, and then a task changes its priority. -/
theorem LeavesOne.moves {S₁ : Kernel Sequences} (hl : LeavesOne c p t S S₁) (hm : Moves c p K S₁ S')
    (ht : K.current_state t = .BLOCKED) :
    (S.lists.turn (.ready_list c p)).Relinked (S'.lists.turn (.ready_list c p)) := by
  obtain ⟨o, hl' | ⟨hj, hs, hmem⟩⟩ := hm
  · refine .of_leaves ?_
    rcases hl' with heq | heq
    · rw [heq]
      exact hl.leaves
    · rw [heq]
      exact .leave _ hl.leaves
  · refine hj.append (.of_leaves hl.leaves) fun u hu hmem' => hmem ?_
    rw [hu] at hmem'
    rcases hl with heq | heq
    · have hlist : S₁.lists.list (.ready_list c p) = S.lists.list (.ready_list c p) :=
        congrArg Turn.list heq
      rw [hlist]
      exact hmem'
    · have hne : ItemRef.state_list_item o ≠ .state_list_item t := by
        rintro he
        cases he
        exact hs ht
      have hlist : S₁.lists.list (.ready_list c p) =
          (S.lists.list (.ready_list c p)).erase (.state_list_item t) := congrArg Turn.list heq
      rw [hlist]
      exact (List.mem_erase_of_ne hne).mpr hmem'

theorem mutex_lock_relinked (h : Sim K S call fl) (hl : ∀ o, (fl o).left = none) (mtx : MutexId)
    (timeout_ms : Int) (hc : K.created t = true) (hs : K.current_state t ≠ .BLOCKED)
    (ht : t.is_task = true) (he : (fl t).entered = none) :
    (S.lists.turn (.ready_list c p)).Relinked
      ((mutex_lock S mtx t timeout_ms).2.lists.turn (.ready_list c p)) := by
  by_cases hu : S.mutex_state mtx = .UNLOCKED
  · unfold mutex_lock
    rw [if_pos hu]
    exact .of_leaves .refl
  · by_cases hto : timeout_ms = 0
    · unfold mutex_lock
      rw [if_neg hu, if_pos hto]
      exact .of_leaves .refl
    · rw [mutex_lock_blocks_eq hu hto]
      have hleave := LeavesOne.enter_wait (c := c) (p := p) S (l := .mutex_blocked_list mtx) rfl t
        timeout_ms (u64 (S.tick_count t.home + timeout_ms.toNat))
      have hwait : Sim
          (enter_wait K (.mutex_blocked_list mtx) t timeout_ms
            (u64 (S.tick_count t.home + timeout_ms.toNat)))
          (enter_wait S (.mutex_blocked_list mtx) t timeout_ms
            (u64 (S.tick_count t.home + timeout_ms.toNat)))
          (update call t (.mutex_lock mtx timeout_ms)) fl := h.enter_wait hc hs ht he rfl rfl rfl
      refine hleave.moves (mutex_inherit_moves hwait hl mtx t) ?_
      obtain ⟨lists, wake, heff⟩ := enter_wait_effect K (.mutex_blocked_list mtx) t timeout_ms
        (u64 (S.tick_count t.home + timeout_ms.toNat))
      rw [heff]
      exact update_self ..

theorem semaphore_take_leaves (S : Kernel Sequences) (smph : SemaphoreId) (t : Tcb)
    (timeout_ms : Int) (deadline : Nat) :
    LeavesOne c p t S (semaphore_take S smph t timeout_ms deadline).2 := by
  by_cases hc : 0 < S.count smph
  · unfold semaphore_take
    rw [if_pos hc]
    exact .inl rfl
  · by_cases ht : timeout_ms = 0
    · unfold semaphore_take
      rw [if_neg hc, if_pos ht]
      exact .inl rfl
    · by_cases hd : 0 < timeout_ms ∧ deadline ≤ S.tick_count t.home
      · unfold semaphore_take
        rw [if_neg hc, if_neg ht, if_pos hd]
        exact .inl rfl
      · rw [semaphore_take_blocks_eq hc ht hd]
        exact LeavesOne.enter_wait S rfl t timeout_ms deadline

/-- Behind the hand-off the new owner joins. -/
theorem mutex_transfer_joins (mtx : MutexId) (hs : S.current_state t = .BLOCKED) :
    Joins c p (· = t) S (mutex_transfer S mtx t) := by
  have hboost : Joins c p (· = t) S
      (mutex_boost_owner { S with mutex_owner := update S.mutex_owner mtx (some t) } mtx t) := by
    unfold mutex_boost_owner
    split
    · dsimp only
      split
      · rw [change_priority_blocked_eq (K := { S with
          mutex_owner := update S.mutex_owner mtx (some t)
          mutexes_held := update S.mutexes_held t (u32 (S.mutexes_held t + 1)) }) hs]
        exact .same rfl rfl
      · exact .same rfl rfl
    · exact .same rfl rfl
  exact hboost.trans (Joins.rejoin _ rfl)

theorem mutex_unlock_relinked (h : Sim K S call fl) (hl : ∀ o, (fl o).left = none) (mtx : MutexId) :
    (S.lists.turn (.ready_list c p)).Relinked
      ((mutex_unlock S mtx).2.lists.turn (.ready_list c p)) := by
  have hown : S.mutex_owner = K.mutex_owner := by rw [h.same]; rfl
  unfold mutex_unlock
  split
  · split
    · have hsim : Sim { K with
          mutex_owner := update S.mutex_owner mtx none
          mutex_state := update S.mutex_state mtx .UNLOCKED
          inherited_priority := update S.inherited_priority mtx TASK_PRIORITY_IDLE }
          { S with
            mutex_owner := update S.mutex_owner mtx none
            mutex_state := update S.mutex_state mtx .UNLOCKED
            inherited_priority := update S.inherited_priority mtx TASK_PRIORITY_IDLE } call fl := by
        obtain ⟨s, rfl⟩ := h.exists_over
        exact h.set_owner mtx none (by simp)
      exact (mutex_restore_holder_moves hsim hl mtx fun o ho => h.owners mtx o (hown ▸ ho)).relinked
    · rename_i hn
      obtain ⟨w, h1, h2, hm, hsim⟩ := h.pop_best (mt (h.num_items_zero _).mpr hn)
      obtain ⟨-, -, hb, -, -⟩ := h.wait_mem rfl (fun u => (fl u).entered_ne_mutex mtx) hm
      rw [show mutex_pop_best S mtx = (some w, (mutex_pop_best S mtx).2) from Prod.ext h2 rfl]
      dsimp only
      have hleft : ∀ o, (update fl w Flight.unlinked o).left = none := by
        intro o
        by_cases how : o = w
        · subst how
          rw [update_self]
          rfl
        · rw [update_of_ne how]
          exact hl o
      have hpop : (mutex_pop_best S mtx).2.lists.turn (.ready_list c p) =
          S.lists.turn (.ready_list c p) := by
        unfold mutex_pop_best
        split
        · rfl
        · exact turn_of_ne (l := .mutex_blocked_list mtx) ListRef.noConfusion rfl rfl
      have hmoves : Moves c p (mutex_pop_best K mtx).2 (mutex_pop_best S mtx).2
          (mutex_restore_holder (mutex_pop_best S mtx).2 mtx (S.mutex_owner mtx)) :=
        mutex_restore_holder_moves hsim hleft mtx fun o ho => by
          rw [mutex_pop_best_fields K mtx]
          exact h.owners mtx o (hown ▸ ho)
      have hrestored := hmoves.relinked
      rw [hpop] at hrestored
      obtain ⟨lists, prio, held, heff⟩ := mutex_restore_holder_effect (mutex_pop_best S mtx).2 mtx
        (S.mutex_owner mtx)
      have hblocked : (mutex_restore_holder (mutex_pop_best S mtx).2 mtx
          (S.mutex_owner mtx)).current_state w = .BLOCKED := by
        rw [heff, mutex_pop_best_fields S mtx]
        obtain ⟨s, rfl⟩ := h.exists_over
        exact hb
      refine (mutex_transfer_joins mtx hblocked).append hrestored fun t ht hmem => ?_
      rw [ht] at hmem
      exact (h.ready_mem hmem).2.2.1 hb
  · exact .of_leaves .refl

end Relinking

end Rpitos
