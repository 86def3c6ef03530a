import Rpitos.Kernel.Inheritance
import Rpitos.Kernel.WaitOrder

/-!
# Kernel.NextOwner

Whom `mutex_unlock` hands the mutex to. One scan of the wait list finds the first of the waiters
with the highest priority, and the highest priority of the others, which is the mutex's
`inherited_priority` from then on; the waiter leaves the list, and the others stay in their order.
-/

namespace Rpitos

open Function ListOps StatusCode

variable {K : Kernel Links} {S : Kernel Sequences} {call : Tcb → Call} {fl : Tcb → Flight}
  {mtx : MutexId}

/-- The wait list is the event items of the waiters. -/
theorem Sim.waiters_items (h : Sim K S call fl) :
    S.lists.list (.mutex_blocked_list mtx) = (waiters K mtx).map ItemRef.event_list_item := by
  unfold waiters
  rw [h.walk_left, List.map_map]
  calc S.lists.list (.mutex_blocked_list mtx)
      = (S.lists.list (.mutex_blocked_list mtx)).map id := (List.map_id _).symm
    _ = _ := List.map_congr_left fun x hx => h.linked.mem_kind hx

/-- What `mutex_unlock` stores when it hands the mutex on. -/
theorem mutex_unlock_hands (h : Sim K S call fl) (hl : K.mutex_state mtx = .LOCKED)
    (hne : waiters K mtx ≠ []) :
    ∃ before w after lists prio held, waiters K mtx = before ++ w :: after ∧
      FirstBest K.priority before w after ∧
      mutex_unlock K mtx = (some w, { K with
        lists := lists, priority := prio, mutexes_held := held
        inherited_priority :=
          update K.inherited_priority mtx (highest K.priority (before ++ after))
        mutex_owner := update K.mutex_owner mtx (some w)
        current_state := update K.current_state w .READY }) := by
  have hnum : ¬ num_items S.lists (ListRef.mutex_blocked_list mtx) = 0 := by
    rw [h.num_items_zero, h.waiters_items, List.map_eq_nil_iff]
    exact hne
  cases hw : walk K.lists (ListRef.mutex_blocked_list mtx) MAX_TCBS with
  | nil => exact absurd (by unfold waiters; rw [hw]; rfl) hne
  | cons first rest =>
    obtain ⟨before, w, after, hr, hs, hbest⟩ := scan_best K.priority first rest
    obtain ⟨lists, prio, held, hres⟩ := mutex_restore_holder_effect { K with
      lists := unlink K.lists (.mutex_blocked_list mtx) (.event_list_item w)
      inherited_priority :=
        update K.inherited_priority mtx (highest K.priority (before ++ after)) } mtx
      (K.mutex_owner mtx)
    obtain ⟨lists', prio', held', htr⟩ := mutex_transfer_effect { K with
      lists := lists, priority := prio, mutexes_held := held
      inherited_priority :=
        update K.inherited_priority mtx (highest K.priority (before ++ after)) } mtx w
    refine ⟨before, w, after, lists', prio', held', by unfold waiters; rw [hw, hs], hbest, ?_⟩
    unfold mutex_unlock mutex_pop_best
    rw [if_pos hl, h.num_items_eq, if_neg hnum, hw]
    dsimp only
    rw [hr]
    dsimp only
    rw [hres, htr]

/-- The others stay in the wait list, in their order. -/
theorem mutex_unlock_wait_list {before after : List Tcb} {w : Tcb} (h : Sim K S call grounded)
    (hs : waiters K mtx = before ++ w :: after)
    (hcs : (mutex_unlock K mtx).2.current_state = update K.current_state w .READY) :
    (mutex_unlock S mtx).2.lists.list (.mutex_blocked_list mtx) =
      (before ++ after).map ItemRef.event_list_item := by
  have hshr : Shrinks (.mutex_blocked_list mtx) S (mutex_unlock S mtx).2 :=
    Shrinks.mutex_unlock rfl S mtx
  have hlist := h.wait_list_eq [w] (h.mutex_unlock mtx fun _ _ => rfl).2 rfl hshr fun u => by
    rw [hcs]
    by_cases huw : u = w
    · subst huw; simp
    · simp [huw]
  -- no other waiter is `w`
  have hn : w ∉ before ++ after := by
    have := waiters_nodup h mtx
    rw [hs] at this
    exact (List.nodup_cons.mp (List.nodup_middle.mp this)).1
  have hkeep : ∀ ts : List Tcb, w ∉ ts → ts.filter (fun t => decide (t ∉ [w])) = ts := by
    intro ts hts
    refine List.filter_eq_self.mpr fun t ht => ?_
    have hne : t ≠ w := by rintro rfl; exact hts ht
    simp [hne]
  obtain ⟨hnb, hna⟩ := not_or.mp (mt List.mem_append.mpr hn)
  rw [hlist, h.waiters_items, hs, List.filter_map]
  refine congrArg _ ?_
  show (before ++ w :: after).filter (fun t => decide (t ∉ [w])) = before ++ after
  rw [List.filter_append, List.filter_cons_of_neg (by simp), hkeep before hnb, hkeep after hna]

/-- `w`, which waited between `before` and `after`, owns the mutex, and these still wait for it. -/
structure HandedOn (K : Kernel Links) (mtx : MutexId) (before : List Tcb) (w : Tcb)
    (after : List Tcb) (K' : Kernel Links) : Prop where
  owner : K'.mutex_owner mtx = some w
  inherited : K'.inherited_priority mtx = highest K.priority (before ++ after)
  linked : K'.lists.IsList (.mutex_blocked_list mtx)
    ((before ++ after).map ItemRef.event_list_item)
  num_items : K'.lists.num_items (.mutex_blocked_list mtx) = (before ++ after).length
  unlinked : K'.lists.container (.event_list_item w) = none

/-- `mutex_unlock` of a mutex for which tasks wait makes the first of those with the highest
priority the owner, and takes it, and no other, off the wait list. -/
theorem mutex_unlock_next_owner (h : Sim K S call grounded) (hl : K.mutex_state mtx = .LOCKED)
    (hne : waiters K mtx ≠ []) :
    ∃ before w after, waiters K mtx = before ++ w :: after ∧
      FirstBest K.priority before w after ∧ (mutex_unlock K mtx).1 = some w ∧
      HandedOn K mtx before w after (mutex_unlock K mtx).2 := by
  obtain ⟨before, w, after, lists, prio, held, hs, hbest, he⟩ := mutex_unlock_hands h hl hne
  have h' := (h.mutex_unlock mtx fun _ _ => rfl).2
  have hleft := mutex_unlock_wait_list h hs (by rw [he])
  refine ⟨before, w, after, hs, hbest, by rw [he], by simp [he], by simp [he], ?_, ?_, ?_⟩
  · rw [← hleft]; exact h'.linked.refines.rep _
  · rw [← List.length_map (f := ItemRef.event_list_item), ← hleft]
    exact h'.linked.num_items_eq _
  · exact h'.event_unlinked (by simp [he])

/-- A task on each core. The one of core 0 owns mutex 0; the others, of priority 2, 3 and 3, wait for
it. -/
def four_cores : List Action :=
  [.scheduler_init 0, .scheduler_init 1, .scheduler_init 2, .scheduler_init 3,
   .task_create 0 100 1, .task_create 1 100 2, .task_create 2 100 3, .task_create 3 100 3,
   .scheduler_start 0, .scheduler_start 1, .scheduler_start 2, .scheduler_start 3,
   .mutex_lock (.pool 0 0) 0 (-1), .mutex_lock (.pool 1 0) 0 (-1), .mutex_lock (.pool 2 0) 0 5,
   .mutex_lock (.pool 3 0) 0 (-1)]

theorem four_cores_run :
    ((boot (fun _ => 1) (fun _ => 0)).exec anyStep four_cores).isSome = true := by rfl

/-- The state after `four_cores`. -/
def queued : System Links :=
  (((boot (fun _ => 1) (fun _ => 0)).exec anyStep four_cores).get four_cores_run).2

theorem mutex_unlock_next_owner_queued :
    ∃ before w after, waiters queued.kernel 0 = before ++ w :: after ∧
      FirstBest queued.kernel.priority before w after ∧
      (mutex_unlock queued.kernel 0).1 = some w ∧
      HandedOn queued.kernel 0 before w after (mutex_unlock queued.kernel 0).2 := by
  obtain ⟨A, -, hs⟩ := (Run.of_exec (Option.some_get four_cores_run).symm).sim anyStep
    (fun _ _ _ => trivial)
  exact mutex_unlock_next_owner hs.kernel (by rfl) (by decide +kernel)

/-- The earlier of the two of priority 3, though not the head of the list. -/
example : (mutex_unlock queued.kernel 0).1 = some (.pool 2 0) ∧
    waiters (mutex_unlock queued.kernel 0).2 0 = [.pool 1 0, .pool 3 0] := by decide +kernel

end Rpitos
