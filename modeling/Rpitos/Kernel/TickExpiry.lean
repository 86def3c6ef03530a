import Rpitos.Kernel.WaitOrder

/-!
# Kernel.TickExpiry

Which tasks a tick wakes. The expiry loop stops at the first task of the blocked list that is not
due; the list is in the order of the wake-up times, so the tasks it has taken off are those that
are due, in their order. Each goes to the end of its ready list, and out of the wait list it is in.
-/

namespace Rpitos

open Function ListOps StatusCode

/-! ## A list in the order of its keys -/

section Sorted

variable {α : Type} {key : α → Nat} {x : α} {xs : List α} {now : Nat}

/-- Behind an element that is not due none is. -/
theorem sorted_none_due (hs : (x :: xs).Pairwise fun a b => key a ≤ key b) (hx : now < key x) :
    ∀ y ∈ x :: xs, now < key y := by
  intro y hy
  rcases List.mem_cons.mp hy with rfl | hy
  · exact hx
  · exact Nat.lt_of_lt_of_le hx ((List.pairwise_cons.mp hs).1 y hy)

end Sorted

/-! ## One task -/

variable {K : Kernel Links} {S S' S'' : Kernel Sequences} {call : Tcb → Call} {c : CoreId}

/-- What the tasks `ts` of core `c` add to a ready list. -/
def readied (priority : Tcb → TaskPriorityLevel) (c : CoreId) (ts : List Tcb) (c' : CoreId)
    (p : TaskPriorityLevel) : List ItemRef :=
  if c' = c then (ts.filter fun t => decide (priority t = p)).map ItemRef.state_list_item else []

@[simp] theorem readied_nil {priority : Tcb → TaskPriorityLevel} {c' : CoreId}
    {p : TaskPriorityLevel} : readied priority c [] c' p = [] := by
  unfold readied; split <;> rfl

theorem readied_cons {priority : Tcb → TaskPriorityLevel} (t : Tcb) (ts : List Tcb) {c' : CoreId}
    {p : TaskPriorityLevel} : readied priority c (t :: ts) c' p =
      readied priority c [t] c' p ++ readied priority c ts c' p := by
  unfold readied
  split
  · rw [← List.map_append, ← List.filter_append]; rfl
  · rfl

/-- The tasks `ts` have gone from the blocked list of core `c` to its ready lists. -/
structure Expires (priority : Tcb → TaskPriorityLevel) (c : CoreId) (ts : List Tcb)
    (S S' : Kernel Sequences) : Prop where
  blocked : S'.lists.list (.blocked_task_list c) =
    (S.lists.list (.blocked_task_list c)).filter fun x => decide (x.owner ∉ ts)
  blocked_other : ∀ c', c' ≠ c →
    S'.lists.list (.blocked_task_list c') = S.lists.list (.blocked_task_list c')
  ready : ∀ c' p, S'.lists.list (.ready_list c' p) =
    S.lists.list (.ready_list c' p) ++ readied priority c ts c' p
  index : ∀ c' p, S'.lists.index (.ready_list c' p) =
    (S.lists.index (.ready_list c' p)).or (readied priority c ts c' p).head?

namespace Expires

variable {priority : Tcb → TaskPriorityLevel} {t : Tcb} {ts : List Tcb}

theorem refl (S : Kernel Sequences) : Expires priority c [] S S :=
  ⟨by simp, fun _ _ => rfl, by simp, by simp⟩

theorem trans (h : Expires priority c [t] S S') (h' : Expires priority c ts S' S'') :
    Expires priority c (t :: ts) S S'' := by
  refine ⟨?_, fun c' hc => (h'.blocked_other c' hc).trans (h.blocked_other c' hc), fun c' p => ?_,
    fun c' p => ?_⟩
  · rw [h'.blocked, h.blocked, List.filter_filter]
    refine List.filter_congr fun x _ => ?_
    simp [Bool.and_comm]
  · rw [h'.ready, h.ready, List.append_assoc, ← readied_cons]
  · rw [h'.index, h.index, Option.or_assoc, readied_cons t ts, List.head?_append]

end Expires

/-- `expire_task` on the sequences: out of the blocked list, out of a wait list if it is in one, to
the end of its ready list. -/
theorem expire_task_lists {x : ItemRef} (h : Sim K S call grounded)
    (hx : x ∈ S.lists.list (.blocked_task_list c)) :
    ∃ s, (expire_task S x.owner).lists =
        pushBackIndexed s (.ready_list c (K.priority x.owner)) (.state_list_item x.owner) ∧
      s.index = S.lists.index ∧ ∀ l, l.isWait = false →
        s.list l = (unlink S.lists (.blocked_task_list c) (ItemRef.state_list_item x.owner)).list l := by
  obtain ⟨hk, hc, hhome, hb⟩ := h.blocked_mem hx
  obtain ⟨hs, ht⟩ := hb rfl
  have hcore : K.core_id x.owner = c := (h.tasks.home _ hc).trans hhome
  have hh : stateHome K call grounded x.owner = some (.blocked_task_list (K.core_id x.owner)) := by
    simp [stateHome, hc, hs, ht, grounded]
  have hev : (unlink S.lists (.blocked_task_list (K.core_id x.owner))
      (ItemRef.state_list_item x.owner)).container (.event_list_item x.owner) =
      (call x.owner).waits_on := by
    refine ((h.linked.blocked_unlink hh).event _ (by simp [grounded])).trans ?_
    simp [eventHome, hc, hs, grounded]
  obtain ⟨s, rfl⟩ := h.exists_over
  cases hw : (call x.owner).waits_on with
  | none =>
    rw [hw] at hev
    rw [expire_task_delayed_eq (K := K.over s) ((h.state_right _).trans hh) hev]
    refine ⟨unlink s (.blocked_task_list c) (.state_list_item x.owner), ?_, rfl, fun _ _ => rfl⟩
    show pushBackIndexed (unlink s (.blocked_task_list (K.core_id x.owner)) _)
      (.ready_list (K.core_id x.owner) (K.priority x.owner)) _ = _
    rw [hcore]
  | some l =>
    rw [hw] at hev
    rw [expire_task_waiting_eq (K := K.over s) ((h.state_right _).trans hh) hev]
    refine ⟨unlink (unlink s (.blocked_task_list c) (.state_list_item x.owner)) l
      (.event_list_item x.owner), ?_, rfl, fun k hk => ?_⟩
    · show pushBackIndexed (unlink (unlink s (.blocked_task_list (K.core_id x.owner)) _) l _)
        (.ready_list (K.core_id x.owner) (K.priority x.owner)) _ = _
      rw [hcore]
    · have hkl : k ≠ l := by
        rintro rfl
        rw [waits_on_isWait hw] at hk
        cases hk
      exact update_of_ne hkl _ _

/-- One pass of the loop. -/
theorem expire_head_lists {x : ItemRef} {xs : List ItemRef} (h : Sim K S call grounded)
    (hx : S.lists.list (.blocked_task_list c) = x :: xs) :
    Expires K.priority c [x.owner] S (expire_task S x.owner) ∧
      (expire_task S x.owner).lists.list (.blocked_task_list c) = xs := by
  have hmem : x ∈ S.lists.list (.blocked_task_list c) := by rw [hx]; simp
  obtain ⟨hk, -⟩ := h.blocked_mem hmem
  have hnodup := h.linked.exact.nodup (.blocked_task_list c)
  obtain ⟨s, hs, hindex, hlist⟩ := expire_task_lists h hmem
  rw [← hk] at hs hlist
  have hpush : ∀ l, (expire_task S x.owner).lists.list l =
      s.list l ++ if l = .ready_list c (K.priority x.owner) then [x] else [] := by
    intro l
    rw [hs]
    by_cases hl : l = .ready_list c (K.priority x.owner)
    · subst hl; simp [pushBackIndexed, Seqs.pushBackIndexed, Seqs.pushBack]
    · simp [pushBackIndexed, Seqs.pushBackIndexed, Seqs.pushBack, hl]
  have hready : ∀ c' p, s.list (.ready_list c' p) = S.lists.list (.ready_list c' p) := by
    intro c' p
    rw [hlist _ rfl]
    simp [unlink, Seqs.unlink]
  have hblocked : (expire_task S x.owner).lists.list (.blocked_task_list c) = xs := by
    rw [hpush, hlist _ rfl]
    simp [unlink, Seqs.unlink, hx]
  have hadd : ∀ c' p, readied K.priority c [x.owner] c' p =
      if ListRef.ready_list c' p = .ready_list c (K.priority x.owner) then [x] else [] := by
    intro c' p
    unfold readied
    by_cases hc : c' = c
    · by_cases hp : K.priority x.owner = p
      · simp [hc, hp, ← hk]
      · simp [hc, hp, Ne.symm hp]
    · simp [hc]
  refine ⟨⟨?_, fun c' hc => ?_, fun c' p => ?_, fun c' p => ?_⟩, hblocked⟩
  · rw [hblocked, hx, List.filter_cons_of_neg (by simp)]
    refine (List.filter_eq_self.mpr fun y hy => ?_).symm
    rw [hx] at hnodup
    have hne : y.owner ≠ x.owner := by
      intro e
      have hy' := (h.blocked_mem (c := c) (x := y) (by rw [hx]; simp [hy])).1
      rw [e, ← hk] at hy'
      exact (List.nodup_cons.mp hnodup).1 (hy' ▸ hy)
    simp [hne]
  · rw [hpush, hlist _ rfl]
    simp [unlink, Seqs.unlink, hc]
  · rw [hpush, hready, hadd]
  · rw [hs, hadd]
    show (if s.list _ = [] then update s.index _ (some x) else s.index) _ = _
    rw [hready, hindex]
    have hnull := (h.linked.index_ok c (K.priority x.owner)).1
    by_cases hl : ListRef.ready_list c' p = .ready_list c (K.priority x.owner)
    · rw [hl, if_pos rfl]
      by_cases he : S.lists.list (.ready_list c (K.priority x.owner)) = []
      · rw [if_pos he, update_self, hnull.mpr he]; rfl
      · obtain ⟨i, hi⟩ := Option.ne_none_iff_exists'.mp (mt hnull.mp he)
        rw [if_neg he, hi]; rfl
    · rw [if_neg hl]
      split
      · rw [update_of_ne hl]; simp
      · simp

/-! ## The loop -/

/-- The tasks of a list whose wake-up time has come. -/
def dueTasks (wakeup_time : Tcb → Nat) (now : Nat) (xs : List ItemRef) : List Tcb :=
  (xs.map ItemRef.owner).filter fun t => decide (wakeup_time t ≤ now)

/-- After the first pass the loop has the rest of the list before it. -/
theorem expire_rest {x : ItemRef} {xs : List ItemRef} (h : Sim K S call grounded)
    (hx : S.lists.list (.blocked_task_list c) = x :: xs)
    (hw : K.wakeup_time x.owner ≤ K.tick_count c) :
    Sim (expire_task K x.owner) (expire_task S x.owner) call grounded := by
  refine h.expire_head (fun t hf => absurd rfl hf) ?_ hw
  show (S.lists.list (.blocked_task_list c)).head? = some x
  rw [hx]; rfl

/-- With fuel for every task of the blocked list, the loop takes off those that are due. -/
theorem expire_loop_due (c : CoreId) : ∀ (n : Nat) {K : Kernel Links} {S : Kernel Sequences},
    Sim K S call grounded → (S.lists.list (.blocked_task_list c)).length ≤ n →
      (expire_loop c n S).1 =
          dueTasks K.wakeup_time (K.tick_count c) (S.lists.list (.blocked_task_list c)) ∧
        Expires K.priority c (expire_loop c n S).1 S (expire_loop c n S).2 := by
  intro n
  induction n with
  | zero =>
    intro K S _ hn
    have hnil : S.lists.list (.blocked_task_list c) = [] := List.length_eq_zero_iff.mp (by omega)
    rw [hnil]
    exact ⟨rfl, .refl S⟩
  | succ n ih =>
    intro K S h hn
    obtain ⟨hwake, htick⟩ := h.fields
    have hhead : head S.lists (ListRef.blocked_task_list c) =
        (S.lists.list (.blocked_task_list c)).head? := rfl
    unfold expire_loop
    rw [hhead]
    cases hx : S.lists.list (.blocked_task_list c) with
    | nil => exact ⟨rfl, .refl S⟩
    | cons x xs =>
      dsimp only [List.head?_cons]
      rw [hwake, htick]
      have hsorted := h.linked.sorted c
      rw [hx] at hsorted hn
      by_cases hw : K.wakeup_time x.owner ≤ K.tick_count c
      · obtain ⟨hexp, hrest⟩ := expire_head_lists h hx
        have hsim := expire_rest h hx hw
        rw [if_pos hw]
        obtain ⟨h1, h2⟩ := ih hsim (by rw [hrest]; simpa using hn)
        rw [hrest, expire_task_fields K] at h1
        rw [expire_task_fields K] at h2
        refine ⟨?_, hexp.trans h2⟩
        dsimp only
        rw [h1]
        simp [dueTasks, hw]
      · rw [if_neg hw]
        have hnone := sorted_none_due hsorted (Nat.lt_of_not_le hw)
        refine ⟨?_, .refl S⟩
        refine (List.filter_eq_nil_iff.mpr fun t ht => ?_).symm
        obtain ⟨y, hy, rfl⟩ := List.mem_map.mp ht
        have := hnone y hy
        simpa using this

/-- More fuel changes nothing: the loop ends by its own condition. -/
theorem expire_loop_fuel (c : CoreId) : ∀ (n m : Nat) {K : Kernel Links} {S : Kernel Sequences},
    Sim K S call grounded → (S.lists.list (.blocked_task_list c)).length ≤ n →
      (S.lists.list (.blocked_task_list c)).length ≤ m → expire_loop c n K = expire_loop c m K := by
  intro n
  induction n with
  | zero =>
    intro m K S h hn _
    have hnil : S.lists.list (.blocked_task_list c) = [] := List.length_eq_zero_iff.mp (by omega)
    have hhead : head K.lists (ListRef.blocked_task_list c) = none := by
      rw [h.head_eq]
      show (S.lists.list (.blocked_task_list c)).head? = none
      rw [hnil]; rfl
    cases m with
    | zero => rfl
    | succ m => unfold expire_loop; rw [hhead]
  | succ n ih =>
    intro m K S h hn hm
    have hhead : head K.lists (ListRef.blocked_task_list c) =
        (S.lists.list (.blocked_task_list c)).head? := h.head_eq _
    cases hx : S.lists.list (.blocked_task_list c) with
    | nil =>
      rw [hx] at hhead
      cases m with
      | zero => unfold expire_loop; rw [hhead]; rfl
      | succ m => unfold expire_loop; rw [hhead]; rfl
    | cons x xs =>
      rw [hx] at hhead hn hm
      cases m with
      | zero => simp at hm
      | succ m =>
        unfold expire_loop
        rw [hhead]
        dsimp only [List.head?_cons]
        by_cases hw : K.wakeup_time x.owner ≤ K.tick_count c
        · rw [if_pos hw, if_pos hw]
          have hrest := (expire_head_lists h hx).2
          rw [ih m (expire_rest h hx hw) (by rw [hrest]; simpa using hn)
            (by rw [hrest]; simpa using hm)]
        · rw [if_neg hw, if_neg hw]

/-! ## The tick -/

theorem Sim.next_tick (h : Sim K S call grounded) (c : CoreId) :
    Sim (next_tick K c) (next_tick S c) call grounded := by
  obtain ⟨s, rfl⟩ := h.exists_over
  exact ⟨rfl, h.linked, h.tasks, h.counter, h.owners⟩

/-- The tick takes the due tasks off the blocked list. -/
theorem timer_tick_due (h : Sim K S call grounded) (c : CoreId) :
    (timer_tick_handler K c).1 = dueTasks K.wakeup_time (u64 (K.tick_count c + 1))
        (S.lists.list (.blocked_task_list c)) ∧
      Expires K.priority c (timer_tick_handler K c).1 S (timer_tick_handler S c).2 := by
  obtain ⟨hdue, hexp⟩ := expire_loop_due c MAX_TCBS (h.next_tick c)
    (h.linked.length_le (.blocked_task_list c))
  rw [(h.timer_tick_handler (c := c) fun t hf => absurd rfl hf).1]
  refine ⟨hdue.trans ?_, hexp.blocked, hexp.blocked_other, hexp.ready, hexp.index⟩
  rw [show (Rpitos.next_tick K c).tick_count c = u64 (K.tick_count c + 1) from update_self ..]
  rfl

/-- A task that a tick wakes was blocked, for a time. -/
theorem timer_tick_woken {t : Tcb} (h : Sim K S call grounded)
    (ht : t ∈ (timer_tick_handler K c).1) :
    K.current_state t = .BLOCKED ∧ (call t).timed = true := by
  rw [(timer_tick_due h c).1] at ht
  obtain ⟨x, hx, rfl⟩ := List.mem_map.mp (List.mem_filter.mp ht).1
  exact (h.blocked_mem hx).2.2.2 rfl

/-- The tasks that are not due stay blocked. -/
theorem timer_tick_blocked (h : Sim K S call grounded) (c : CoreId) :
    (timer_tick_handler S c).2.lists.list (.blocked_task_list c) =
      (S.lists.list (.blocked_task_list c)).filter fun x =>
        decide (u64 (K.tick_count c + 1) < K.wakeup_time x.owner) := by
  obtain ⟨hdue, hexp⟩ := timer_tick_due h c
  rw [hexp.blocked]
  refine List.filter_congr fun x hx => ?_
  have hm : x.owner ∈ (S.lists.list (.blocked_task_list c)).map ItemRef.owner :=
    List.mem_map_of_mem hx
  rw [decide_eq_decide, hdue, dueTasks, List.mem_filter]
  simp [hm]

/-- The tasks that a tick wakes leave the wait lists. -/
theorem timer_tick_waits (h : Sim K S call grounded) (c : CoreId) {l : ListRef}
    (hl : l.isWait = true) : (timer_tick_handler S c).2.lists.list l =
      (S.lists.list l).filter fun x => decide (x.owner ∉ (timer_tick_handler K c).1) := by
  obtain ⟨lists, hfields⟩ := timer_tick_handler_effect K c
  refine h.wait_list_eq (timer_tick_handler K c).1
    (h.timer_tick_handler (c := c) fun t hf => absurd rfl hf).2 hl
    (Shrinks.timer_tick_handler hl S c) fun u => ?_
  rw [hfields]
  by_cases hu : u ∈ (timer_tick_handler K c).1 <;> simp [hu]

/-- A tick of core `c` at the new count `now` takes the kernel `K`, whose lists are `A`, to `K'`,
whose lists are `A'`, and wakes the tasks `ts`. -/
structure TickWakes (K : Kernel Links) (c : CoreId) (now : Nat) (A : ListRef → List ItemRef)
    (ts : List Tcb) (K' : Kernel Links) (A' : ListRef → List ItemRef) : Prop where
  due : ts = dueTasks K.wakeup_time now (A (.blocked_task_list c))
  /-- Nothing but the count, the lists, and the states of these tasks changes. -/
  fields : K' = { K with
    lists := K'.lists
    tick_count := update K.tick_count c now
    current_state := fun u => if u ∈ ts then .READY else K.current_state u }
  before : ∀ l, K.lists.IsList l (A l)
  well_formed : ∀ l, K'.lists.IsList l (A' l)
  num_items : ∀ l, K'.lists.num_items l = (A' l).length
  blocked : A' (.blocked_task_list c) =
    (A (.blocked_task_list c)).filter fun x => decide (now < K.wakeup_time x.owner)
  sorted : (A' (.blocked_task_list c)).Pairwise
    fun x y => K.wakeup_time x.owner ≤ K.wakeup_time y.owner
  blocked_other : ∀ c', c' ≠ c → A' (.blocked_task_list c') = A (.blocked_task_list c')
  ready : ∀ c' p, A' (.ready_list c' p) = A (.ready_list c' p) ++ readied K.priority c ts c' p
  index : ∀ c' p, K'.lists.index (.ready_list c' p) =
    (K.lists.index (.ready_list c' p)).or (readied K.priority c ts c' p).head?
  /-- A wait list loses the tasks that wake, and no other. -/
  waits : ∀ l, l.isWait = true → A' l = (A l).filter fun x => decide (x.owner ∉ ts)
  waits_count : ∀ l, l.isWait = true →
    K'.lists.num_items l + ((A l).filter fun x => decide (x.owner ∈ ts)).length =
      K.lists.num_items l
  unlinked : ∀ t ∈ ts, K'.lists.container (.event_list_item t) = none

/-- From every state that satisfies the invariant of the lists, the expiry loop of a tick ends, and
wakes exactly the tasks that are due. -/
theorem tick_wakes_due (h : Sim K S call grounded) (c : CoreId) :
    (∀ n, (S.lists.list (.blocked_task_list c)).length ≤ n →
      expire_loop c n (next_tick K c) = timer_tick_handler K c) ∧
    ∃ A', TickWakes K c (u64 (K.tick_count c + 1)) S.lists.list (timer_tick_handler K c).1
      (timer_tick_handler K c).2 A' := by
  refine ⟨fun n hn => expire_loop_fuel c n MAX_TCBS (h.next_tick c) hn (h.linked.length_le _), ?_⟩
  obtain ⟨hdue, hexp⟩ := timer_tick_due h c
  have h' := (h.timer_tick_handler (c := c) fun t hf => absurd rfl hf).2
  have hblocked := timer_tick_blocked h c
  have hwaits : ∀ l : ListRef, l.isWait = true → _ := fun l hl => timer_tick_waits h c hl
  obtain ⟨lists, hfields⟩ := timer_tick_handler_effect K c
  generalize (timer_tick_handler S c).2 = S' at h' hblocked hwaits hexp
  generalize (timer_tick_handler K c).1 = ts at hdue hwaits hexp hfields
  generalize (timer_tick_handler K c).2 = K' at h' hfields
  have hwake : K'.wakeup_time = K.wakeup_time := by rw [hfields]
  refine ⟨S'.lists.list, hdue, by rw [hfields], h.linked.refines.rep, h'.linked.refines.rep,
    h'.linked.num_items_eq, hblocked, hwake ▸ h'.linked.sorted c, hexp.blocked_other, hexp.ready,
    fun c' p => ?_, hwaits, fun l hl => ?_, fun t ht => ?_⟩
  · rw [h'.linked.refines.index, h.linked.refines.index]
    exact hexp.index c' p
  · have h1 : K'.lists.num_items l = (S'.lists.list l).length := h'.linked.num_items_eq l
    have h2 : K.lists.num_items l = (S.lists.list l).length := h.linked.num_items_eq l
    rw [h1, h2, hwaits l hl, List.length_eq_length_filter_add (l := S.lists.list l)
      fun x => decide (x.owner ∉ ts)]
    simp
  · have hst : K'.current_state t ≠ .BLOCKED := by rw [hfields]; simp [ht]
    exact h'.event_unlinked hst

/-- Three tasks of core 0. At tick 0 the first waits for a semaphore for two ticks, at tick 1 the
second for one. -/
def two_due : List Action :=
  [.scheduler_init 0, .task_create 0 100 3, .task_create 0 100 2, .task_create 0 100 2,
   .scheduler_start 0, .semaphore_take (.pool 0 0) 3 2, .proceed (.pool 0 0), .tick 0 [],
   .task_delay_ms (.pool 0 1) 1, .proceed (.pool 0 1)]

theorem two_due_run :
    ((boot (fun _ => 1) (fun _ => 0)).exec anyStep two_due).isSome = true := by rfl

/-- The kernel after `two_due`. -/
def beforeTick : Kernel Links :=
  (((boot (fun _ => 1) (fun _ => 0)).exec anyStep two_due).get two_due_run).2.kernel

theorem tick_wakes_due_two :
    ∃ A A', TickWakes beforeTick 0 (u64 (beforeTick.tick_count 0 + 1)) A
      (timer_tick_handler beforeTick 0).1 (timer_tick_handler beforeTick 0).2 A' := by
  obtain ⟨A, -, hs⟩ := (Run.of_exec (Option.some_get two_due_run).symm).sim anyStep
    (fun _ _ _ => trivial)
  obtain ⟨-, A', h⟩ := tick_wakes_due hs.kernel 0
  exact ⟨_, A', h⟩

/-- Of two tasks that are due at the same time the later is first in the blocked list. -/
example : (timer_tick_handler beforeTick 0).1 = [.pool 0 1, .pool 0 0] := by decide +kernel

end Rpitos
