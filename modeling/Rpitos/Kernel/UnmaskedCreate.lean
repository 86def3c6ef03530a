import Rpitos.Lib.Reach
import Rpitos.Kernel.ListInvariant
import Mathlib.Data.Fintype.Option

/-!
# Kernel.UnmaskedCreate

`task_create`, one statement at a time. It masks the interrupts in `heap_malloc` and for its report,
and nowhere else: it appends the new task under the scheduler lock alone. That does not keep out a
tick of its own core, whose `scheduler_lock` does not wait for its own ticket.

A tick that falls between two statements of the append can wake a task into the same list, and the
append then loses it (`tick_in_task_create`). As long as no interrupt of the core falls into a
`task_create`, as in `kmain` with the interrupts masked, the call is the one step `task_create` of
`Kernel.System`, and the lists stay what they should be (`kernel_lists_uninterrupted`).

Only the core of the call is looked at while the call executes: sections of the other cores come
before or after it.
-/

namespace Rpitos

open Function

/-- The locals of a `task_create`: the TCB it has taken from the pool, and its arguments, with the
priority clamped. -/
structure NewTask where
  tcb : Tcb
  stack_depth : Nat
  priority : TaskPriorityLevel
  deriving DecidableEq

/-- The next statement of `scheduler_add_to_ready_list`. -/
inductive AppendPc where
  /-- `item->container = list` -/
  | container
  /-- `item->next = NULL` -/
  | next
  /-- `item->prev = list->list_end` -/
  | prev
  /-- `list->list_end->next = item`, or `list->head = item` in an empty list. -/
  | link
  /-- `list->index = item` -/
  | index
  /-- `list->list_end = item` -/
  | list_end
  /-- `list->num_items++` -/
  | num_items
  /-- `(*tcb)->current_state = TASK_STATE_READY` -/
  | current_state
  deriving DecidableEq

/-- The next statement of `task_create`. -/
inductive CreatePc where
  | heap_malloc
  /-- The watermark loop. -/
  | watermark
  | task_id
  | core_id
  /-- `task_counter[core_id]++` -/
  | task_counter
  /-- The other fields of the TCB, which nobody else has a pointer to yet. -/
  | fields
  | append (list : ListRef) (pc : AppendPc)
  deriving DecidableEq

/-- One statement of `scheduler_add_to_ready_list`, and where it goes on. -/
def AppendPc.exec (tcb : Tcb) (list : ListRef) (K : Kernel Links) :
    AppendPc → Option AppendPc × Kernel Links :=
  let h := K.lists
  let item := ItemRef.state_list_item tcb
  fun
  | .container => (some .next, { K with lists.container := update h.container item (some list) })
  | .next => (some .prev, { K with lists.next := update h.next item none })
  | .prev => (some .link, { K with lists.prev := update h.prev item (h.list_end list) })
  | .link =>
    match h.list_end list with
    | some last => (some .list_end, { K with lists.next := update h.next last (some item) })
    | none => (some .index, { K with lists.head := update h.head list (some item) })
  | .index => (some .list_end, { K with lists.index := update h.index list (some item) })
  | .list_end => (some .num_items, { K with lists.list_end := update h.list_end list (some item) })
  | .num_items => (some .current_state, { K with lists := h.incr list })
  | .current_state => (none, { K with current_state := update K.current_state tcb .READY })

/-- One statement of `task_create` on core `c`, and where it goes on. -/
def CreatePc.exec (c : CoreId) (n : NewTask) (K : Kernel Links) :
    CreatePc → Option CreatePc × Kernel Links
  | .heap_malloc =>
    match Rpitos.heap_malloc K.heap_offset (4 * n.stack_depth) with
    | (none, _) => (none, { K with stack_base0 := update K.stack_base0 n.tcb none })
    | (some _, heap_offset) =>
      (some .watermark, { K with
        heap_offset := heap_offset
        stack_depth := update K.stack_depth n.tcb n.stack_depth })
  | .watermark =>
    (some .task_id, { K with stack_base0 := update K.stack_base0 n.tcb (some TASK_WATERMARK) })
  | .task_id => (some .core_id, { K with task_id := update K.task_id n.tcb (K.task_counter c) })
  | .core_id => (some .task_counter, { K with core_id := update K.core_id n.tcb c })
  | .task_counter =>
    (some .fields, { K with task_counter := update K.task_counter c (K.task_counter c + 1) })
  | .fields =>
    let K := { K with
      lists := clear_items K.lists n.tcb
      priority := update K.priority n.tcb n.priority
      base_priority := update K.base_priority n.tcb n.priority
      mutexes_held := update K.mutexes_held n.tcb 0
      current_state := update K.current_state n.tcb .READY
      wakeup_time := update K.wakeup_time n.tcb 0
      wakeup_reason := update K.wakeup_reason n.tcb .NONE }
    -- the locals of `scheduler_add_to_ready_list`
    (some (.append (.ready_list (K.core_id n.tcb) (K.priority n.tcb)) .container), K)
  | .append list pc =>
    let r := pc.exec n.tcb list K
    (r.1.map (.append list), r.2)

/-- The priority that `task_create` gives the task. -/
def clamp_priority (priority : Nat) : TaskPriorityLevel :=
  if hp : priority < NUM_TASK_PRIORITIES then ⟨priority, hp⟩
  else ⟨NUM_TASK_PRIORITIES - 1, top_priority_lt⟩

/-- The kernel, and the calls of `task_create` in progress: on each core that of `kmain`, which has
no TCB, and those of the tasks. -/
structure Unmasked where
  system : System Links
  creating : CoreId → Option Tcb → Option (NewTask × CreatePc)

inductive UnmaskedAction where
  /-- A step of `System` other than `task_create`. -/
  | section (a : Action)
  /-- `task_create` by what runs on the core, up to its first statement that stores. -/
  | task_create (core : CoreId) (stack_depth priority : Nat)
  /-- The next statement of the `task_create` that the core executes. -/
  | proceed (core : CoreId)
  deriving DecidableEq

def Action.creates : Action → Bool
  | .task_create _ _ _ => true
  | _ => false

/-- Whether the step can be an interrupt of the core: its tick, or a handler that gives. -/
def Action.interrupts (c : CoreId) : Action → Bool
  | .tick d _ => d = c
  | .semaphore_give _ => true
  | _ => false

namespace Unmasked

/-- The `task_create` that the core executes. -/
def current (X : Unmasked) (c : CoreId) : Option (NewTask × CreatePc) :=
  X.creating c (X.system.kernel.p_task_control_block c)

/-- Whoever runs on the core can call: `kmain`, or a task that is in no call. -/
def may_call (X : Unmasked) (c : CoreId) : Prop :=
  ∀ t, X.system.kernel.p_task_control_block c = some t → X.system.free t

instance (X : Unmasked) (c : CoreId) : Decidable (X.may_call c) :=
  inferInstanceAs (Decidable (∀ _, _ → _))

def set (X : Unmasked) (K : Kernel Links) (c : CoreId) (pc : Option (NewTask × CreatePc)) :
    Unmasked where
  system := X.system.withKernel K
  creating := update X.creating c
    (update (X.creating c) (X.system.kernel.p_task_control_block c) pc)

/-- One step, `none` where it is not possible. While a core executes a `task_create`, only interrupts
of this core come in between. -/
def step (X : Unmasked) : UnmaskedAction → Option Unmasked
  | .section a =>
    if a.creates = false ∧ ∀ c, (X.current c).isSome = true → a.interrupts c = true then
      match X.system.step a with
      | some r => some { X with system := r.2 }
      | none => none
    else none
  | .task_create c stack_depth priority =>
    if X.system.kernel.initialised c = true ∧ X.may_call c ∧ ∀ d, X.current d = none then
      let n := X.system.kernel.task_counter c
      if h : n < MAX_NUM_TASKS then
        some (X.set X.system.kernel c
          (some (⟨.pool c ⟨n, h⟩, stack_depth, clamp_priority priority⟩, .heap_malloc)))
      else if n = MAX_NUM_TASKS then some X
      -- past the pool, where only an interrupted call has left the counter
      else none
    else none
  | .proceed c =>
    if X.system.kernel.hung c = false then
      match X.current c with
      | some (n, pc) =>
        let r := pc.exec c n X.system.kernel
        some (X.set r.2 c (r.1.map fun pc => (n, pc)))
      | none => none
    else none

/-- The kernel at boot, with no call in progress. -/
def boot (max_count initial_count : SemaphoreId → Nat) : Unmasked where
  system := Rpitos.boot max_count initial_count
  creating _ _ := none

/-- No `task_create` is in progress, neither executed nor preempted. -/
def quiet (X : Unmasked) : Prop := ∀ c o, X.creating c o = none

instance (X : Unmasked) : Decidable X.quiet := inferInstanceAs (Decidable (∀ _ _, _ = _))

/-- No interrupt falls into a `task_create` of its core. -/
def uninterrupted (X : Unmasked) : UnmaskedAction → Prop
  | .section a => ∀ c, a.interrupts c = true → X.current c = none
  | _ => True

instance (X : Unmasked) (a : UnmaskedAction) : Decidable (X.uninterrupted a) := by
  unfold uninterrupted; split <;> infer_instance

end Unmasked

/-! ## The whole call -/

/-- From `pc` on, with nothing in between, the call returns with the kernel `K'`. -/
inductive CreateReturns (c : CoreId) (n : NewTask) : CreatePc → Kernel Links → Kernel Links → Prop
  | last {pc : CreatePc} {K K' : Kernel Links} :
      pc.exec c n K = (none, K') → CreateReturns c n pc K K'
  | more {pc pc' : CreatePc} {K K₁ K' : Kernel Links} :
      pc.exec c n K = (some pc', K₁) → CreateReturns c n pc' K₁ K' → CreateReturns c n pc K K'

section Call

/-- The header of the list once the new end is linked. -/
def append_end (h : Links) (list : ListRef) (item : ItemRef) : Links :=
  let h₁ := h.linkNext list (h.list_end list) (some item)
  { h₁ with
    index := match h.list_end list with
      | some _ => h₁.index
      | none => update h₁.index list (some item)
    list_end := update h₁.list_end list (some item) }.incr list

theorem pushBackIndexed_eq (h : Links) (list : ListRef) (item : ItemRef) :
    h.pushBackIndexed list item =
      append_end (h.setLinks item none (h.list_end list) (some list)) list item := by
  unfold Heap.pushBackIndexed Heap.pushBack append_end Heap.setLinks
  dsimp only
  cases h.list_end list <;> rfl

/-- The append from the link on. -/
theorem link_returns (c : CoreId) (n : NewTask) (list : ListRef) (K : Kernel Links) :
    CreateReturns c n (.append list .link) K
      { K with lists := append_end K.lists list (.state_list_item n.tcb)
               current_state := update K.current_state n.tcb .READY } := by
  unfold append_end
  cases hl : K.lists.list_end list with
  | none =>
    have hexec : (CreatePc.append list .link).exec c n K = (some (.append list .index),
        { K with lists.head := update K.lists.head list (some (.state_list_item n.tcb)) }) := by
      unfold CreatePc.exec AppendPc.exec
      dsimp only
      rw [hl]
      rfl
    exact .more hexec (.more rfl (.more rfl (.more rfl (.last rfl))))
  | some last =>
    have hexec : (CreatePc.append list .link).exec c n K = (some (.append list .list_end),
        { K with lists.next := update K.lists.next last (some (.state_list_item n.tcb)) }) := by
      unfold CreatePc.exec AppendPc.exec
      dsimp only
      rw [hl]
      rfl
    exact .more hexec (.more rfl (.more rfl (.last rfl)))

/-- The statements of the append are `scheduler_add_to_ready_list`. -/
theorem append_returns (c : CoreId) (n : NewTask) (K : Kernel Links) :
    CreateReturns c n (.append (.ready_list (K.core_id n.tcb) (K.priority n.tcb)) .container) K
      (scheduler_add_to_ready_list K n.tcb).2 := by
  have hpush : (scheduler_add_to_ready_list K n.tcb).2 =
      { K with
        lists := K.lists.pushBackIndexed (.ready_list (K.core_id n.tcb) (K.priority n.tcb))
          (.state_list_item n.tcb)
        current_state := update K.current_state n.tcb .READY } := rfl
  rw [hpush, pushBackIndexed_eq]
  exact .more rfl (.more rfl (.more rfl (link_returns c n _ _)))

/-- The statements of a call are `task_create`. -/
theorem task_create_returns {c : CoreId} {K : Kernel Links} (h : K.task_counter c < MAX_NUM_TASKS)
    (stack_depth priority : Nat) :
    CreateReturns c ⟨.pool c ⟨K.task_counter c, h⟩, stack_depth, clamp_priority priority⟩
      .heap_malloc K (task_create K c stack_depth priority).2.2 := by
  unfold task_create
  rw [dif_pos h]
  cases hm : heap_malloc K.heap_offset (4 * stack_depth) with
  | mk block heap_offset =>
    cases block with
    | none =>
      refine .last ?_
      unfold CreatePc.exec
      dsimp only
      rw [hm]
    | some block =>
      have hexec : CreatePc.heap_malloc.exec c
          ⟨.pool c ⟨K.task_counter c, h⟩, stack_depth, clamp_priority priority⟩ K =
            (some .watermark, { K with
              heap_offset := heap_offset
              stack_depth := update K.stack_depth (.pool c ⟨K.task_counter c, h⟩) stack_depth }) := by
        unfold CreatePc.exec
        dsimp only
        rw [hm]
      exact .more hexec
        (.more rfl (.more rfl (.more rfl (.more rfl (.more rfl (append_returns c _ _))))))

end Call

/-! ## Runs -/

theorem AppendPc.exec_current (tcb : Tcb) (list : ListRef) (K : Kernel Links) (pc : AppendPc) :
    (pc.exec tcb list K).2.p_task_control_block = K.p_task_control_block := by
  cases pc with
  | link =>
    unfold exec
    dsimp only
    cases K.lists.list_end list <;> rfl
  | _ => rfl

theorem CreatePc.exec_current (c : CoreId) (n : NewTask) (K : Kernel Links) (pc : CreatePc) :
    (pc.exec c n K).2.p_task_control_block = K.p_task_control_block := by
  cases pc with
  | heap_malloc =>
    unfold exec
    dsimp only
    split <;> rfl
  | append list pc => exact AppendPc.exec_current n.tcb list K pc
  | _ => rfl

namespace Unmasked

variable {X : Unmasked} {c d : CoreId} {np : NewTask × CreatePc}

/-- The call `np`, which core `c` executes, is the only one in progress. -/
def only (X : Unmasked) (c : CoreId) (np : NewTask × CreatePc) : Prop :=
  X.creating = update (fun _ _ => none) c
    (update (fun _ => none) (X.system.kernel.p_task_control_block c) (some np))

theorem only.current (h : X.only c np) : X.current d = if d = c then some np else none := by
  unfold Unmasked.current
  rw [h]
  by_cases hd : d = c
  · subst hd
    rw [update_self, update_self, if_pos rfl]
  · rw [update_of_ne hd, if_neg hd]

theorem only.current_self (h : X.only c np) : X.current c = some np := by
  rw [h.current, if_pos rfl]

theorem only_set_of_quiet (hq : X.quiet) : (X.set X.system.kernel c (some np)).only c np := by
  show update X.creating c (update (X.creating c) _ _) = _
  rw [show X.creating = fun _ _ => none from funext₂ hq]
  rfl

theorem only.set (h : X.only c np) {K : Kernel Links} {np' : NewTask × CreatePc}
    (hcurrent : K.p_task_control_block c = X.system.kernel.p_task_control_block c) :
    (X.set K c (some np')).only c np' := by
  show update X.creating c (update (X.creating c) _ _) = _
  rw [h, update_self, update_idem, update_idem]
  exact congrArg (fun o => update (fun _ _ => none) c (update (fun _ => none) o _)) hcurrent.symm

theorem only.quiet (h : X.only c np) (K : Kernel Links) : (X.set K c none).quiet := by
  intro d o
  show update X.creating c (update (X.creating c) _ none) d o = none
  rw [h, update_self, update_idem, update_idem, update_eq_self_iff.mpr rfl,
    update_eq_self_iff.mpr rfl]

end Unmasked

/-- No call is in progress, or one, which its core executes: it has begun in a state of `System`, and
what is left of it makes of the kernel what the whole `task_create` would have. -/
inductive Whole (max_count initial_count : SemaphoreId → Nat) (X : Unmasked) : Prop
  | between {h : List Event} (hr : Run anyStep (boot max_count initial_count) h X.system)
      (hq : X.quiet) : Whole max_count initial_count X
  | calling {h : List Event} {S : System Links} {c : CoreId} {n : NewTask} {pc : CreatePc}
      {stack_depth priority : Nat} (hr : Run anyStep (boot max_count initial_count) h S)
      (hi : S.kernel.initialised c = true) (hcall : X.system.call = S.call)
      (hc : X.only c (n, pc))
      (hret : CreateReturns c n pc X.system.kernel
        (task_create S.kernel c stack_depth priority).2.2) : Whole max_count initial_count X

namespace Whole

variable {max_count initial_count : SemaphoreId → Nat} {X X' : Unmasked} {a : UnmaskedAction}

theorem step_between {h : List Event}
    (hr : Run anyStep (Rpitos.boot max_count initial_count) h X.system) (hq : X.quiet)
    (hstep : X.step a = some X') : Whole max_count initial_count X' := by
  unfold Unmasked.step at hstep
  cases a with
  | «section» a =>
    obtain ⟨-, hstep⟩ := Option.ite_none_right_eq_some.mp hstep
    cases hs : X.system.step a with
    | none => rw [hs] at hstep; cases hstep
    | some r =>
      rw [hs] at hstep; cases hstep
      exact .between (hr.step trivial hs) hq
  | task_create c stack_depth priority =>
    obtain ⟨⟨hi, -, -⟩, hstep⟩ := Option.ite_none_right_eq_some.mp hstep
    dsimp only at hstep
    split at hstep
    · rename_i h
      cases hstep
      exact .calling hr hi rfl (Unmasked.only_set_of_quiet hq)
        (task_create_returns h stack_depth priority)
    · obtain ⟨-, hstep⟩ := Option.ite_none_right_eq_some.mp hstep
      cases hstep
      exact .between hr hq
  | proceed c =>
    obtain ⟨-, hstep⟩ := Option.ite_none_right_eq_some.mp hstep
    rw [show X.current c = none from hq c _] at hstep
    cases hstep

/-- The next statement of the call: its last one makes the step of `System` complete. -/
theorem proceed {h : List Event} {S : System Links} {c : CoreId} {n : NewTask} {pc : CreatePc}
    {stack_depth priority : Nat} (hr : Run anyStep (Rpitos.boot max_count initial_count) h S)
    (hi : S.kernel.initialised c = true) (hcall : X.system.call = S.call) (hc : X.only c (n, pc))
    (hret : CreateReturns c n pc X.system.kernel
      (task_create S.kernel c stack_depth priority).2.2) :
    Whole max_count initial_count (X.set (pc.exec c n X.system.kernel).2 c
      ((pc.exec c n X.system.kernel).1.map fun pc => (n, pc))) := by
  cases hret with
  | last hexec =>
    rw [hexec]
    have hsys : X.system.withKernel (task_create S.kernel c stack_depth priority).2.2 =
        S.withKernel (task_create S.kernel c stack_depth priority).2.2 := by
      unfold System.withKernel
      rw [hcall]
    have hrun := hr.step (a := .task_create c stack_depth priority) trivial (if_pos hi)
    exact .between (hsys.symm ▸ hrun) (hc.quiet _)
  | more hexec hret =>
    have hcurrent := congrFun (CreatePc.exec_current c n X.system.kernel pc) c
    rw [hexec] at hcurrent ⊢
    exact .calling hr hi hcall (hc.set hcurrent) hret

theorem step (hw : Whole max_count initial_count X) (ha : X.uninterrupted a)
    (hstep : X.step a = some X') : Whole max_count initial_count X' := by
  cases hw with
  | between hr hq => exact step_between hr hq hstep
  | @calling h S c n pc _ _ hr hi hcall hc hret =>
    unfold Unmasked.step at hstep
    cases a with
    | «section» a =>
      obtain ⟨⟨-, hinterrupts⟩, -⟩ := Option.ite_none_right_eq_some.mp hstep
      have hinterrupt := hinterrupts c (by rw [hc.current_self]; rfl)
      -- only an interrupt of the core could come in between, and none does
      have hnone : X.current c = none := ha c hinterrupt
      rw [hc.current_self] at hnone
      cases hnone
    | task_create d stack_depth priority =>
      obtain ⟨⟨-, -, hn⟩, -⟩ := Option.ite_none_right_eq_some.mp hstep
      have hnone := hn c
      rw [hc.current_self] at hnone
      cases hnone
    | proceed d =>
      obtain ⟨-, hstep⟩ := Option.ite_none_right_eq_some.mp hstep
      rw [hc.current] at hstep
      by_cases hd : d = c
      · subst hd
        rw [if_pos rfl] at hstep
        cases hstep
        exact proceed hr hi hcall hc hret
      · rw [if_neg hd] at hstep
        cases hstep

theorem reach (hr : Reach Unmasked.step Unmasked.uninterrupted
    (Unmasked.boot max_count initial_count) X) : Whole max_count initial_count X :=
  hr.invariant (.between .start fun _ _ => rfl) fun _ _ _ hw ha hstep => hw.step ha hstep

end Whole

/-- As long as no interrupt falls into a `task_create` of its core, the kernel's lists are well
formed and hold exactly the tasks they should, whenever no call is in progress. -/
theorem kernel_lists_uninterrupted {max_count initial_count : SemaphoreId → Nat} {X : Unmasked}
    (hr : Reach Unmasked.step Unmasked.uninterrupted (Unmasked.boot max_count initial_count) X)
    (hq : X.quiet) : ∃ A, KernelLists X.system A := by
  cases Whole.reach hr with
  | between hrun _ => exact kernel_lists hrun
  | @calling _ _ c n pc _ _ _ _ _ hc _ =>
    have hsome := hc.current_self
    rw [show X.current c = none from hq c _] at hsome
    cases hsome

/-- `task_create` on core 0, and so many of its statements. -/
def creates (priority statements : Nat) : List UnmaskedAction :=
  .task_create 0 100 priority :: List.replicate statements (.proceed 0)

/-- Two tasks of core 0: one waits for a semaphore, then the other creates a third one, which locks a
mutex behind the next tick. -/
def third_task : List UnmaskedAction :=
  [.section (.scheduler_init 0)] ++ creates 2 14 ++ creates 2 13 ++
    [.section (.scheduler_start 0), .section (.semaphore_take (.pool 0 0) 3 5),
      .section (.proceed (.pool 0 0)), .section (.tick 0 [])] ++ creates 2 13 ++
    [.section (.tick 0 []), .section (.mutex_lock (.pool 0 2) 0 7)]

theorem kernel_lists_uninterrupted_third_task : ∃ X,
    execute Unmasked.step Unmasked.uninterrupted (Unmasked.boot (fun _ => 1) (fun _ => 0))
      third_task = some X ∧
    X.system.kernel.lists.num_items (.ready_list 0 2) = 2 ∧ ∃ A, KernelLists X.system A := by
  have hrun : (execute Unmasked.step Unmasked.uninterrupted
      (Unmasked.boot (fun _ => 1) (fun _ => 0)) third_task).map (fun X =>
        (decide X.quiet, X.system.kernel.lists.num_items (.ready_list 0 2))) = some (true, 2) := by
    decide +kernel
  obtain ⟨X, hX, h⟩ := Option.map_eq_some_iff.mp hrun
  exact ⟨X, hX, congrArg Prod.snd h, kernel_lists_uninterrupted (Reach.of_exec _ .start hX)
    (of_decide_eq_true (congrArg Prod.fst h))⟩

/-- The first task delays for two ticks, and the second one is in the append of a third when they
are over: the tick falls between the link and the store of `list_end`. -/
def tick_in_append : List UnmaskedAction :=
  [.section (.scheduler_init 0)] ++ creates 2 14 ++ creates 2 13 ++
    [.section (.scheduler_start 0), .section (.task_delay_ms (.pool 0 0) 2),
      .section (.proceed (.pool 0 0)), .section (.tick 0 [])] ++ creates 2 10 ++
    [.section (.tick 0 []), .section (.tick 0 []), .proceed 0, .proceed 0, .proceed 0]

/-- The woken task takes the place of the new one, which is READY and counted, and in no list. -/
theorem tick_in_task_create : ¬ ∀ X, Reach Unmasked.step anything
    (Unmasked.boot (fun _ => 1) (fun _ => 0)) X → X.quiet → ∃ A, KernelLists X.system A := by
  intro hall
  have hrun : (execute Unmasked.step anything (Unmasked.boot (fun _ => 1) (fun _ => 0))
      tick_in_append).map (fun X => (decide X.quiet,
        let h := X.system.kernel.lists
        (h.num_items (.ready_list 0 2), h.head (.ready_list 0 2),
          h.next (.state_list_item (.pool 0 1)), h.next (.state_list_item (.pool 0 0))))) =
      some (true, 3, some (.state_list_item (.pool 0 1)), some (.state_list_item (.pool 0 0)),
        none) := by
    decide +kernel
  obtain ⟨X, hX, h⟩ := Option.map_eq_some_iff.mp hrun
  simp only [Prod.mk.injEq, decide_eq_true_eq] at h
  obtain ⟨hq, hnum, hhead, hnext, hlast⟩ := h
  obtain ⟨A, hA⟩ := hall X (Reach.of_exec _ .start hX) hq
  have hl := hA.well_formed (.ready_list 0 2)
  have hlen := (hA.num_items (.ready_list 0 2)).symm.trans hnum
  obtain ⟨x, y, z, hxs⟩ := List.length_eq_three.mp hlen
  rw [hxs] at hl
  -- the chain from the head ends at its second task
  have hx : some x = some (.state_list_item (.pool 0 1)) := hl.head_eq.symm.trans hhead
  obtain ⟨-, hxy, -, hyz, -⟩ := hl.seg
  rw [Option.some.inj hx, hnext] at hxy
  rw [← Option.some.inj hxy, hlast] at hyz
  cases hyz

end Rpitos
