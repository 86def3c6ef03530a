import Rpitos.Kernel.ContextSwitch
import Rpitos.Kernel.System

/-!
# Kernel.TaskCreate

The stacks of `task_create`: the words of the kernel heap and the stack pointers of the TCBs, beside
the kernel data of `Kernel.Scheduler`. The heap is a static array at the address `heap`.

`task_create_stacks`: over every sequence of calls, the frames stay inside their stacks exactly when
no stack is created with fewer than 17 words. `stacks_stay`: then every watermark and every frame is
still there at the end.
-/

namespace Rpitos

open Function (update update_self update_of_ne)
open StatusCode

/-- The arguments of `task_create`, and the core that calls it. -/
structure CreateCall where
  core_id : CoreId
  task_function : UInt32
  stack_depth : UInt16
  priority : Nat
  task_params : UInt32

/-- The kernel with the words in memory and, of each TCB, the pointers to its stack. -/
structure TaskMemory (L : Type) where
  kernel : Kernel L
  mem : WordMem
  stack_base : Tcb → UInt32
  stack_high : Tcb → UInt32
  current_sp : Tcb → UInt32

/-- r0-r12, lr, pc and the status word. -/
def FRAME_WORDS : Nat := 16

variable {L : Type} [ListOps L ItemRef ListRef]

namespace TaskMemory

section Create

variable (heap task_exit_trap : UInt32)

/-- `task_create`. What it makes of the kernel's data is `Kernel.Scheduler`'s `task_create`. -/
def task_create (X : TaskMemory L) (a : CreateCall) : StatusCode × TaskMemory L :=
  let K := X.kernel
  if h : K.task_counter a.core_id < MAX_NUM_TASKS then
    let tcb := Tcb.pool a.core_id ⟨K.task_counter a.core_id, h⟩
    let r := Rpitos.task_create K a.core_id a.stack_depth.toNat a.priority
    match (heap_malloc K.heap_offset (4 * a.stack_depth.toNat)).1 with
    | none => (r.1, { X with kernel := r.2.2, stack_base := update X.stack_base tcb 0 })
    | some block =>
      let stack_base := heap + UInt32.ofNat block
      -- `for (i = 0; i < stack_depth; i++) stack_base[i] = TASK_WATERMARK`
      let mem := store_words X.mem stack_base
        (List.replicate a.stack_depth.toNat (UInt32.ofNat TASK_WATERMARK))
      let stack_high := cell stack_base a.stack_depth.toNat - 4
      let stack := task_init_stack task_exit_trap mem stack_high a.task_function a.task_params
      (r.1,
        { kernel := r.2.2
          mem := stack.1
          stack_base := update X.stack_base tcb stack_base
          stack_high := update X.stack_high tcb stack_high
          current_sp := update X.current_sp tcb stack.2 })
  else (E_RESOURCE_EXHAUSTED, X)

/-- The calls one after the other, each with the state it finds. -/
def created (X : TaskMemory L) : List CreateCall → List (TaskMemory L × CreateCall)
  | [] => []
  | a :: calls => (X, a) :: created (X.task_create heap task_exit_trap a).2 calls

/-- The state after the calls. -/
def creates (X : TaskMemory L) (calls : List CreateCall) : TaskMemory L :=
  calls.foldl (fun X a => (X.task_create heap task_exit_trap a).2) X

end Create

/-- The data of a task are as before. -/
structure SameTask (X X' : TaskMemory L) (t : Tcb) : Prop where
  stack_base : X'.stack_base t = X.stack_base t
  stack_high : X'.stack_high t = X.stack_high t
  current_sp : X'.current_sp t = X.current_sp t
  stack_base0 : X'.kernel.stack_base0 t = X.kernel.stack_base0 t
  task_id : X'.kernel.task_id t = X.kernel.task_id t
  core_id : X'.kernel.core_id t = X.kernel.core_id t
  current_state : X'.kernel.current_state t = X.kernel.current_state t
  priority : X'.kernel.priority t = X.kernel.priority t
  base_priority : X'.kernel.base_priority t = X.kernel.base_priority t
  mutexes_held : X'.kernel.mutexes_held t = X.kernel.mutexes_held t
  wakeup_time : X'.kernel.wakeup_time t = X.kernel.wakeup_time t
  wakeup_reason : X'.kernel.wakeup_reason t = X.kernel.wakeup_reason t

/-- The stack of a new task, with `depth` words: a call has written only there, the watermark is on
its lowest word, and the frame at its upper end begins above that word. -/
structure StackMade (heap task_exit_trap : UInt32) (X X' : TaskMemory L) (tcb : Tcb)
    (a : CreateCall) : Prop where
  inside : ∀ x, (∀ i < a.stack_depth.toNat, x ≠ cell (X'.stack_base tcb) i) → X'.mem x = X.mem x
  /-- What was allocated before lies below `heap_offset`. -/
  earlier : ∀ x, x.toNat < heap.toNat + X.kernel.heap_offset → X'.mem x = X.mem x
  tasks : ∀ t, t ≠ tcb → SameTask X X' t
  watermark : X'.mem (X'.stack_base tcb) = UInt32.ofNat TASK_WATERMARK
  high : (X'.stack_high tcb).toNat + 4 = (X'.stack_base tcb).toNat + 4 * a.stack_depth.toNat
  frame : (X'.current_sp tcb).toNat + 4 * (FRAME_WORDS - 1) = (X'.stack_high tcb).toNat
  above : (X'.stack_base tcb).toNat < (X'.current_sp tcb).toNat
  holds : HoldsWords X'.mem (X'.current_sp tcb) (first_context (X'.stack_high tcb) a.task_function
    task_exit_trap a.task_params).frame

/-- The call has made a stack for the next task of the core's pool. -/
def Made (heap task_exit_trap : UInt32) (X : TaskMemory L) (a : CreateCall) : Prop :=
  ∃ h : X.kernel.task_counter a.core_id < MAX_NUM_TASKS,
    StackMade heap task_exit_trap X (X.task_create heap task_exit_trap a).2
      (.pool a.core_id ⟨X.kernel.task_counter a.core_id, h⟩) a

/-! ## One call -/

section Call

variable {heap task_exit_trap : UInt32} {X : TaskMemory L} {a : CreateCall}

/-- The memory and the pointers after a call that has found room. -/
def placed (heap task_exit_trap : UInt32) (X : TaskMemory L) (a : CreateCall) (tcb : Tcb) :
    TaskMemory L :=
  let stack_base := heap + UInt32.ofNat X.kernel.heap_offset
  let mem := store_words X.mem stack_base
    (List.replicate a.stack_depth.toNat (UInt32.ofNat TASK_WATERMARK))
  let stack_high := cell stack_base a.stack_depth.toNat - 4
  let stack := task_init_stack task_exit_trap mem stack_high a.task_function a.task_params
  { kernel := (Rpitos.task_create X.kernel a.core_id a.stack_depth.toNat a.priority).2.2
    mem := stack.1
    stack_base := update X.stack_base tcb stack_base
    stack_high := update X.stack_high tcb stack_high
    current_sp := update X.current_sp tcb stack.2 }

/-- A call either has found room in the pool and in the heap, or leaves the memory alone. -/
theorem task_create_cases (heap task_exit_trap : UInt32) (X : TaskMemory L) (a : CreateCall) :
    (∃ h : X.kernel.task_counter a.core_id < MAX_NUM_TASKS,
      (heap_malloc X.kernel.heap_offset (4 * a.stack_depth.toNat)).1 = some X.kernel.heap_offset ∧
      (X.task_create heap task_exit_trap a) = (E_OK, placed heap task_exit_trap X a
        (.pool a.core_id ⟨X.kernel.task_counter a.core_id, h⟩))) ∨
    (X.task_create heap task_exit_trap a).1 ≠ E_OK ∧
      (X.task_create heap task_exit_trap a).2.mem = X.mem ∧
      (X.task_create heap task_exit_trap a).2.kernel.heap_offset = X.kernel.heap_offset := by
  unfold placed task_create Rpitos.task_create
  by_cases h : X.kernel.task_counter a.core_id < MAX_NUM_TASKS
  · dsimp only
    rw [dif_pos h, dif_pos h]
    cases hm : heap_malloc X.kernel.heap_offset (4 * a.stack_depth.toNat) with
    | mk block heap_offset =>
      cases block with
      | none => exact .inr ⟨nofun, rfl, rfl⟩
      | some block =>
        have hblock : block = X.kernel.heap_offset := by
          unfold heap_malloc at hm
          dsimp only at hm
          split at hm
          · cases hm
          · cases hm
            rfl
        subst hblock
        exact .inl ⟨h, rfl, rfl⟩
  · dsimp only
    rw [dif_neg h]
    exact .inr ⟨nofun, rfl, rfl⟩

/-- The words that a call stores: watermarks over the whole stack, then the frame from `stack_high`
down. -/
theorem placed_stored (heap task_exit_trap : UInt32) (X : TaskMemory L) (a : CreateCall) (tcb : Tcb) :
    let X' := placed heap task_exit_trap X a tcb
    X'.current_sp tcb = X'.stack_high tcb - 60 ∧
      ∃ mem, StoredWords X.mem mem (X'.stack_base tcb)
          (List.replicate a.stack_depth.toNat (UInt32.ofNat TASK_WATERMARK)) ∧
        StoredWords mem X'.mem (X'.current_sp tcb)
          (first_context (X'.stack_high tcb) a.task_function task_exit_trap a.task_params).frame := by
  intro X'
  have hdepth := a.stack_depth.toNat_lt
  have hbase : X'.stack_base tcb = heap + UInt32.ofNat X.kernel.heap_offset := update_self ..
  have hhigh : X'.stack_high tcb = cell (X'.stack_base tcb) a.stack_depth.toNat - 4 := by
    rw [hbase]
    exact update_self ..
  have hfill := store_words_stored X.mem (X'.stack_base tcb)
    (List.replicate a.stack_depth.toNat (UInt32.ofNat TASK_WATERMARK))
    (by rw [List.length_replicate]; omega)
  obtain ⟨hsp, hframe⟩ := init_frame_stored (store_words X.mem (X'.stack_base tcb)
    (List.replicate a.stack_depth.toNat (UInt32.ofNat TASK_WATERMARK))) (X'.stack_high tcb)
    a.task_function task_exit_trap a.task_params
  have hcur : X'.current_sp tcb = X'.stack_high tcb - 60 := by
    rw [hhigh, hbase] at hsp ⊢
    exact (update_self ..).trans hsp
  refine ⟨hcur, _, hfill, ?_⟩
  rw [hcur]
  rw [hhigh, hbase] at hframe ⊢
  exact hframe

/-- A call touches the data of the new task only. -/
theorem placed_same (heap task_exit_trap : UInt32) (X : TaskMemory L) (a : CreateCall)
    (h : X.kernel.task_counter a.core_id < MAX_NUM_TASKS) {t : Tcb}
    (ht : t ≠ .pool a.core_id ⟨X.kernel.task_counter a.core_id, h⟩) :
    SameTask X (placed heap task_exit_trap X a
      (.pool a.core_id ⟨X.kernel.task_counter a.core_id, h⟩)) t := by
  unfold placed Rpitos.task_create
  rw [dif_pos h]
  dsimp only
  split
  all_goals
    refine ⟨update_of_ne ht .., update_of_ne ht .., update_of_ne ht .., ?_, ?_, ?_, ?_, ?_, ?_, ?_, ?_, ?_⟩
    all_goals simp only [scheduler_add_to_ready_list, update_of_ne ht]

/-- Where the heap is, and where a call finds `heap_offset`. -/
structure HeapPlaced (heap : UInt32) (heap_offset : Nat) : Prop where
  array : heap.toNat + HEAP_SIZE_BYTES < 2 ^ 32
  aligned : heap_offset % 4 = 0
  bound : heap_offset ≤ HEAP_SIZE_BYTES

variable (task_exit_trap) in
/-- What a call that has found room does to the counters, and the watermark of the new task. -/
theorem placed_kernel (h : X.kernel.task_counter a.core_id < MAX_NUM_TASKS)
    (hblock : (heap_malloc X.kernel.heap_offset (4 * a.stack_depth.toNat)).1 =
      some X.kernel.heap_offset) (tcb : Tcb) :
    (placed heap task_exit_trap X a tcb).kernel.heap_offset =
        (heap_malloc X.kernel.heap_offset (4 * a.stack_depth.toNat)).2 ∧
      (placed heap task_exit_trap X a tcb).kernel.task_counter a.core_id =
        X.kernel.task_counter a.core_id + 1 ∧
      (placed heap task_exit_trap X a tcb).kernel.stack_base0
        (.pool a.core_id ⟨X.kernel.task_counter a.core_id, h⟩) = some TASK_WATERMARK := by
  unfold placed Rpitos.task_create
  rw [dif_pos h]
  dsimp only
  cases hm : heap_malloc X.kernel.heap_offset (4 * a.stack_depth.toNat) with
  | mk block heap_offset =>
    rw [hm] at hblock
    obtain rfl : block = _ := hblock
    exact ⟨rfl, update_self .., update_self ..⟩

theorem HeapPlaced.next (h : HeapPlaced heap X.kernel.heap_offset) :
    HeapPlaced heap (X.task_create heap task_exit_trap a).2.kernel.heap_offset := by
  obtain ⟨haligned, hbound⟩ := heap_offset_bound h.aligned h.bound (4 * a.stack_depth.toNat)
  obtain ⟨hcount, hblock, heq⟩ | ⟨-, -, hsame⟩ := task_create_cases heap task_exit_trap X a
  · rw [heq]
    dsimp only
    rw [(placed_kernel task_exit_trap hcount hblock _).1]
    exact ⟨h.array, haligned, hbound⟩
  · rw [hsame]
    exact h

section Placed

variable (hplaced : HeapPlaced heap X.kernel.heap_offset)
  (hblock : (heap_malloc X.kernel.heap_offset (4 * a.stack_depth.toNat)).1 = some X.kernel.heap_offset)
include hplaced hblock

omit [ListOps L ItemRef ListRef] in
/-- The block is inside the array, and `heap_offset` moves behind it. -/
theorem block_inside :
    X.kernel.heap_offset + 4 * a.stack_depth.toNat ≤
        (heap_malloc X.kernel.heap_offset (4 * a.stack_depth.toNat)).2 ∧
      (heap_malloc X.kernel.heap_offset (4 * a.stack_depth.toNat)).2 ≤ HEAP_SIZE_BYTES := by
  have hdepth := a.stack_depth.toNat_lt
  have hbound := hplaced.bound
  unfold HEAP_SIZE_BYTES at hbound
  obtain h | ⟨h, hsize, hle⟩ := @heap_malloc_cases X.kernel.heap_offset
    (4 * a.stack_depth.toNat) (by omega)
  · rw [h] at hblock
    cases hblock
  · rw [h]
    dsimp only
    omega

variable (task_exit_trap) in
theorem placed_base (tcb : Tcb) :
    ((placed heap task_exit_trap X a tcb).stack_base tcb).toNat =
      heap.toNat + X.kernel.heap_offset := by
  obtain ⟨hend, hin⟩ := block_inside hplaced hblock
  have harray := hplaced.array
  have hbase : (placed heap task_exit_trap X a tcb).stack_base tcb =
      heap + UInt32.ofNat X.kernel.heap_offset := update_self ..
  unfold HEAP_SIZE_BYTES at hin harray
  rw [hbase, UInt32.toNat_add, UInt32.toNat_ofNat']
  omega

variable (task_exit_trap) in
theorem placed_high (tcb : Tcb) (hdepth : 0 < a.stack_depth.toNat) :
    ((placed heap task_exit_trap X a tcb).stack_high tcb).toNat + 4 =
      heap.toNat + X.kernel.heap_offset + 4 * a.stack_depth.toNat := by
  obtain ⟨hend, hin⟩ := block_inside hplaced hblock
  have harray := hplaced.array
  have hhigh : (placed heap task_exit_trap X a tcb).stack_high tcb =
      heap + UInt32.ofNat X.kernel.heap_offset + UInt32.ofNat (4 * a.stack_depth.toNat) - 4 :=
    update_self ..
  unfold HEAP_SIZE_BYTES at hin harray
  have hsum : (heap + UInt32.ofNat X.kernel.heap_offset +
      UInt32.ofNat (4 * a.stack_depth.toNat)).toNat =
      heap.toNat + X.kernel.heap_offset + 4 * a.stack_depth.toNat := by
    rw [UInt32.toNat_add, UInt32.toNat_add, UInt32.toNat_ofNat', UInt32.toNat_ofNat']
    omega
  rw [hhigh, UInt32.toNat_sub_of_le _ _ (UInt32.le_iff_toNat_le.mpr ?_), hsum]
  · show _ - 4 + 4 = _
    omega
  · rw [hsum]
    show 4 ≤ _
    omega

variable (task_exit_trap) in
/-- With 16 words or more the frame fits between its stack's ends. -/
theorem placed_sp (tcb : Tcb) (hdepth : 16 ≤ a.stack_depth.toNat) :
    (placed heap task_exit_trap X a tcb).current_sp tcb =
      cell ((placed heap task_exit_trap X a tcb).stack_base tcb) (a.stack_depth.toNat - 16) := by
  obtain ⟨hend, hin⟩ := block_inside hplaced hblock
  have harray := hplaced.array
  have hbase := placed_base task_exit_trap hplaced hblock tcb
  have hhigh := placed_high task_exit_trap hplaced hblock tcb (by omega)
  unfold HEAP_SIZE_BYTES at hin harray
  obtain ⟨hsp, -⟩ := placed_stored heap task_exit_trap X a tcb
  apply UInt32.toNat_inj.mp
  rw [hsp, UInt32.toNat_sub_of_le _ _ (UInt32.le_iff_toNat_le.mpr ?_), cell, UInt32.toNat_add,
    UInt32.toNat_ofNat', hbase]
  · show _ - 60 = _
    omega
  · show 60 ≤ _
    omega

variable (task_exit_trap) in
/-- With 17 words or more the stack is what the call promises. -/
theorem stack_made (h : X.kernel.task_counter a.core_id < MAX_NUM_TASKS)
    (hdepth : 17 ≤ a.stack_depth.toNat) :
    StackMade heap task_exit_trap X (placed heap task_exit_trap X a
      (.pool a.core_id ⟨X.kernel.task_counter a.core_id, h⟩))
      (.pool a.core_id ⟨X.kernel.task_counter a.core_id, h⟩) a := by
  generalize htcb : Tcb.pool a.core_id ⟨X.kernel.task_counter a.core_id, h⟩ = tcb
  have hlt := a.stack_depth.toNat_lt
  obtain ⟨hend, hin⟩ := block_inside hplaced hblock
  have harray := hplaced.array
  have hbase := placed_base task_exit_trap hplaced hblock tcb
  have hhigh := placed_high task_exit_trap hplaced hblock tcb (by omega)
  have hcell := placed_sp task_exit_trap hplaced hblock tcb (by omega)
  obtain ⟨hsp, mem, hfill, hframe⟩ := placed_stored heap task_exit_trap X a tcb
  unfold HEAP_SIZE_BYTES at hin harray
  have hspn : ((placed heap task_exit_trap X a tcb).current_sp tcb).toNat + 60 =
      ((placed heap task_exit_trap X a tcb).stack_high tcb).toNat := by
    rw [hsp, UInt32.toNat_sub_of_le _ _ (UInt32.le_iff_toNat_le.mpr ?_)]
    · show _ - 60 + 60 = _
      omega
    · show 60 ≤ _
      omega
  -- the words of the frame are the last 16 of the stack
  have hwords : ∀ i < 16, cell ((placed heap task_exit_trap X a tcb).current_sp tcb) i =
      cell ((placed heap task_exit_trap X a tcb).stack_base tcb) (a.stack_depth.toNat - 16 + i) := by
    intro i _
    rw [hcell, cell_add]
  have hinside : ∀ x, (∀ i < a.stack_depth.toNat,
      x ≠ cell ((placed heap task_exit_trap X a tcb).stack_base tcb) i) →
      (placed heap task_exit_trap X a tcb).mem x = X.mem x := by
    intro x hx
    rw [hframe.other x fun i hi => ?_, hfill.other x fun i hi => ?_]
    · rw [List.length_replicate] at hi
      exact hx i hi
    · rw [frame_length] at hi
      rw [hwords i hi]
      exact hx _ (by omega)
  refine ⟨hinside, fun x hx => hinside x fun i hi heq => ?_, ?_, ?_, ?_, hspn, by omega,
    hframe.holds⟩
  · -- a word of the stack lies behind what has been allocated
    rw [heq, cell, UInt32.toNat_add, UInt32.toNat_ofNat', hbase] at hx
    omega
  · intro t ht
    subst htcb
    exact placed_same heap task_exit_trap X a h ht
  · -- the frame leaves the lowest word alone
    have hlow := hfill.holds 0 (by rw [List.length_replicate]; omega)
    rw [cell_zero, List.getElem_replicate] at hlow
    rw [hframe.other _ fun i hi heq => ?_, hlow]
    rw [frame_length] at hi
    rw [hwords i hi] at heq
    have := cell_injective (by omega) (by omega) ((cell_zero _).trans heq)
    omega
  · rw [hbase]
    exact hhigh

end Placed

omit [ListOps L ItemRef ListRef] in
/-- A stack with its frame above the lowest word has at least 17 words. -/
theorem StackMade.depth {X' : TaskMemory L} {tcb : Tcb}
    (h : StackMade heap task_exit_trap X X' tcb a) : 17 ≤ a.stack_depth.toNat := by
  have hframe := h.frame
  have hhigh := h.high
  have habove := h.above
  unfold FRAME_WORDS at hframe
  omega

/-- A call that succeeds makes its stack as it should exactly when it is asked for 17 words or
more. -/
theorem made_iff (hplaced : HeapPlaced heap X.kernel.heap_offset)
    (hok : (X.task_create heap task_exit_trap a).1 = E_OK) :
    Made heap task_exit_trap X a ↔ 17 ≤ a.stack_depth.toNat := by
  constructor
  · rintro ⟨_, h⟩
    exact h.depth
  · intro hdepth
    obtain ⟨h, hblock, heq⟩ | ⟨hfail, -, -⟩ := task_create_cases heap task_exit_trap X a
    · refine ⟨h, ?_⟩
      rw [heq]
      exact stack_made task_exit_trap hplaced hblock h hdepth
    · exact absurd hok hfail

end Call

/-! ## Sequences of calls -/

section Calls

variable {heap task_exit_trap : UInt32}

theorem created_placed (calls : List CreateCall) : ∀ {X : TaskMemory L},
    HeapPlaced heap X.kernel.heap_offset → ∀ p ∈ created heap task_exit_trap X calls,
      HeapPlaced heap p.1.kernel.heap_offset := by
  induction calls with
  | nil => exact fun _ => nofun
  | cons a calls ih =>
    intro X h p hp
    obtain rfl | hp := List.mem_cons.mp hp
    · exact h
    · exact ih h.next p hp

/-- A task that has been created, with its stack as it was made: below `heap_offset`, the watermark
on the lowest word, as the kernel's data say, and the frame at the upper end. -/
structure Intact (heap task_exit_trap : UInt32) (Y : TaskMemory L) (c : CoreId)
    (slot : Fin MAX_NUM_TASKS) (a : CreateCall) : Prop where
  counted : slot.val < Y.kernel.task_counter c
  depth : 17 ≤ a.stack_depth.toNat
  below : ∀ i < a.stack_depth.toNat,
    (cell (Y.stack_base (.pool c slot)) i).toNat < heap.toNat + Y.kernel.heap_offset
  stack_base0 : Y.kernel.stack_base0 (.pool c slot) = some TASK_WATERMARK
  watermark : Y.mem (Y.stack_base (.pool c slot)) = UInt32.ofNat TASK_WATERMARK
  sp : Y.current_sp (.pool c slot) =
    cell (Y.stack_base (.pool c slot)) (a.stack_depth.toNat - 16)
  holds : HoldsWords Y.mem (Y.current_sp (.pool c slot)) (first_context
    (Y.stack_high (.pool c slot)) a.task_function task_exit_trap a.task_params).frame

variable {X : TaskMemory L} {a b : CreateCall} {c : CoreId} {slot : Fin MAX_NUM_TASKS}

/-- A call leaves the tasks alone that are there. -/
theorem task_create_keeps (heap task_exit_trap : UInt32) (X : TaskMemory L) (a : CreateCall)
    (hslot : slot.val < X.kernel.task_counter c) :
    slot.val < (X.task_create heap task_exit_trap a).2.kernel.task_counter c ∧
      SameTask X (X.task_create heap task_exit_trap a).2 (.pool c slot) := by
  unfold task_create Rpitos.task_create
  by_cases h : X.kernel.task_counter a.core_id < MAX_NUM_TASKS
  · have hne : Tcb.pool c slot ≠ .pool a.core_id ⟨X.kernel.task_counter a.core_id, h⟩ := by
      intro heq
      cases heq
      exact Nat.lt_irrefl _ hslot
    dsimp only
    rw [dif_pos h, dif_pos h]
    cases hm : heap_malloc X.kernel.heap_offset (4 * a.stack_depth.toNat) with
    | mk block heap_offset =>
      cases block with
      | none =>
        exact ⟨hslot, update_of_ne hne .., rfl, rfl, update_of_ne hne .., rfl, rfl, rfl, rfl, rfl, rfl,
          rfl, rfl⟩
      | some block =>
        refine ⟨?_, update_of_ne hne .., update_of_ne hne .., update_of_ne hne .., ?_, ?_, ?_, ?_, ?_,
          ?_, ?_, ?_, ?_⟩
        · show _ < update X.kernel.task_counter a.core_id _ c
          by_cases hc : c = a.core_id
          · subst hc
            rw [update_self]
            omega
          · rw [update_of_ne hc]
            exact hslot
        all_goals simp only [scheduler_add_to_ready_list, update_of_ne hne]
  · dsimp only
    rw [dif_neg h]
    exact ⟨hslot, rfl, rfl, rfl, rfl, rfl, rfl, rfl, rfl, rfl, rfl, rfl, rfl⟩

variable (task_exit_trap) in
theorem heap_offset_grows (hplaced : HeapPlaced heap X.kernel.heap_offset) :
    X.kernel.heap_offset ≤ (X.task_create heap task_exit_trap a).2.kernel.heap_offset := by
  obtain ⟨hroom, hblock, heq⟩ | ⟨-, -, hsame⟩ := task_create_cases heap task_exit_trap X a
  · obtain ⟨hend, -⟩ := block_inside hplaced hblock
    rw [heq]
    dsimp only
    rw [(placed_kernel task_exit_trap hroom hblock _).1]
    omega
  · exact Nat.le_of_eq hsame.symm

theorem Intact.made (hplaced : HeapPlaced heap X.kernel.heap_offset)
    (hok : (X.task_create heap task_exit_trap a).1 = E_OK) (hdepth : 17 ≤ a.stack_depth.toNat) :
    ∃ h : X.kernel.task_counter a.core_id < MAX_NUM_TASKS,
      Intact heap task_exit_trap (X.task_create heap task_exit_trap a).2 a.core_id
        ⟨X.kernel.task_counter a.core_id, h⟩ a := by
  obtain ⟨h, hblock, heq⟩ | ⟨hfail, -, -⟩ := task_create_cases heap task_exit_trap X a
  · have hmade := stack_made task_exit_trap hplaced hblock h hdepth
    have hbase := placed_base task_exit_trap hplaced hblock
      (.pool a.core_id ⟨X.kernel.task_counter a.core_id, h⟩)
    obtain ⟨hend, hin⟩ := block_inside hplaced hblock
    have harray := hplaced.array
    have hlt := a.stack_depth.toNat_lt
    unfold HEAP_SIZE_BYTES at hin harray
    obtain ⟨hoffset, hcounter, hmark⟩ := placed_kernel task_exit_trap h hblock
      (.pool a.core_id ⟨X.kernel.task_counter a.core_id, h⟩)
    refine ⟨h, ?_⟩
    rw [heq]
    refine ⟨?_, hdepth, fun i hi => ?_, hmark, hmade.watermark,
      placed_sp task_exit_trap hplaced hblock _ (by omega), hmade.holds⟩
    · rw [hcounter]
      exact Nat.lt_succ_self _
    · dsimp only
      rw [hoffset, cell, UInt32.toNat_add, UInt32.toNat_ofNat', hbase]
      omega
  · exact absurd hok hfail

theorem Intact.keeps (h : Intact heap task_exit_trap X c slot b)
    (hplaced : HeapPlaced heap X.kernel.heap_offset)
    (hdepth : (X.task_create heap task_exit_trap a).1 = E_OK → 17 ≤ a.stack_depth.toNat) :
    Intact heap task_exit_trap (X.task_create heap task_exit_trap a).2 c slot b := by
  obtain ⟨hcount, hsame⟩ := task_create_keeps heap task_exit_trap X a h.counted
  have hgrows := heap_offset_grows task_exit_trap (a := a) hplaced
  have hmem : ∀ x, x.toNat < heap.toNat + X.kernel.heap_offset →
      (X.task_create heap task_exit_trap a).2.mem x = X.mem x := by
    obtain ⟨hroom, hblock, heq⟩ | ⟨-, hmem, -⟩ := task_create_cases heap task_exit_trap X a
    · rw [heq] at hdepth ⊢
      exact (stack_made task_exit_trap hplaced hblock hroom (hdepth rfl)).earlier
    · exact fun x _ => congrFun hmem x
  have hbase := h.below 0 (by have := h.depth; omega)
  rw [cell_zero] at hbase
  refine ⟨hcount, h.depth, fun i hi => ?_, ?_, ?_, ?_, ?_⟩
  · rw [hsame.stack_base]
    exact Nat.lt_of_lt_of_le (h.below i hi) (by omega)
  · rw [hsame.stack_base0]
    exact h.stack_base0
  · rw [hsame.stack_base, hmem _ hbase]
    exact h.watermark
  · rw [hsame.current_sp, hsame.stack_base]
    exact h.sp
  · rw [hsame.current_sp, hsame.stack_high]
    refine h.holds.congr fun i hi => hmem _ ?_
    rw [frame_length] at hi
    rw [h.sp, cell_add]
    have := h.depth
    exact h.below _ (by omega)

theorem Intact.run (calls : List CreateCall) : ∀ {X : TaskMemory L},
    Intact heap task_exit_trap X c slot b → HeapPlaced heap X.kernel.heap_offset →
    (∀ p ∈ created heap task_exit_trap X calls,
      (p.1.task_create heap task_exit_trap p.2).1 = E_OK → 17 ≤ p.2.stack_depth.toNat) →
    Intact heap task_exit_trap (X.creates heap task_exit_trap calls) c slot b := by
  induction calls with
  | nil => exact fun h _ _ => h
  | cons a calls ih =>
    intro X h hplaced hdepth
    exact ih (h.keeps hplaced (hdepth _ (List.mem_cons_self ..))) hplaced.next
      fun p hp => hdepth p (List.mem_cons_of_mem _ hp)

/-- With 17 words for every stack, at the end all stacks are as they were made. -/
theorem stacks_stay (calls : List CreateCall) : ∀ {X : TaskMemory L},
    HeapPlaced heap X.kernel.heap_offset →
    (∀ p ∈ created heap task_exit_trap X calls,
      (p.1.task_create heap task_exit_trap p.2).1 = E_OK → 17 ≤ p.2.stack_depth.toNat) →
    ∀ p ∈ created heap task_exit_trap X calls,
      (p.1.task_create heap task_exit_trap p.2).1 = E_OK →
      ∃ h, Intact heap task_exit_trap (X.creates heap task_exit_trap calls) p.2.core_id
        ⟨p.1.kernel.task_counter p.2.core_id, h⟩ p.2 := by
  induction calls with
  | nil => exact fun _ _ => nofun
  | cons a calls ih =>
    intro X hplaced hdepth p hp hok
    have hrest := fun p hp => hdepth p (List.mem_cons_of_mem _ hp)
    obtain rfl | hp := List.mem_cons.mp hp
    · obtain ⟨h, hmade⟩ := Intact.made hplaced hok (hdepth _ (List.mem_cons_self ..) hok)
      exact ⟨h, hmade.run calls hplaced.next hrest⟩
    · exact ih hplaced.next hrest p hp hok

end Calls

end TaskMemory

open TaskMemory in
/-- Over every sequence of calls, from any state with the heap in its place: the calls that succeed
all make their stacks as they should, if and only if each of them is asked for 17 words or more. -/
theorem task_create_stacks (heap task_exit_trap : UInt32) (X : TaskMemory L)
    (hplaced : HeapPlaced heap X.kernel.heap_offset) (calls : List CreateCall) :
    (∀ p ∈ created heap task_exit_trap X calls,
      (p.1.task_create heap task_exit_trap p.2).1 = E_OK → Made heap task_exit_trap p.1 p.2) ↔
    ∀ p ∈ created heap task_exit_trap X calls,
      (p.1.task_create heap task_exit_trap p.2).1 = E_OK → 17 ≤ p.2.stack_depth.toNat :=
  forall₂_congr fun p hp => forall_congr' fun hok => made_iff (created_placed calls hplaced p hp) hok

/-- Before the first call. -/
def TaskMemory.boot : TaskMemory Sequences where
  kernel := Kernel.boot Seqs.empty (fun _ => 0) fun _ => 0
  mem _ := 0
  stack_base _ := 0
  stack_high _ := 0
  current_sp _ := 0

/-- A stack of 32 words, and one of 8 behind it. -/
def short_stack : List CreateCall :=
  [⟨0, 0x88400, 32, 1, 0⟩, ⟨0, 0x88500, 8, 1, 0⟩]

-- the entry point in the frame of the first task, before the second call and after it
example :
    let X := (TaskMemory.boot.task_create 0x90000 0x88600 ⟨0, 0x88400, 32, 1, 0⟩).2
    X.mem 0x90078 = 0x88400 ∧
      (X.task_create 0x90000 0x88600 ⟨0, 0x88500, 8, 1, 0⟩).2.mem 0x90078 = 0 := by
  decide +kernel

open TaskMemory in
theorem task_create_stacks_short :
    (∀ p ∈ created 0x90000 0x88600 TaskMemory.boot short_stack,
      (p.1.task_create 0x90000 0x88600 p.2).1 = E_OK → Made 0x90000 0x88600 p.1 p.2) ↔
    ∀ p ∈ created 0x90000 0x88600 TaskMemory.boot short_stack,
      (p.1.task_create 0x90000 0x88600 p.2).1 = E_OK → 17 ≤ p.2.stack_depth.toNat :=
  task_create_stacks 0x90000 0x88600 .boot ⟨by decide, rfl, Nat.zero_le _⟩ short_stack

open TaskMemory in
/-- The frame of the second task begins below its stack, in that of the first. -/
theorem short_stack_not_made :
    ¬ ∀ (heap task_exit_trap : UInt32) (X : TaskMemory Sequences),
      HeapPlaced heap X.kernel.heap_offset → ∀ calls, ∀ p ∈ created heap task_exit_trap X calls,
        (p.1.task_create heap task_exit_trap p.2).1 = E_OK → Made heap task_exit_trap p.1 p.2 := by
  intro hall
  have hmade := hall 0x90000 0x88600 .boot ⟨by decide, rfl, Nat.zero_le _⟩ short_stack _
    (.tail _ (.head _)) rfl
  obtain ⟨h, hmade⟩ := hmade
  exact absurd hmade.depth (by decide)

end Rpitos
