import Rpitos.Kernel.ContextSwitch
import Rpitos.Lib.Reach

/-!
# Kernel.ContextRuns

Runs of one core with its tasks: code of a task, `task_create`, `start_first_task`, and interrupts.
`context_switch_preserves`: whatever is switched to, and how often, a task resumes with the context
in which it was interrupted, or with its first one.

What the other code keeps its hands off is an assumption (`Keeps`, `CCall`): the frames of the tasks
that do not run, and where their TCBs say that these are.
-/

namespace Rpitos

open Function (update update_self update_of_ne)

/-- The core's slot of `p_task_control_block`. -/
def slot_address (p_task_control_block core_id : UInt32) : UInt32 :=
  p_task_control_block + (core_id <<< 2)

/-- Where the tasks of a core are in memory; `current_sp` is the first field of a TCB. The stacks
are apart from each other, from the TCBs and from the slot. -/
structure Layout (T : Type) where
  p_task_control_block : UInt32
  core_id : UInt32
  task_exit_trap : UInt32
  idle_task_func : UInt32
  tcb : T → UInt32
  stack : T → UInt32 → Prop
  tcb_injective : ∀ t u, tcb t = tcb u → t = u
  tcb_ne_slot : ∀ t, tcb t ≠ slot_address p_task_control_block core_id
  tcb_not_stack : ∀ t u, ¬ stack u (tcb t)
  slot_not_stack : ∀ t, ¬ stack t (slot_address p_task_control_block core_id)
  stack_disjoint : ∀ t u a, stack t a → stack u a → t = u

/-- `current` is the task that runs, none before `start_first_task`. `saved` records what each other
task has to resume with: the context in which it was interrupted, or the first one. -/
structure Switching (T : Type) where
  arm : Arm
  current : Option T
  saved : T → Option Context

inductive SwitchStep (T : Type) where
  /-- Code of the current task, or of the core before its first task, leads to this. -/
  | run (arm : Arm)
  | task_create (t : T) (stack_high task_function task_params : UInt32)
  /-- The idle task of `scheduler_init`. -/
  | scheduler_init (t : T) (top : UInt32)
  /-- `scheduler_start`: `scheduler_switch_context` picks `next` and leads to `arm`. -/
  | scheduler_start (arm : Arm) (next : T)
  /-- An interrupt; a tick switches to `next`. -/
  | irq (C : CCode) (source iar : UInt32) (next : T)

section System

variable {T : Type} (L : Layout T)

abbrev Layout.slot : UInt32 := slot_address L.p_task_control_block L.core_id

namespace Switching

variable [DecidableEq T]

/-- A built frame becomes that of `t`. -/
def create (X : Switching T) (t : T) (first : Context) (built : WordMem × UInt32) : Switching T :=
  { X with
    arm := { X.arm with mem := update built.1 (L.tcb t) built.2 }
    saved := update X.saved t (some first) }

def resume (X : Switching T) (t : T) (arm : Arm) : Switching T :=
  { arm := arm, current := some t, saved := update X.saved t none }

/-- Interrupted where it is. -/
def suspend (X : Switching T) : T → Option Context :=
  match X.current with
  | none => X.saved
  | some t => update X.saved t (some X.arm.context)

/-- The task that runs after an interrupt with this ID. -/
def next_task (iar : UInt32) (t next : T) : T := if iar &&& 0x3FF = 30 then next else t

def step (X : Switching T) : SwitchStep T → Option (Switching T)
  | .run arm => some { X with arm := arm }
  | .task_create t stack_high task_function task_params =>
    if X.saved t = none ∧ X.current ≠ some t then
      some (X.create L t (first_context stack_high task_function L.task_exit_trap task_params)
        (task_init_stack L.task_exit_trap X.arm.mem stack_high task_function task_params))
    else none
  | .scheduler_init t top =>
    if X.saved t = none ∧ X.current ≠ some t then
      some (X.create L t (first_context top L.idle_task_func 0 0)
        (idle_init_stack X.arm.mem top L.idle_task_func))
    else none
  | .scheduler_start arm next =>
    match X.current with
    | none => some (X.resume next (start_first_task L.p_task_control_block L.core_id arm))
    | some _ => none
  | .irq C source iar next =>
    match X.current with
    | none => none
    | some t =>
      -- `CPSR.I`
      if X.arm.cpsr &&& 0x80 = 0 then
        (irq_handler L.p_task_control_block L.core_id C source iar X.arm.irq_entry).map
          ({ X with saved := X.suspend }.resume (next_task iar t next))
      else none

end Switching

/-- The frames in `saved`, and where the TCBs say that they are, are not written. -/
def Layout.Keeps (saved : T → Option Context) (mem mem' : WordMem) : Prop :=
  ∀ u c, saved u = some c → mem' (L.tcb u) = mem (L.tcb u) ∧
    ∀ i, i < 16 → mem' (cell (mem (L.tcb u)) i) = mem (cell (mem (L.tcb u)) i)

/-- What a C function that the handler calls leaves alone: the callee-saved registers, the task's
stack pointer with the frame there, and the other frames. -/
structure CCall (saved : T → Option Context) (A A' : Arm) : Prop where
  callee_saved : ∀ reg : Reg, 4 ≤ reg.index → reg.index ≤ 11 → A'.r reg = A.r reg
  sp : A'.sp MODE_SVC = A.sp MODE_SVC
  frame : ∀ i, i < 16 → A'.mem (cell (A.sp MODE_SVC) i) = A.mem (cell (A.sp MODE_SVC) i)
  keeps : L.Keeps saved A.mem A'.mem

/-- The C functions that an interrupt runs; `A` is the core when the interrupt ID is tested. Only
`scheduler_switch_context` writes the slot: it picks a task that has been created. -/
def CCode.respects (C : CCode) (saved : T → Option Context) (iar : UInt32) (next : T) (A : Arm) :
    Prop :=
  if iar &&& 0x3FF = 0x3FF then True
  else if iar &&& 0x3FF = 30 then
    let A₀ := cntx_save L.p_task_control_block L.core_id A
    let A₁ := C.timer_tick_handler A₀
    let A₂ := C.scheduler_switch_context A₁
    CCall L saved A₀ A₁ ∧ CCall L saved A₁ A₂ ∧ A₂.mem L.slot = L.tcb next ∧ saved next ≠ none
  else
    CCall L saved (irq_call A) (C.irq_dispatch (irq_call A)) ∧
      (C.irq_dispatch (irq_call A)).mem L.slot = A.mem L.slot

/-- A task stays in SVC mode and on its own stack, with room there for the frame of an interrupt, and
a new task's frame is on the new task's stack. -/
def Layout.respects [DecidableEq T] (X : Switching T) : SwitchStep T → Prop
  | .run arm =>
    (X.current ≠ none → arm.mode = MODE_SVC) ∧ L.Keeps X.saved X.arm.mem arm.mem ∧
      arm.mem L.slot = X.arm.mem L.slot
  | .task_create t stack_high _ _ => ∀ i, i < 16 → L.stack t (cell (stack_high - 60) i)
  | .scheduler_init t top => ∀ i, i < 16 → L.stack t (cell (top - 60) i)
  | .scheduler_start arm next =>
    arm.mode = MODE_SVC ∧ L.Keeps X.saved X.arm.mem arm.mem ∧ arm.mem L.slot = L.tcb next ∧
      X.saved next ≠ none
  | .irq C source iar next =>
    (∀ t, X.current = some t → ∀ i, i < 16 → L.stack t (cell (X.arm.sp MODE_SVC - 64) i)) ∧
      C.respects L X.suspend iar next (irq_acked L.core_id source iar X.arm.irq_entry)

/-- The core before any task. -/
def Switching.boot (arm : Arm) : Switching T where
  arm := arm
  current := none
  saved _ := none

/-- The frame of `c`, in the stack of `u`, is where the TCB of `u` says. -/
structure Layout.Framed (mem : WordMem) (u : T) (c : Context) : Prop where
  holds : HoldsWords mem (mem (L.tcb u)) c.frame
  sp : c.sp = cell (mem (L.tcb u)) 16
  stack : ∀ i, i < 16 → L.stack u (cell (mem (L.tcb u)) i)
  mode : cpsr_mode c.cpsr = MODE_SVC

/-- Every task that does not run has its frame, and the slot names the one that runs. -/
structure SwitchInv (X : Switching T) : Prop where
  current : ∀ t, X.current = some t → X.arm.mem L.slot = L.tcb t ∧ X.arm.mode = MODE_SVC
  saved : ∀ u c, X.saved u = some c → L.Framed X.arm.mem u c

variable {L} {mem mem' mem'' : WordMem} {t u next : T} {c : Context} {X Y : Switching T}
  {saved : T → Option Context} {A A' : Arm}

theorem SwitchInv.boot (arm : Arm) : SwitchInv L (Switching.boot arm) :=
  ⟨fun _ h => (nomatch h), fun _ _ h => (nomatch h)⟩

theorem Layout.Framed.congr (h : L.Framed mem u c) (htcb : mem' (L.tcb u) = mem (L.tcb u))
    (hframe : ∀ i, i < 16 → mem' (cell (mem (L.tcb u)) i) = mem (cell (mem (L.tcb u)) i)) :
    L.Framed mem' u c := by
  refine ⟨?_, ?_, ?_, h.mode⟩
  · rw [htcb]
    exact h.holds.congr hframe
  · rw [htcb]
    exact h.sp
  · rw [htcb]
    exact h.stack

theorem Layout.Framed.kept (h : L.Framed mem u c) (hu : saved u = some c)
    (hkeeps : L.Keeps saved mem mem') : L.Framed mem' u c :=
  h.congr (hkeeps u c hu).1 (hkeeps u c hu).2

/-- A frame in the stack of one task is apart from the TCBs, the slot and the other frames. -/
theorem Layout.Framed.stored {a : UInt32} {ws : List UInt32} (h : L.Framed mem u c) (hne : u ≠ t)
    (hstored : StoredWords mem mem' a ws) (hstack : ∀ i, i < ws.length → L.stack t (cell a i)) :
    L.Framed mem' u c := by
  refine h.congr (hstored.other _ fun i hi heq => ?_) fun i hi => hstored.other _ fun j hj heq => ?_
  · exact L.tcb_not_stack u t (heq ▸ hstack i hi)
  · exact hne (L.stack_disjoint u t _ (h.stack i hi) (heq ▸ hstack j hj))

theorem StoredWords.slot {a : UInt32} {ws : List UInt32} (hstored : StoredWords mem mem' a ws)
    (hstack : ∀ i, i < ws.length → L.stack t (cell a i)) : mem' L.slot = mem L.slot :=
  hstored.other _ fun i hi heq => L.slot_not_stack t (Eq.subst heq.symm (hstack i hi))

/-- The store of a stack pointer leaves the other tasks alone. -/
theorem Layout.Framed.update_tcb (h : L.Framed mem u c) (hne : u ≠ t) (sp : UInt32) :
    L.Framed (update mem (L.tcb t) sp) u c := by
  refine h.congr (update_of_ne (fun heq => hne (L.tcb_injective u t heq)) ..) fun i hi => ?_
  refine update_of_ne (fun heq => ?_) ..
  exact L.tcb_not_stack t u (heq ▸ h.stack i hi)

/-- The store of the stack pointer makes the frame there that of `t`. -/
theorem StoredWords.framed {a : UInt32} (hstored : StoredWords mem mem' a c.frame)
    (hstack : ∀ i, i < 16 → L.stack t (cell a i)) (hsp : c.sp = cell a 16)
    (hmode : cpsr_mode c.cpsr = MODE_SVC) : L.Framed (update mem' (L.tcb t) a) t c := by
  have htcb : update mem' (L.tcb t) a (L.tcb t) = a := update_self ..
  refine ⟨?_, htcb.symm ▸ hsp, htcb.symm ▸ hstack, hmode⟩
  rw [htcb]
  refine hstored.holds.congr fun i hi => update_of_ne (fun heq => ?_) ..
  exact L.tcb_not_stack t t (heq ▸ hstack i hi)

variable [DecidableEq T]

theorem SwitchInv.create (h : SwitchInv L X) {first : Context} {built : WordMem × UInt32}
    (hstored : StoredWords X.arm.mem built.1 built.2 first.frame)
    (hstack : ∀ i, i < 16 → L.stack t (cell built.2 i)) (hsp : first.sp = cell built.2 16)
    (hmode : cpsr_mode first.cpsr = MODE_SVC) : SwitchInv L (X.create L t first built) := by
  refine ⟨fun v hv => ?_, fun u c hu => ?_⟩
  · obtain ⟨hslot, hv'⟩ := h.current v hv
    refine ⟨?_, hv'⟩
    show update built.1 (L.tcb t) built.2 L.slot = _
    exact (update_of_ne (L.tcb_ne_slot t).symm ..).trans ((hstored.slot hstack).trans hslot)
  · by_cases hut : u = t
    · subst hut
      cases (update_self ..).symm.trans hu
      exact hstored.framed hstack hsp hmode
    · have hu := (update_of_ne hut ..).symm.trans hu
      exact ((h.saved u c hu).stored hut hstored hstack).update_tcb hut _

/-- A frame that is built by hand. -/
theorem SwitchInv.init_frame (h : SwitchInv L X) {top entry lr params : UInt32}
    (hstack : ∀ i, i < 16 → L.stack t (cell (top - 60) i)) :
    SwitchInv L (X.create L t (first_context top entry lr params)
      (Rpitos.init_frame X.arm.mem top entry lr params)) := by
  obtain ⟨hsp, hstored⟩ := init_frame_stored X.arm.mem top entry lr params
  have hend : top + 4 = cell (top - 60) 16 := by
    unfold cell
    rw [UInt32.sub_eq_add_neg, UInt32.add_assoc]
    rfl
  refine h.create ?_ ?_ ?_ (first_context_starts top entry lr params).mode
  · rw [hsp]
    exact hstored
  · rw [hsp]
    exact hstack
  · rw [hsp]
    exact hend

/-- The task that goes on has its context, and the others keep theirs. -/
theorem SwitchInv.resume (hframed : ∀ u c, saved u = some c → u ≠ t → L.Framed A.mem u c)
    (hslot : A.mem L.slot = L.tcb t) (hmode : A.mode = MODE_SVC) {X : Switching T}
    (hX : X.saved = saved) : SwitchInv L (X.resume t A) := by
  refine ⟨fun v hv => ?_, fun u c hu => ?_⟩
  · cases hv
    exact ⟨hslot, hmode⟩
  · have hut : u ≠ t := by
      rintro rfl
      exact nomatch (update_self ..).symm.trans hu
    exact hframed u c (hX ▸ (update_of_ne hut ..).symm.trans hu) hut

section Irq

variable {C : CCode} {source iar : UInt32} {B : Arm}

theorem Switching.suspend_self (ht : X.current = some t) : X.suspend t = some X.arm.context := by
  unfold Switching.suspend
  rw [ht]
  exact update_self ..

theorem Switching.suspend_other (ht : X.current = some t) (hut : u ≠ t) :
    X.suspend u = X.saved u := by
  unfold Switching.suspend
  rw [ht]
  exact update_of_ne hut ..

/-- The core when the interrupt ID is tested: the frame of the task is on its stack. -/
structure Acked (L : Layout T) (X : Switching T) (t : T) (A : Arm) : Prop where
  current : X.current = some t
  mode : A.mode = MODE_SVC
  task_mode : X.arm.mode = MODE_SVC
  stored : StoredWords X.arm.mem A.mem (A.sp MODE_SVC) X.arm.context.frame
  stack : ∀ i, i < 16 → L.stack t (cell (A.sp MODE_SVC) i)
  sp : X.arm.context.sp = cell (A.sp MODE_SVC) 16
  slot : A.mem L.slot = L.tcb t
  others : ∀ u c, X.suspend u = some c → u ≠ t → L.Framed A.mem u c

theorem SwitchInv.acked (h : SwitchInv L X) (ht : X.current = some t)
    (hroom : ∀ i, i < 16 → L.stack t (cell (X.arm.sp MODE_SVC - 64) i)) :
    Acked L X t (irq_acked L.core_id source iar X.arm.irq_entry) := by
  have hsp : (irq_acked L.core_id source iar X.arm.irq_entry).sp MODE_SVC = X.arm.sp MODE_SVC - 64 :=
    irq_save_sp X.arm
  have hstored := irq_save_stored X.arm
  obtain ⟨hslot, hmode⟩ := h.current t ht
  refine ⟨ht, irq_acked_mode .., hmode, ?_, ?_, ?_, ?_, fun u c hu hut => ?_⟩
  · rw [hsp]
    exact hstored
  · rw [hsp]
    exact hroom
  · rw [hsp]
    exact (UInt32.sub_add_cancel ..).symm
  · exact (hstored.slot hroom).trans hslot
  · rw [Switching.suspend_other ht hut] at hu
    exact (h.saved u c hu).stored hut hstored hroom

/-- The mode of a core whose context is that of a task. -/
theorem mode_of_context (h : A.context = c) (hmode : cpsr_mode c.cpsr = MODE_SVC) :
    A.mode = MODE_SVC := by
  subst h
  exact hmode

/-- A core that leaves the handler with the context of the interrupted task. -/
theorem Acked.back (h : Acked L X t A) (hB : B.context = X.arm.context)
    (hslot : B.mem L.slot = L.tcb t)
    (hothers : ∀ u c, X.suspend u = some c → u ≠ t → L.Framed B.mem u c) :
    X.suspend t = some B.context ∧
      SwitchInv L (({ X with saved := X.suspend } : Switching T).resume t B) := by
  refine ⟨hB ▸ Switching.suspend_self h.current, ?_⟩
  exact SwitchInv.resume hothers hslot (mode_of_context hB h.task_mode) rfl

/-- The store of the stack pointer completes the frame of the interrupted task. -/
theorem Acked.framed (h : Acked L X t A) :
    ∀ u c, X.suspend u = some c →
      L.Framed (cntx_save L.p_task_control_block L.core_id A).mem u c := by
  have hmem : (cntx_save L.p_task_control_block L.core_id A).mem =
      update A.mem (L.tcb t) (A.sp MODE_SVC) := by
    rw [cntx_save_mem h.mode, ← h.slot]
    rfl
  intro u c hu
  rw [hmem]
  by_cases hut : u = t
  · subst hut
    cases (Switching.suspend_self h.current).symm.trans hu
    exact h.stored.framed h.stack h.sp h.task_mode
  · exact (h.others u c hu hut).update_tcb hut _

/-- The tick: the next task's frame is where its TCB says. -/
theorem Acked.tick (h : Acked L X t A) {A₁ A₂ : Arm}
    (h₁ : CCall L X.suspend (cntx_save L.p_task_control_block L.core_id A) A₁)
    (h₂ : CCall L X.suspend A₁ A₂) (hslot : A₂.mem L.slot = L.tcb next)
    (hnext : X.suspend next ≠ none) :
    let B := irq_eoi (cntx_load L.p_task_control_block A₂)
    X.suspend next = some B.context ∧
      SwitchInv L (({ X with saved := X.suspend } : Switching T).resume next B) := by
  intro B
  have hsaved : ∀ u c, X.suspend u = some c → L.Framed A₂.mem u c :=
    fun u c hu => ((h.framed u c hu).kept hu h₁.keeps).kept hu h₂.keeps
  have hcore : A₂.r .r5 = L.core_id :=
    (h₂.callee_saved .r5 (by decide) (by decide)).trans
      (h₁.callee_saved .r5 (by decide) (by decide))
  obtain ⟨c, hc⟩ := Option.ne_none_iff_exists'.mp hnext
  have hframed := hsaved next c hc
  have hsp : (cntx_load L.p_task_control_block A₂).sp MODE_SVC = A₂.mem (L.tcb next) :=
    (cntx_load_sp hcore).trans (congrArg A₂.mem hslot)
  have hB : B.context = c := by
    refine irq_eoi_context cntx_load_mode ?_ ?_
    · rw [hsp]
      exact hframed.holds
    · rw [hsp]
      exact hframed.sp
  have hmode : B.mode = MODE_SVC := mode_of_context hB hframed.mode
  exact ⟨hB ▸ hc, SwitchInv.resume (A := B) (fun u c hu _ => hsaved u c hu) hslot hmode rfl⟩

/-- Any other interrupt: the task goes on. -/
theorem Acked.dispatch (h : Acked L X t A) {A' : Arm} (hcall : CCall L X.suspend (irq_call A) A')
    (hslot : A'.mem L.slot = A.mem L.slot) :
    let B := irq_eoi (A'.cps MODE_SVC)
    X.suspend t = some B.context ∧
      SwitchInv L (({ X with saved := X.suspend } : Switching T).resume t B) := by
  intro B
  have hsp : (A'.cps MODE_SVC).sp MODE_SVC = A.sp MODE_SVC := hcall.sp
  have hB : B.context = X.arm.context := by
    refine irq_eoi_context (cps_mode_svc A') ?_ ?_
    · rw [hsp]
      exact h.stored.holds.congr hcall.frame
    · rw [hsp]
      exact h.sp
  refine h.back hB (hslot.trans h.slot) fun u c hu hut => ?_
  exact (h.others u c hu hut).kept hu hcall.keeps

theorem SwitchInv.irq (h : SwitchInv L X) (ht : X.current = some t)
    (hok : L.respects X (.irq C source iar next))
    (hB : irq_handler L.p_task_control_block L.core_id C source iar X.arm.irq_entry = some B) :
    X.suspend (Switching.next_task iar t next) = some B.context ∧
      SwitchInv L (({ X with saved := X.suspend } : Switching T).resume
        (Switching.next_task iar t next) B) := by
  obtain ⟨hroom, hC⟩ := hok
  have hacked : Acked L X t (irq_acked L.core_id source iar X.arm.irq_entry) := h.acked ht (hroom t ht)
  rw [irq_handler_eq] at hB
  unfold CCode.respects at hC
  by_cases hmailbox : source &&& 0x10 ≠ 0
  · rw [if_pos hmailbox] at hB
    cases hB
  rw [if_neg hmailbox] at hB
  by_cases hspurious : iar &&& 0x3FF = 0x3FF
  · rw [if_pos hspurious] at hB
    cases hB
    have hid : Switching.next_task iar t next = t := if_neg (by rw [hspurious]; decide)
    rw [hid]
    refine hacked.back ?_ hacked.slot hacked.others
    exact irq_done_context hacked.mode hacked.stored.holds hacked.sp
  rw [if_neg hspurious] at hB hC
  by_cases htick : iar &&& 0x3FF = 30
  · rw [if_pos htick] at hB hC
    cases hB
    have hid : Switching.next_task iar t next = next := if_pos htick
    rw [hid]
    obtain ⟨h₁, h₂, hslot, hnext⟩ := hC
    exact hacked.tick h₁ h₂ hslot hnext
  · rw [if_neg htick] at hB hC
    cases hB
    have hid : Switching.next_task iar t next = t := if_neg htick
    rw [hid]
    exact hacked.dispatch hC.1 hC.2

/-- The first task of the core. -/
theorem SwitchInv.start (h : SwitchInv L X) (hcurrent : X.current = none)
    (hok : L.respects X (.scheduler_start A next)) :
    let B := start_first_task L.p_task_control_block L.core_id A
    X.suspend next = some B.context ∧ SwitchInv L (X.resume next B) := by
  intro B
  obtain ⟨hmode, hkeeps, hslot, hnext⟩ := hok
  have hsuspend : X.suspend = X.saved := by
    unfold Switching.suspend
    rw [hcurrent]
  obtain ⟨c, hc⟩ := Option.ne_none_iff_exists'.mp hnext
  have hsaved : ∀ u c, X.saved u = some c → L.Framed A.mem u c :=
    fun u c hu => (h.saved u c hu).kept hu hkeeps
  have hframed := hsaved next c hc
  have hsp : (start_load L.p_task_control_block L.core_id A).sp MODE_SVC = A.mem (L.tcb next) :=
    (start_load_sp hmode).trans (congrArg A.mem hslot)
  have hB : B.context = c := by
    refine irq_done_context hmode ?_ ?_
    · rw [hsp]
      exact hframed.holds
    · rw [hsp]
      exact hframed.sp
  rw [hsuspend]
  have hmodeB : B.mode = MODE_SVC := mode_of_context hB hframed.mode
  exact ⟨hB ▸ hc, SwitchInv.resume (A := B) (fun u c hu _ => hsaved u c hu) hslot hmodeB rfl⟩

theorem Switching.step_start (hY : X.step L (.scheduler_start A next) = some Y) :
    X.current = none ∧
      Y = X.resume next (start_first_task L.p_task_control_block L.core_id A) := by
  unfold Switching.step at hY
  cases hcurrent : X.current with
  | some t =>
    rw [hcurrent] at hY
    cases hY
  | none =>
    rw [hcurrent] at hY
    cases hY
    exact ⟨rfl, rfl⟩

theorem Switching.step_irq (hY : X.step L (.irq C source iar next) = some Y) :
    ∃ t B, X.current = some t ∧
      irq_handler L.p_task_control_block L.core_id C source iar X.arm.irq_entry = some B ∧
      Y = ({ X with saved := X.suspend } : Switching T).resume (Switching.next_task iar t next) B := by
  unfold Switching.step at hY
  cases ht : X.current with
  | none =>
    rw [ht] at hY
    cases hY
  | some t =>
    rw [ht] at hY
    obtain ⟨-, hY⟩ := Option.ite_none_right_eq_some.mp hY
    obtain ⟨B, hB, rfl⟩ := Option.map_eq_some_iff.mp hY
    exact ⟨t, B, rfl, hB, rfl⟩

/-- The step puts a task on the core. -/
def SwitchStep.resumes : SwitchStep T → Prop
  | .scheduler_start .. => True
  | .irq .. => True
  | _ => False

theorem SwitchInv.resumed {a : SwitchStep T} (h : SwitchInv L X) (hok : L.respects X a)
    (hY : X.step L a = some Y) (ha : a.resumes) :
    ∃ u, Y.current = some u ∧ X.suspend u = some Y.arm.context := by
  cases a with
  | run => exact ha.elim
  | task_create => exact ha.elim
  | scheduler_init => exact ha.elim
  | scheduler_start arm next =>
    obtain ⟨hcurrent, rfl⟩ := Switching.step_start hY
    exact ⟨next, rfl, (h.start hcurrent hok).1⟩
  | irq C source iar next =>
    obtain ⟨t, B, ht, hB, rfl⟩ := Switching.step_irq hY
    exact ⟨_, rfl, (h.irq ht hok hB).1⟩

theorem SwitchInv.step {a : SwitchStep T} (h : SwitchInv L X) (hok : L.respects X a)
    (hY : X.step L a = some Y) : SwitchInv L Y := by
  cases a with
  | run arm =>
    cases hY
    obtain ⟨hmode, hkeeps, hslot⟩ := hok
    refine ⟨fun t ht => ?_, fun u c hu => (h.saved u c hu).kept hu hkeeps⟩
    exact ⟨hslot.trans (h.current t ht).1, hmode (ht ▸ Option.some_ne_none t)⟩
  | task_create t stack_high task_function task_params =>
    obtain ⟨-, hY⟩ := Option.ite_none_right_eq_some.mp hY
    cases hY
    exact h.init_frame hok
  | scheduler_init t top =>
    obtain ⟨-, hY⟩ := Option.ite_none_right_eq_some.mp hY
    cases hY
    exact h.init_frame hok
  | scheduler_start arm next =>
    obtain ⟨hcurrent, rfl⟩ := Switching.step_start hY
    exact (h.start hcurrent hok).2
  | irq C source iar next =>
    obtain ⟨t, B, ht, hB, rfl⟩ := Switching.step_irq hY
    exact (h.irq ht hok hB).2

/-- A `scheduler_switch_context` that picks `next`; the other functions do nothing. -/
def Layout.pick (L : Layout T) (next : T) : CCode where
  irq_dispatch := id
  timer_tick_handler := id
  scheduler_switch_context A := { A with mem := update A.mem L.slot (L.tcb next) }

omit [DecidableEq T] in
theorem Layout.keeps_slot (h : ∀ u c, saved u = some c → L.Framed mem u c) (v : UInt32) :
    L.Keeps saved mem (update mem L.slot v) := by
  intro u c hu
  refine ⟨update_of_ne (L.tcb_ne_slot u) .., fun i hi => update_of_ne (fun heq => ?_) ..⟩
  exact L.slot_not_stack u (Eq.subst heq ((h u c hu).stack i hi))

/-- Every task that has been created may be picked. -/
theorem Acked.pick (h : Acked L X t A) (hnext : X.suspend next ≠ none) :
    (L.pick next).respects L X.suspend iar next A := by
  unfold CCode.respects
  split
  · trivial
  split
  · have hframed := h.framed
    refine ⟨⟨fun _ _ _ => rfl, rfl, fun _ _ => rfl, fun u c hu => ⟨rfl, fun _ _ => rfl⟩⟩,
      ⟨fun _ _ _ => rfl, rfl, fun i hi => ?_, L.keeps_slot hframed _⟩, update_self .., hnext⟩
    refine update_of_ne (fun heq => ?_) ..
    exact L.slot_not_stack t (Eq.subst heq (h.stack i hi))
  · exact ⟨⟨fun _ _ _ => rfl, rfl, fun _ _ => rfl, fun u c hu => ⟨rfl, fun _ _ => rfl⟩⟩, rfl⟩

end Irq

end System

/-- Whenever a task is put on the core, by `start_first_task` or by the way out of an interrupt, its
r0-r12, lr, sp, pc and status word are those in which it was interrupted, or, the first time, those
of its first context; in that one r0 is the parameter, pc the entry function and lr the exit trap, or
0 for the idle task, and IRQs are enabled in SVC mode. -/
theorem context_switch_preserves {T : Type} [DecidableEq T] (L : Layout T) (arm : Arm)
    {X Y : Switching T} {a : SwitchStep T}
    (hr : Reach (Switching.step L) L.respects (Switching.boot arm) X) (hok : L.respects X a)
    (hY : X.step L a = some Y) (ha : a.resumes) :
    (∃ u, Y.current = some u ∧ X.suspend u = some Y.arm.context) ∧
      ∀ top entry lr params, (first_context top entry lr params).Starts entry lr params := by
  have h : SwitchInv L X := hr.invariant (.boot arm) fun _ _ _ h hok hY => h.step hok hY
  exact ⟨h.resumed hok hY ha, first_context_starts⟩

/-- Core 1 with the idle task (`false`) and one other. -/
def two_stacks : Layout Bool where
  p_task_control_block := 0x1000
  core_id := 1
  task_exit_trap := 0x9000
  idle_task_func := 0x9100
  tcb t := if t then 0x2100 else 0x2000
  stack t a := if t then 0x5000 ≤ a ∧ a < 0x6000 else 0x3000 ≤ a ∧ a < 0x4000
  tcb_injective := by decide
  tcb_ne_slot := by decide
  tcb_not_stack := by decide
  slot_not_stack := by decide
  stack_disjoint t u a ht hu := by
    cases t <;> cases u <;> simp [UInt32.le_iff_toNat_le, UInt32.lt_iff_toNat_lt] at ht hu ⊢ <;> omega

/-- The core before it has tasks: SVC mode, IRQs masked. -/
def blank_core : Arm where
  r _ := 0
  sp _ := 0x7000
  lr _ := 0
  spsr _ := 0
  cpsr := 0xD3
  pc := 0x8000
  mem _ := 0
  eoir := 0

/-- Both tasks are created. -/
def two_created : Switching Bool :=
  let X := (Switching.boot blank_core).create two_stacks false
    (first_context 0x3FFC 0x9100 0 0) (idle_init_stack blank_core.mem 0x3FFC 0x9100)
  X.create two_stacks true (first_context 0x5FFC 0x8000 0x9000 7)
    (task_init_stack 0x9000 X.arm.mem 0x5FFC 0x8000 7)

/-- The other task is picked and started. -/
def two_started : Switching Bool :=
  two_created.resume true
    (start_first_task 0x1000 1 ((two_stacks.pick true).scheduler_switch_context two_created.arm))

theorem two_created_reach :
    Reach (Switching.step two_stacks) two_stacks.respects (Switching.boot blank_core) two_created := by
  have hidle : two_stacks.respects (Switching.boot blank_core) (.scheduler_init false 0x3FFC) := by
    show ∀ i, i < 16 → (0x3000 : UInt32) ≤ cell (0x3FFC - 60) i ∧ cell (0x3FFC - 60) i < 0x4000
    decide
  have hother : ∀ X, two_stacks.respects X (.task_create true 0x5FFC 0x8000 7) := by
    intro X
    show ∀ i, i < 16 → (0x5000 : UInt32) ≤ cell (0x5FFC - 60) i ∧ cell (0x5FFC - 60) i < 0x6000
    decide
  exact (Reach.start.step hidle rfl).step (hother _) rfl

theorem two_started_reach :
    Reach (Switching.step two_stacks) two_stacks.respects (Switching.boot blank_core) two_started := by
  have h : SwitchInv two_stacks two_created :=
    two_created_reach.invariant (.boot blank_core) fun _ _ _ h hok hY => h.step hok hY
  refine two_created_reach.step (a := .scheduler_start _ true) ?_ rfl
  refine ⟨by decide, two_stacks.keeps_slot h.saved _, ?_, Option.some_ne_none _⟩
  show update two_created.arm.mem two_stacks.slot (two_stacks.tcb true) two_stacks.slot = _
  exact update_self ..

/-- The tick switches to the idle task, for the first time. -/
theorem context_switch_preserves_two_tasks :
    ∃ Y, two_started.step two_stacks (.irq (two_stacks.pick false) 0 30 false) = some Y ∧
      ∃ u, Y.current = some u ∧ two_started.suspend u = some Y.arm.context := by
  have h : SwitchInv two_stacks two_started :=
    two_started_reach.invariant (.boot blank_core) fun _ _ _ h hok hY => h.step hok hY
  have hroom : ∀ t, two_started.current = some t →
      ∀ i, i < 16 → two_stacks.stack t (cell (two_started.arm.sp MODE_SVC - 64) i) := by
    intro t ht
    cases ht
    have hsp : two_started.arm.sp MODE_SVC = 0x6000 := by decide +kernel
    rw [hsp]
    show ∀ i, i < 16 → (0x5000 : UInt32) ≤ cell (0x6000 - 64) i ∧ cell (0x6000 - 64) i < 0x6000
    decide
  have hnext : two_started.suspend false ≠ none := Option.some_ne_none _
  have hok : two_stacks.respects two_started (.irq (two_stacks.pick false) 0 30 false) :=
    ⟨hroom, (h.acked rfl (hroom true rfl)).pick hnext⟩
  have hmasked : two_started.arm.cpsr &&& 0x80 = 0 := by decide +kernel
  obtain ⟨Y, hY⟩ : ∃ Y, two_started.step two_stacks (.irq (two_stacks.pick false) 0 30 false) = some Y :=
    ⟨_, if_pos (e := none) hmasked⟩
  exact ⟨Y, hY, (context_switch_preserves two_stacks blank_core two_started_reach hok hY trivial).1⟩

end Rpitos
