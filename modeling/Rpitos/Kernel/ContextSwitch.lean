import Mathlib.Tactic.IntervalCases
import Rpitos.Lib.WordMem

/-!
# Kernel.ContextSwitch

The interrupt entry, `_irq_handler` and `start_first_task` of `startup.s` over a register file and a
memory of words, and the frames that `task_init_stack` and `scheduler_init` build by hand.
A frame is `[r0-r12][lr][pc][spsr]`, upwards from the saved stack pointer: `irq_save_holds` for the
one that the handler pushes, `init_frame_holds` for the others, `restore_context` for both ways out.

The functions that the handler calls are parameters.
-/

namespace Rpitos

open Function (update update_self update_of_ne)

/-- The registers that IRQ and SVC mode share. -/
inductive Reg where
  | r0 | r1 | r2 | r3 | r4 | r5 | r6 | r7 | r8 | r9 | r10 | r11 | r12
  deriving DecidableEq, Repr

/-- `{r0-r12}`, in the order of a push. -/
def Reg.all : List Reg := [.r0, .r1, .r2, .r3, .r4, .r5, .r6, .r7, .r8, .r9, .r10, .r11, .r12]

/-- The place of a register in `Reg.all`. -/
def Reg.index : Reg → Nat
  | .r0 => 0
  | .r1 => 1
  | .r2 => 2
  | .r3 => 3
  | .r4 => 4
  | .r5 => 5
  | .r6 => 6
  | .r7 => 7
  | .r8 => 8
  | .r9 => 9
  | .r10 => 10
  | .r11 => 11
  | .r12 => 12

def MODE_IRQ : UInt32 := 0x12

def MODE_SVC : UInt32 := 0x13

/-- One core. `sp`, `lr` and `spsr` are banked by mode; `pc` is the next instruction of the code that
an interrupt may hit, and is not followed inside the handler. `eoir` is the last write to
`GICC_EOIR`. -/
structure Arm where
  r : Reg → UInt32
  sp : UInt32 → UInt32
  lr : UInt32 → UInt32
  spsr : UInt32 → UInt32
  cpsr : UInt32
  pc : UInt32
  mem : WordMem
  eoir : UInt32

/-- What a task must find again: r0-r12, lr, sp, pc and the status word. -/
structure Context where
  r : Reg → UInt32
  lr : UInt32
  sp : UInt32
  pc : UInt32
  cpsr : UInt32

/-- `CPSR.M`. -/
def cpsr_mode (cpsr : UInt32) : UInt32 := cpsr &&& 0x1F

namespace Arm

def mode (A : Arm) : UInt32 := cpsr_mode A.cpsr

def set (A : Arm) (rd : Reg) (v : UInt32) : Arm := { A with r := update A.r rd v }

/-- `sub lr, lr, #4`. -/
def sub_lr (A : Arm) : Arm := { A with lr := update A.lr A.mode (A.lr A.mode - 4) }

def cps (A : Arm) (mode : UInt32) : Arm := { A with cpsr := (A.cpsr &&& ~~~0x1F) ||| mode }

/-- `srsdb sp!, #mode`. -/
def srsdb (A : Arm) (mode : UInt32) : Arm :=
  let sp := A.sp mode - 8
  { A with
    sp := update A.sp mode sp
    mem := store_words A.mem sp [A.lr A.mode, A.spsr A.mode] }

/-- `push {r0-r12, lr}`. -/
def push (A : Arm) : Arm :=
  let sp := A.sp A.mode - 56
  { A with
    sp := update A.sp A.mode sp
    mem := store_words A.mem sp (Reg.all.map A.r ++ [A.lr A.mode]) }

/-- `pop {r0-r12, lr}`. -/
def pop (A : Arm) : Arm :=
  let sp := A.sp A.mode
  { A with
    r := fun reg => A.mem (cell sp reg.index)
    lr := update A.lr A.mode (A.mem (cell sp 13))
    sp := update A.sp A.mode (sp + 56) }

/-- `rfeia sp!`. -/
def rfeia (A : Arm) : Arm :=
  let sp := A.sp A.mode
  { A with
    pc := A.mem sp
    cpsr := A.mem (cell sp 1)
    sp := update A.sp A.mode (sp + 8) }

/-- The core takes an IRQ: the link register is 4 past the next instruction, and IRQs are masked. -/
def irq_entry (A : Arm) : Arm :=
  { A with
    lr := update A.lr MODE_IRQ (A.pc + 4)
    spsr := update A.spsr MODE_IRQ A.cpsr
    cpsr := (A.cpsr &&& ~~~0x1F) ||| MODE_IRQ ||| 0x80 }

/-- The context of code that runs in SVC mode. -/
def context (A : Arm) : Context where
  r := A.r
  lr := A.lr MODE_SVC
  sp := A.sp MODE_SVC
  pc := A.pc
  cpsr := A.cpsr

end Arm

/-- The C functions that the handler calls, as what they make of the core. -/
structure CCode where
  irq_dispatch : Arm → Arm
  timer_tick_handler : Arm → Arm
  scheduler_switch_context : Arm → Arm

section Handler

-- `p_task_control_block` is the address of the array, `core_id` is `MPIDR & 3`
variable (p_task_control_block core_id : UInt32)

/-- The first instructions of `_irq_handler`. -/
def irq_save (A : Arm) : Arm := (((A.sub_lr.srsdb MODE_SVC).cps MODE_SVC).push)

/-- `pop {r0-r12, lr}; rfeia sp!`. -/
def irq_done (A : Arm) : Arm := A.pop.rfeia

def irq_eoi (A : Arm) : Arm :=
  let A := A.set .r0 0xFF842000
  irq_done { A with eoir := A.r .r4 }

/-- From the load of `GICC_IAR` to the test of the interrupt ID. -/
def irq_ack (iar : UInt32) (A : Arm) : Arm :=
  let A := ((A.set .r0 0xFF842000).set .r1 iar).set .r4 iar
  let A := A.set .r3 0x3FF
  A.set .r2 (A.r .r1 &&& A.r .r3)

/-- `ldr r0, =p_task_control_block; add r0, r0, r5, lsl #2; ldr r1, [r0]`. -/
def load_tcb (A : Arm) : Arm :=
  let A := A.set .r0 p_task_control_block
  let A := A.set .r0 (A.r .r0 + (A.r .r5 <<< 2))
  A.set .r1 (A.mem (A.r .r0))

/-- `cntx_switch$` up to the calls: the stack pointer goes to the TCB. -/
def cntx_save (A : Arm) : Arm :=
  let A := A.set .r5 core_id
  let A := load_tcb p_task_control_block A
  Arm.cps { A with mem := update A.mem (A.r .r1) (A.sp A.mode) } MODE_IRQ

/-- `cntx_switch$` from the calls on: the stack pointer of the TCB that is current now. -/
def cntx_load (A : Arm) : Arm :=
  let A := load_tcb p_task_control_block (A.cps MODE_SVC)
  { A with sp := update A.sp A.mode (A.mem (A.r .r1)) }

/-- Up to the call of `irq_dispatch`. -/
def irq_call (A : Arm) : Arm :=
  let A := A.cps MODE_IRQ
  A.set .r0 (A.r .r2)

/-- `source` is the core's IRQ Source register and `iar` what `GICC_IAR` acknowledges. A mailbox IPI
abandons the task. -/
def irq_handler (C : CCode) (source iar : UInt32) (A : Arm) : Option Arm :=
  let A := irq_save A
  let A := A.set .r5 core_id
  let A := (A.set .r0 0xFF800060).set .r1 source
  if A.r .r1 &&& 0x10 ≠ 0 then none
  else
    let A := irq_ack iar A
    if A.r .r2 = A.r .r3 then some (irq_done A)
    else if A.r .r2 = 30 then
      let A := C.timer_tick_handler (cntx_save p_task_control_block core_id A)
      some (irq_eoi (cntx_load p_task_control_block (C.scheduler_switch_context A)))
    else some (irq_eoi ((C.irq_dispatch (irq_call A)).cps MODE_SVC))

/-- The core when `_irq_handler` tests the interrupt ID. -/
def irq_acked (source iar : UInt32) (A : Arm) : Arm :=
  irq_ack iar ((((irq_save A).set .r5 core_id).set .r0 0xFF800060).set .r1 source)

/-- `start_first_task` up to its `pop`. -/
def start_load (A : Arm) : Arm :=
  let A := A.set .r0 core_id
  let A := A.set .r2 p_task_control_block
  let A := A.set .r2 (A.r .r2 + (A.r .r0 <<< 2))
  let A := A.set .r1 (A.mem (A.r .r2))
  { A with sp := update A.sp A.mode (A.mem (A.r .r1)) }

def start_first_task (A : Arm) : Arm := irq_done (start_load p_task_control_block core_id A)

end Handler

/-- The stores of `task_init_stack`, from the highest address down: status word, pc, lr, r12 to r1,
r0. Returns the address of the last one. -/
def init_frame (mem : WordMem) (top_of_stack entry lr params : UInt32) : WordMem × UInt32 :=
  let mem := update mem top_of_stack 0x00000013
  let top_of_stack := top_of_stack - 4
  let mem := update mem top_of_stack entry
  let top_of_stack := top_of_stack - 4
  let mem := update mem top_of_stack lr
  let top_of_stack := top_of_stack - 4
  let stack := zeros 12 mem top_of_stack
  (update stack.1 stack.2 params, stack.2)
where
  /-- The loop over r12 down to r1. -/
  zeros : Nat → WordMem → UInt32 → WordMem × UInt32
    | 0, mem, top_of_stack => (mem, top_of_stack)
    | i + 1, mem, top_of_stack => zeros i (update mem top_of_stack 0) (top_of_stack - 4)

def task_init_stack (task_exit_trap : UInt32) (mem : WordMem)
    (top_of_stack task_function task_params : UInt32) : WordMem × UInt32 :=
  init_frame mem top_of_stack task_function task_exit_trap task_params

/-- The idle frame of `scheduler_init`. -/
def idle_init_stack (mem : WordMem) (top idle_task_func : UInt32) : WordMem × UInt32 :=
  init_frame mem top idle_task_func 0 0

/-- The words of a frame, upwards. -/
def Context.frame (c : Context) : List UInt32 := Reg.all.map c.r ++ [c.lr, c.pc, c.cpsr]

/-- What a task starts with: its parameter in r0, and the address past the frame as stack pointer. -/
def first_context (top_of_stack entry lr params : UInt32) : Context where
  r reg := if reg = .r0 then params else 0
  lr := lr
  sp := top_of_stack + 4
  pc := entry
  cpsr := 0x00000013

/-- A task's first instruction finds its parameter in r0, its caller in lr, and IRQs enabled in SVC
mode. -/
structure Context.Starts (c : Context) (entry lr params : UInt32) : Prop where
  r0 : c.r .r0 = params
  pc : c.pc = entry
  lr : c.lr = lr
  mode : cpsr_mode c.cpsr = MODE_SVC
  irqs : c.cpsr &&& 0x80 = 0

theorem first_context_starts (top_of_stack entry lr params : UInt32) :
    (first_context top_of_stack entry lr params).Starts entry lr params where
  r0 := rfl
  pc := rfl
  lr := rfl
  mode := by
    show cpsr_mode 0x13 = MODE_SVC
    decide
  irqs := by
    show (0x13 : UInt32) &&& 0x80 = 0
    decide

section Save

variable {A B : Arm} {c : Context}

theorem frame_length (c : Context) : c.frame.length = 16 := rfl

theorem cps_mode_svc (A : Arm) : (A.cps MODE_SVC).mode = MODE_SVC := by
  apply UInt32.eq_of_toBitVec_eq
  ext i hi
  simp [Arm.mode, Arm.cps, cpsr_mode, MODE_SVC]
  interval_cases i <;> simp

theorem irq_entry_mode (A : Arm) : A.irq_entry.mode = MODE_IRQ := by
  apply UInt32.eq_of_toBitVec_eq
  ext i hi
  simp [Arm.mode, Arm.irq_entry, cpsr_mode, MODE_IRQ]
  interval_cases i <;> simp

/-- The return state takes 8 bytes of the frame, the registers the other 56. -/
theorem frame_sp (sp : UInt32) : sp - 8 - 56 = sp - 64 := by
  rw [UInt32.sub_eq_add_neg, UInt32.sub_eq_add_neg, UInt32.sub_eq_add_neg, UInt32.add_assoc]
  rfl

theorem irq_save_mem (A : Arm) : (irq_save A.irq_entry).mem =
    store_words (store_words A.mem (A.sp MODE_SVC - 8) [A.pc, A.cpsr]) (A.sp MODE_SVC - 64)
      (Reg.all.map A.r ++ [A.lr MODE_SVC]) := by
  have hmode : A.irq_entry.sub_lr.mode = MODE_IRQ := irq_entry_mode A
  unfold irq_save Arm.push
  rw [cps_mode_svc]
  dsimp only [Arm.cps, Arm.srsdb]
  rw [hmode]
  unfold Arm.sub_lr
  rw [irq_entry_mode]
  dsimp only [Arm.irq_entry]
  have hne : MODE_SVC ≠ MODE_IRQ := by decide
  rw [update_self, update_self, update_self, update_self, update_of_ne hne, update_of_ne hne,
    frame_sp, UInt32.add_sub_cancel]

theorem irq_save_sp (A : Arm) : (irq_save A.irq_entry).sp MODE_SVC = A.sp MODE_SVC - 64 := by
  unfold irq_save Arm.push
  rw [cps_mode_svc]
  dsimp only [Arm.cps, Arm.srsdb, Arm.sub_lr, Arm.irq_entry]
  rw [update_self, update_self, frame_sp]

/-- What `_irq_handler` pushes on the stack of a task in SVC mode is the task's frame. -/
theorem irq_save_stored (A : Arm) :
    StoredWords A.mem (irq_save A.irq_entry).mem (A.sp MODE_SVC - 64) A.context.frame := by
  have hsplit : A.context.frame = (Reg.all.map A.r ++ [A.lr MODE_SVC]) ++ [A.pc, A.cpsr] := rfl
  have hcell : cell (A.sp MODE_SVC - 64) 14 = A.sp MODE_SVC - 8 := by
    unfold cell
    rw [UInt32.sub_eq_add_neg, UInt32.sub_eq_add_neg, UInt32.add_assoc]
    rfl
  have hlen : (Reg.all.map A.r ++ [A.lr MODE_SVC]).length = 14 := rfl
  rw [irq_save_mem, hsplit]
  refine StoredWords.append ?_ (store_words_stored _ _ _ ?_) ?_
  · rw [hlen, hcell]
    exact store_words_stored _ _ _ (by simp)
  · rw [hlen]
    decide
  · rw [hlen]
    simp

/-- A frame at the stack pointer is what the core leaves the handler with. -/
theorem irq_done_context (hmode : A.mode = MODE_SVC)
    (hframe : HoldsWords A.mem (A.sp MODE_SVC) c.frame) (hsp : c.sp = cell (A.sp MODE_SVC) 16) :
    (irq_done A).context = c := by
  have hmode' : A.pop.mode = MODE_SVC := hmode
  have hreg : ∀ reg, A.mem (cell (A.sp MODE_SVC) reg.index) = c.r reg := by
    intro reg
    have hlt : reg.index < c.frame.length := by
      rw [frame_length]
      cases reg <;> decide
    rw [hframe reg.index hlt]
    cases reg <;> rfl
  have hlr : A.mem (cell (A.sp MODE_SVC) 13) = c.lr := hframe 13 (by rw [frame_length]; decide)
  have hpc : A.mem (cell (A.sp MODE_SVC) 14) = c.pc := hframe 14 (by rw [frame_length]; decide)
  have hcpsr : A.mem (cell (A.sp MODE_SVC) 15) = c.cpsr := hframe 15 (by rw [frame_length]; decide)
  have hpop : A.pop.sp MODE_SVC = cell (A.sp MODE_SVC) 14 := by
    unfold Arm.pop
    rw [hmode]
    dsimp only
    rw [update_self]
    rfl
  have hlr' : A.pop.lr MODE_SVC = c.lr := by
    unfold Arm.pop
    rw [hmode, ← hlr]
    dsimp only
    rw [update_self]
  have hr : A.pop.r = c.r := by
    unfold Arm.pop
    rw [hmode]
    exact funext hreg
  have hend : cell (A.sp MODE_SVC) 14 + 8 = c.sp := hsp ▸ UInt32.add_assoc ..
  unfold irq_done Arm.context Arm.rfeia
  rw [hmode', hpop]
  dsimp only
  rw [hr, hlr', update_self, hend, cell_add]
  exact congrArg₂ (Context.mk c.r c.lr c.sp) hpc hcpsr

section Handler

variable {p core source iar : UInt32} {C : CCode}

/-- The ways through `_irq_handler`. -/
theorem irq_handler_eq (p core source iar : UInt32) (C : CCode) (A : Arm) :
    irq_handler p core C source iar A =
      if source &&& 0x10 ≠ 0 then none
      else if iar &&& 0x3FF = 0x3FF then some (irq_done (irq_acked core source iar A))
      else if iar &&& 0x3FF = 30 then
        some (irq_eoi (cntx_load p (C.scheduler_switch_context (C.timer_tick_handler
          (cntx_save p core (irq_acked core source iar A))))))
      else some (irq_eoi ((C.irq_dispatch (irq_call (irq_acked core source iar A))).cps MODE_SVC)) :=
  rfl

theorem irq_acked_mode (core source iar : UInt32) (A : Arm) :
    (irq_acked core source iar A).mode = MODE_SVC := cps_mode_svc _

/-- The stack pointer goes to the TCB that the core's slot names. -/
theorem cntx_save_mem (hmode : A.mode = MODE_SVC) : (cntx_save p core A).mem =
    update A.mem (A.mem (p + (core <<< 2))) (A.sp MODE_SVC) := by
  rw [← hmode]
  rfl

theorem cntx_load_mode : (cntx_load p A).mode = MODE_SVC := cps_mode_svc A

/-- The stack pointer comes from the TCB that the core's slot names. -/
theorem cntx_load_sp (hcore : A.r .r5 = core) :
    (cntx_load p A).sp MODE_SVC = A.mem (A.mem (p + (core <<< 2))) := by
  have hmode : (load_tcb p (A.cps MODE_SVC)).mode = MODE_SVC := cps_mode_svc A
  unfold cntx_load
  dsimp only
  rw [hmode, update_self, ← hcore]
  rfl

theorem irq_eoi_context (hmode : A.mode = MODE_SVC)
    (hframe : HoldsWords A.mem (A.sp MODE_SVC) c.frame) (hsp : c.sp = cell (A.sp MODE_SVC) 16) :
    (irq_eoi A).context = c :=
  irq_done_context hmode hframe hsp

theorem start_load_sp (hmode : A.mode = MODE_SVC) :
    (start_load p core A).sp MODE_SVC = A.mem (A.mem (p + (core <<< 2))) := by
  have hmode' : ((((A.set .r0 core).set .r2 p).set .r2 (p + (core <<< 2))).set .r1
      (A.mem (p + (core <<< 2)))).mode = MODE_SVC := hmode
  show update A.sp _ _ MODE_SVC = _
  rw [← hmode']
  exact update_self ..

end Handler

end Save

section InitFrame

variable {mem mem' : WordMem} {top : UInt32} {ws : List UInt32}

/-- The loop stores `n` zeros below what has been stored. -/
theorem zeros_stored (n : Nat) (mem' : WordMem) (top : UInt32) (ws : List UInt32)
    (h : StoredWords mem mem' (cell top 1) ws) (hlen : ws.length + n ≤ 2 ^ 30) :
    (init_frame.zeros n mem' top).2 = top - UInt32.ofNat (4 * n) ∧
      StoredWords mem (init_frame.zeros n mem' top).1 (cell (init_frame.zeros n mem' top).2 1)
        (List.replicate n 0 ++ ws) := by
  induction n generalizing mem' top ws with
  | zero => exact ⟨(UInt32.sub_zero top).symm, h⟩
  | succ n ih =>
    have hcell : cell (top - 4) 1 = top := UInt32.sub_add_cancel ..
    obtain ⟨htop, hstored⟩ := ih (update mem' top 0) (top - 4) (0 :: ws)
      (by rw [hcell]; exact h.push (by omega) 0) (by rw [List.length_cons]; omega)
    refine ⟨htop.trans ?_, ?_⟩
    · rw [UInt32.sub_eq_add_neg, UInt32.sub_eq_add_neg, UInt32.sub_eq_add_neg, UInt32.add_assoc,
        Nat.mul_succ, UInt32.ofNat_add, UInt32.neg_add, UInt32.sub_eq_add_neg, UInt32.add_comm (-4)]
      rfl
    · rw [List.replicate_succ', List.append_assoc]
      exact hstored

/-- The frame that `task_init_stack` and `scheduler_init` build is that of the first context. -/
theorem init_frame_stored (mem : WordMem) (top entry lr params : UInt32) :
    (init_frame mem top entry lr params).2 = top - 60 ∧
      StoredWords mem (init_frame mem top entry lr params).1 (top - 60)
        (first_context top entry lr params).frame := by
  have hcell : ∀ a : UInt32, cell (a - 4) 1 = a := fun a => UInt32.sub_add_cancel ..
  have hspsr := (StoredWords.nil mem (cell top 1)).push (by decide) 0x00000013
  have hpc := StoredWords.push (a := top - 4) (by rw [hcell]; exact hspsr) (by simp) entry
  have hlr := StoredWords.push (a := top - 4 - 4) (by rw [hcell]; exact hpc) (by simp) lr
  obtain ⟨htop, hzeros⟩ := zeros_stored 12 _ (top - 4 - 4 - 4) _ (by rw [hcell]; exact hlr) (by simp)
  have hend : top - 4 - 4 - 4 - UInt32.ofNat (4 * 12) = top - 60 := by
    simp only [UInt32.sub_eq_add_neg, UInt32.add_assoc]
    rfl
  rw [hend] at htop
  have hr0 := hzeros.push (by simp) params
  rw [htop] at hr0
  refine ⟨htop, ?_⟩
  unfold init_frame
  dsimp only
  rw [htop]
  exact hr0

end InitFrame

end Rpitos
