import Rpitos.Lib.Reach
import Rpitos.Kernel.Touches

/-!
# Drivers.Uart

The buffered channel of `uart.c` over the kernel, from `uart_channel_task_start` on: the channel is
`s_buffered_channel` and `uart_task_started` is set. A step of `UartSystem` is the locked section of
a producer, a producer's `semaphore_give`, one access of `uart_tx_task` to what it shares, one beat
of the DMA engine, its interrupt handler, or anything the rest of the program does that leaves the
channel's two semaphores alone.

`uart_buf` holds one byte per word. `p_uart_buf_left` is the slot of the last byte consumed,
`p_uart_buf_right` of the last byte produced.
-/

namespace Rpitos

open Function

abbrev UART_BUFFER_SIZE : Nat := 2056

def SEMAPHORE_TAKE_BLOCKING : Int := -1

/-- What `uart_channel_task_start` leaves for the channel. -/
structure UartChannel where
  is_dma_enabled : Bool
  uart_tcb : Tcb
  uart_data_ready : SemaphoreId
  uart_dma_done : SemaphoreId

/-- The `semaphore_init`s of `uart_channel_task_start`. -/
def uart_semaphores_init {L : Type} [ListOps L ItemRef ListRef] (K : Kernel L) (ch : UartChannel) :
    Kernel L :=
  let K := semaphore_init K ch.uart_data_ready 1 0
  if ch.is_dma_enabled then semaphore_init K ch.uart_dma_done 1 0 else K

/-- A transfer that `uart_dma_tx_run` started: `len` words from slot `start`, of which `beats` have
been written to the data register. -/
structure DmaRun where
  start : Nat
  len : Nat
  beats : Nat
  deriving DecidableEq, Repr

/-- The next step of `uart_tx_task`. -/
inductive UartTxPc where
  /-- The call of `semaphore_take(&uart_data_ready, ..)`. -/
  | take_data
  | taking_data
  /-- The test of the drain loop. -/
  | loop
  /-- With `left` loaded: the second load of `p_uart_buf_right`, and `uart_dma_tx_run`. -/
  | dma_start (left : Nat)
  /-- The call of `semaphore_take(&uart_dma_done, ..)`. -/
  | take_done (left run : Nat)
  | taking_done (left run : Nat)
  | dma_advance (left run : Nat)
  | pio_advance
  /-- The load of the slot that `p_uart_buf_left` now names. -/
  | pio_load
  /-- In `uart_channel_tx_raw`. -/
  | pio_write (byte : UInt8)
  deriving DecidableEq, Repr

/-- The task is in its drain loop. -/
@[simp] def UartTxPc.draining : UartTxPc → Bool
  | .take_data => false
  | .taking_data => false
  | _ => true

/-- `gives_due` producers are between their locked section and their give. `enqueued` and
`transmitted` are the bytes that went into `uart_buf` and out of the data register so far. -/
structure UartSystem where
  system : System Links
  channel : UartChannel
  uart_buf : Nat → UInt32
  p_uart_buf_left : Nat
  p_uart_buf_right : Nat
  pc : UartTxPc
  dma : Option DmaRun
  gives_due : Nat
  enqueued : List UInt8
  transmitted : List UInt8

inductive UartAction where
  /-- A step of the kernel by the rest of the program. -/
  | kernel (a : Action)
  /-- The locked sections of the producers. -/
  | uart_channel_send_byte (byte : UInt8)
  | uart_channel_print (str : List UInt8)
  /-- The give that follows one of them. -/
  | semaphore_give
  | uart_tx_task
  /-- The engine reads one word of the run and writes it to the data register. -/
  | dma_beat
  | uart_dma_irq_handler

namespace UartSystem

/-- The kernel steps of the rest of the program. -/
def foreign (X : UartSystem) (a : Action) : Prop :=
  a.caller ≠ some X.channel.uart_tcb ∧
    X.system.touches X.channel.uart_data_ready a = false ∧
    X.system.touches X.channel.uart_dma_done a = false

instance (X : UartSystem) (a : Action) : Decidable (X.foreign a) :=
  inferInstanceAs (Decidable (_ ∧ _ ∧ _))

/-- How many bytes the indices say are in the buffer. -/
def stored (X : UartSystem) : Nat :=
  (X.p_uart_buf_right + UART_BUFFER_SIZE - X.p_uart_buf_left) % UART_BUFFER_SIZE

/-- `uart_channel_tx`: with a full buffer the byte is dropped. -/
def uart_channel_tx (X : UartSystem) (byte : UInt8) : UartSystem :=
  let next := (X.p_uart_buf_right + 1) % UART_BUFFER_SIZE
  if next = X.p_uart_buf_left then X
  else { X with
    uart_buf := update X.uart_buf next byte.toUInt32
    p_uart_buf_right := next
    enqueued := X.enqueued ++ [byte] }

/-- The locked section of `uart_channel_print`; `str` is the string up to its NUL. -/
def uart_channel_print (X : UartSystem) (str : List UInt8) : UartSystem :=
  str.foldl uart_channel_tx X

/-- `semaphore_take` begins. -/
def take (X : UartSystem) (smph : SemaphoreId) (pc : UartTxPc) : Option UartSystem :=
  match X.system.step (.semaphore_take X.channel.uart_tcb smph SEMAPHORE_TAKE_BLOCKING) with
  | some r => some { X with system := r.2, pc := pc }
  | none => none

/-- A section of a `semaphore_take`; what it returns is not looked at. -/
def taking (X : UartSystem) (pc : UartTxPc) : Option UartSystem :=
  match X.system.proceed X.channel.uart_tcb with
  | some ([.take_returns _ _ _], S) => some { X with system := S, pc := pc }
  | some (_, S) => some { X with system := S }
  | none => none

/-- `run`: what is stored, up to the end of `uart_buf`. -/
def run_length (X : UartSystem) (left : Nat) : Nat :=
  let start := (left + 1) % UART_BUFFER_SIZE
  let avail := (X.p_uart_buf_right + UART_BUFFER_SIZE - left) % UART_BUFFER_SIZE
  if UART_BUFFER_SIZE < start + avail then UART_BUFFER_SIZE - start else avail

/-- `uart_dma_tx_run(channel, &uart_buf[start], run)`. -/
def uart_dma_tx_run (X : UartSystem) (left : Nat) : UartSystem :=
  { X with
    dma := some ⟨(left + 1) % UART_BUFFER_SIZE, X.run_length left, 0⟩
    pc := .take_done left (X.run_length left) }

/-- The next step of `uart_tx_task`. -/
def uart_tx_task (X : UartSystem) : Option UartSystem :=
  match X.pc with
  | .take_data => X.take X.channel.uart_data_ready .taking_data
  | .taking_data => X.taking .loop
  | .loop =>
    if X.p_uart_buf_right ≠ X.p_uart_buf_left then
      if X.channel.is_dma_enabled then some { X with pc := .dma_start X.p_uart_buf_left }
      else some { X with pc := .pio_advance }
    else some { X with pc := .take_data }
  | .dma_start left => some (X.uart_dma_tx_run left)
  | .take_done left run => X.take X.channel.uart_dma_done (.taking_done left run)
  | .taking_done left run => X.taking (.dma_advance left run)
  | .dma_advance left run =>
    some { X with p_uart_buf_left := (left + run) % UART_BUFFER_SIZE, pc := .loop }
  | .pio_advance =>
    some { X with
      p_uart_buf_left := (X.p_uart_buf_left + 1) % UART_BUFFER_SIZE, pc := .pio_load }
  | .pio_load => some { X with pc := .pio_write (X.uart_buf X.p_uart_buf_left).toUInt8 }
  | .pio_write byte => some { X with transmitted := X.transmitted ++ [byte], pc := .loop }

/-- One beat: the data register latches the low eight bits of the word. -/
def dma_beat (X : UartSystem) : Option UartSystem :=
  match X.dma with
  | some d =>
    if d.beats < d.len then
      some { X with
        dma := some { d with beats := d.beats + 1 }
        transmitted := X.transmitted ++ [(X.uart_buf (d.start + d.beats)).toUInt8] }
    else none
  | none => none

/-- `uart_dma_irq_handler`, when the run is complete. -/
def uart_dma_irq_handler (X : UartSystem) : Option UartSystem :=
  match X.dma with
  | some d =>
    if d.beats < d.len then none
    else some { X with system := (X.system.give X.channel.uart_dma_done).2, dma := none }
  | none => none

/-- One step, `none` where it is not possible. -/
def step (X : UartSystem) : UartAction → Option UartSystem
  | .kernel a =>
    if X.foreign a then
      match X.system.step a with
      | some r => some { X with system := r.2 }
      | none => none
    else none
  | .uart_channel_send_byte byte =>
    some { X.uart_channel_tx byte with gives_due := X.gives_due + 1 }
  | .uart_channel_print str =>
    some { X.uart_channel_print str with gives_due := X.gives_due + 1 }
  | .semaphore_give =>
    if 0 < X.gives_due then
      some { X with
        system := (X.system.give X.channel.uart_data_ready).2, gives_due := X.gives_due - 1 }
    else none
  | .uart_tx_task =>
    if X.system.kernel.runs X.channel.uart_tcb = true then X.uart_tx_task else none
  | .dma_beat => X.dma_beat
  | .uart_dma_irq_handler => X.uart_dma_irq_handler

/-- Before the scheduler starts; `K` has the semaphores as `uart_channel_task_start` made them. -/
def boot (K : Kernel Links) (ch : UartChannel) : UartSystem where
  system := Rpitos.boot K.max_count K.count
  channel := ch
  uart_buf _ := 0
  p_uart_buf_left := 0
  p_uart_buf_right := 0
  pc := .take_data
  dma := none
  gives_due := 0
  enqueued := []
  transmitted := []

end UartSystem
end Rpitos
