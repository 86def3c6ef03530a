import Mathlib.Logic.Function.Basic
import Rpitos.Kernel.Types
import Rpitos.Lib.Polling

/-!
# Drivers.I2c

The transfers of `i2c.c`. A read of `S` or of `FIFO` may give any value: `BSCRegs` holds the values
of the reads one after the other, `I2cState` how many there have been and what the driver has stored.
The pins, the clock and the channel's set-up are left out.
-/

namespace Rpitos

open Function (update)
open StatusCode

def I2C0_BASE : UInt32 := 0xFE205000
def I2C1_BASE : UInt32 := 0xFE804000
def I2C3_BASE : UInt32 := 0xFE205600
def I2C4_BASE : UInt32 := 0xFE205800
def I2C5_BASE : UInt32 := 0xFE205A00
def I2C6_BASE : UInt32 := 0xFE205C00

def C_I2CEN : UInt32 := (1 : UInt32) <<< 15
def C_ST : UInt32 := (1 : UInt32) <<< 7
def C_CLEAR : UInt32 := (1 : UInt32) <<< 4
def C_READ : UInt32 := (1 : UInt32) <<< 0
def C_WRITE : UInt32 := (0 : UInt32) <<< 0

def S_CLKT : UInt32 := (1 : UInt32) <<< 9
def S_ERR : UInt32 := (1 : UInt32) <<< 8
def S_RXD : UInt32 := (1 : UInt32) <<< 5
def S_TXD : UInt32 := (1 : UInt32) <<< 4
def S_DONE : UInt32 := (1 : UInt32) <<< 1
def S_TA : UInt32 := (1 : UInt32) <<< 0

def S_CLEAR_ALL : UInt32 := S_CLKT ||| S_ERR ||| S_DONE

def I2C_FIFO_DEPTH : Nat := 16
def I2C_NUM_CHANNELS : Nat := 7

/-- `regs` of the channels. -/
def i2c_hw_table : List (Option UInt32) :=
  [some I2C0_BASE, some I2C1_BASE, none, some I2C3_BASE, some I2C4_BASE, some I2C5_BASE,
    some I2C6_BASE]

def i2c_channel_regs (channel : UInt8) : Option UInt32 :=
  if channel.toNat ≥ I2C_NUM_CHANNELS then none else i2c_hw_table.getD channel.toNat none

/-- What the reads of a channel's registers give: one value for each read. -/
structure BSCRegs where
  S : Nat → UInt32
  FIFO : Nat → UInt32

/-- A store to a register. -/
inductive BSCStore where
  | C (v : UInt32)
  | S (v : UInt32)
  | DLEN (v : UInt32)
  | A (v : UInt32)
  | FIFO (v : UInt32)
  deriving DecidableEq, Repr

/-- `configured`: the entry of `s_i2c_configs` is not NULL. `buf` is the memory that the caller wants
the bytes in. -/
structure I2cState where
  configured : UInt8 → Bool
  s_i2c_last_status : UInt8 → UInt32
  s_reads : Nat
  fifo_reads : Nat
  stores : List BSCStore
  buf : Nat → UInt8

def I2cState.store (st : I2cState) (r : BSCStore) : I2cState :=
  { st with stores := st.stores ++ [r] }

/-- The first `timeout` of a transfer, that of its loop over the bytes. -/
def transfer_timeout : Nat := 1000000

/-- The other timeouts. -/
def done_timeout : Nat := 10000

/-- `while ((index < len) && timeout > 0)`: one byte moves at each status with `ready`. -/
def transfer_loop (regs : BSCRegs) (ready : UInt32) (move : I2cState → Nat → I2cState) (len : Nat) :
    Nat → Nat → I2cState → I2cState
  | 0, _, st => st
  | timeout + 1, index, st =>
    if index < len then
      let status := regs.S st.s_reads
      let st := { st with s_reads := st.s_reads + 1 }
      if flagged (S_ERR ||| S_CLKT) status then st
      else if flagged ready status then
        transfer_loop regs ready move len timeout (index + 1) (move st index)
      else transfer_loop regs ready move len timeout index st
    else st

/-- `regs->FIFO = buf[index]`. -/
def feed (buf : Nat → UInt8) (st : I2cState) (index : Nat) : I2cState :=
  st.store (.FIFO (buf index).toUInt32)

/-- `buf[index] = (uint8_t)regs->FIFO`. -/
def drain (regs : BSCRegs) (st : I2cState) (index : Nat) : I2cState :=
  { st with
    fifo_reads := st.fifo_reads + 1
    buf := update st.buf index (regs.FIFO st.fifo_reads).toUInt8 }

/-- From behind the loop over the bytes to the return. -/
def finish (regs : BSCRegs) (channel : UInt8) (st : I2cState) : StatusCode × I2cState :=
  let pos := (spin (fun s => !flagged (S_DONE ||| S_ERR ||| S_CLKT) s) regs.S st.s_reads
    done_timeout).1
  let status := regs.S pos
  let st := { st with
    s_reads := pos + 1
    s_i2c_last_status := update st.s_i2c_last_status channel status }
  if flagged S_CLKT status then (E_TIMED_OUT, st.store (.C 0))
  else if flagged S_ERR status then (E_DATA, st)
  else if !flagged S_DONE status then (E_TIMED_OUT, st.store (.C 0))
  else (E_OK, st)

def i2c_channel_write (regs : BSCRegs) (st : I2cState) (channel addr : UInt8) (buf : Nat → UInt8)
    (len : UInt16) : StatusCode × I2cState :=
  if len = 0 then (E_INVALID_ARGS, st)
  else if !st.configured channel then (E_NOT_INITIALIZED, st)
  else if i2c_channel_regs channel = none then (E_NOTSUPP, st)
  else
    let st := st.store (.S S_CLEAR_ALL)
    let st := st.store (.A addr.toUInt32)
    let st := st.store (.DLEN len.toUInt32)
    let st := st.store (.C (C_I2CEN ||| C_ST ||| C_WRITE))
    finish regs channel (transfer_loop regs S_TXD (feed buf) len.toNat transfer_timeout 0 st)

def i2c_channel_read (regs : BSCRegs) (st : I2cState) (channel addr : UInt8) (len : UInt16) :
    StatusCode × I2cState :=
  if len = 0 then (E_INVALID_ARGS, st)
  else if !st.configured channel then (E_NOT_INITIALIZED, st)
  else if i2c_channel_regs channel = none then (E_NOTSUPP, st)
  else
    let st := st.store (.S S_CLEAR_ALL)
    let st := st.store (.A addr.toUInt32)
    let st := st.store (.DLEN len.toUInt32)
    let st := st.store (.C (C_I2CEN ||| C_ST ||| C_READ))
    finish regs channel (transfer_loop regs S_RXD (drain regs) len.toNat transfer_timeout 0 st)

/-- The part of `i2c_channel_write_read` from `C_CLEAR` to `C_I2CEN | C_ST`. -/
def start_write (st : I2cState) (addr : UInt8) (tx_buf : Nat → UInt8) (tx_len : UInt16) :
    I2cState :=
  let st := st.store (.C C_CLEAR)
  let st := st.store (.S S_CLEAR_ALL)
  let st := st.store (.A addr.toUInt32)
  let st := st.store (.DLEN tx_len.toUInt32)
  let st := st.store (.C C_I2CEN)
  let st := (List.range tx_len.toNat).foldl (feed tx_buf) st
  st.store (.C (C_I2CEN ||| C_ST))

/-- The part from `DLEN = rx_len` on. -/
def chain_read (regs : BSCRegs) (st : I2cState) (channel : UInt8) (rx_len : UInt16) :
    StatusCode × I2cState :=
  let st := st.store (.DLEN rx_len.toUInt32)
  let st := st.store (.C (C_I2CEN ||| C_ST ||| C_READ))
  finish regs channel (transfer_loop regs S_RXD (drain regs) rx_len.toNat transfer_timeout 0 st)

def i2c_channel_write_read (regs : BSCRegs) (st : I2cState) (channel addr : UInt8)
    (tx_buf : Nat → UInt8) (tx_len rx_len : UInt16) : StatusCode × I2cState :=
  if !st.configured channel then (E_NOT_INITIALIZED, st)
  else if i2c_channel_regs channel = none then (E_NOTSUPP, st)
  else if tx_len.toNat > I2C_FIFO_DEPTH then (E_INVALID_ARGS, st)
  else
    let st := start_write st addr tx_buf tx_len
    let waited := spin (fun s => !flagged (S_TA ||| S_DONE ||| S_ERR ||| S_CLKT) s) regs.S
      st.s_reads done_timeout
    let status := regs.S waited.1
    let st := { st with
      s_reads := waited.1 + 1
      s_i2c_last_status := update st.s_i2c_last_status channel status }
    if waited.2 = 0 then (E_TIMED_OUT, st.store (.C 0))
    else if flagged S_CLKT status then (E_TIMED_OUT, st.store (.C 0))
    else if flagged S_ERR status then (E_DATA, st)
    else chain_read regs st channel rx_len

/-! ## What a transfer moves -/

/-- What has been stored to `FIFO`. -/
def fifo_data : List BSCStore → List UInt32
  | [] => []
  | .FIFO v :: rest => v :: fifo_data rest
  | _ :: rest => fifo_data rest

/-- Between the states exactly these bytes went into the FIFO, in this order. -/
def Fed (bytes : List UInt8) (st st' : I2cState) : Prop :=
  fifo_data st'.stores = fifo_data st.stores ++ bytes.map UInt8.toUInt32

/-- Between the states exactly `len` bytes came out of the FIFO, and they are in the buffer in this
order. -/
def Received (regs : BSCRegs) (len : Nat) (st st' : I2cState) : Prop :=
  st'.fifo_reads = st.fifo_reads + len ∧
    ∀ i, st'.buf i = if i < len then (regs.FIFO (st.fifo_reads + i)).toUInt8 else st.buf i

end Rpitos
