import Rpitos.Drivers.EmmcHost

/-!
# Drivers.EmmcPio

What the transfers of `emmc.c` through `DATA` move. `pio_read_ok` and `pio_write_ok`: after a success
the buffer holds the addressed sectors, or the sectors the buffer, and nothing else has changed.

* `read_words_block`, `write_words_block`: one block through `DATA`.
* `PioReads.block`, `PioWrites.block`: a round of the loop over the blocks. A count that does not fit
  the 16 bits of `BLKSIZECNT` leaves the loop without a block to wait for.
-/

namespace Rpitos

open Function (update update_self update_of_ne)
open StatusCode

section Returns

variable {r : StatusCode × EmmcHost} {e : StatusCode} {next : EmmcHost → StatusCode × EmmcHost}

theorem or_return_ok (h : (or_return r e next).1 = E_OK) (he : e ≠ E_OK) :
    r.1 = E_OK ∧ or_return r e next = next r.2 := by
  unfold or_return at h ⊢
  by_cases hr : r.1 = E_OK
  · rw [if_pos hr]
    exact ⟨hr, rfl⟩
  · rw [if_neg hr] at h
    exact absurd h he

theorem or_return_it_ok (h : (or_return_it r next).1 = E_OK) :
    r.1 = E_OK ∧ or_return_it r next = next r.2 := by
  unfold or_return_it or_return at h ⊢
  by_cases hr : r.1 = E_OK
  · rw [if_pos hr]
    exact ⟨hr, rfl⟩
  · rw [if_neg hr] at h
    exact absurd h hr

/-- What the first part leaves and the rest keeps holds at every return. -/
theorem or_return_keeps {P : EmmcHost → Prop} (hr : P r.2) (hnext : ∀ H, P H → P (next H).2) :
    P (or_return r e next).2 := by
  unfold or_return
  split
  · exact hnext _ hr
  · exact hr

end Returns

/-! ## Words and bytes -/

/-- A word behind the bytes that have been copied. -/
theorem store_word_copy (dst src : Sector) (off n : Nat) :
    store_word (copy_bytes dst off src n) (off + n) (word_at src n) =
      copy_bytes dst off src (n + 4) := by
  unfold store_word word_at
  rw [word_byte0, word_byte1, word_byte2, word_byte3]
  rfl

theorem blocks_eq (count : UInt32) :
    (((count <<< 16) ||| 512) >>> 16).toNat = count.toNat % 65536 := by
  have hshift : (count <<< 16).toNat = (count.toNat % 65536) <<< 16 := by
    rw [UInt32.toNat_shiftLeft]
    show count.toNat <<< 16 % 2 ^ 32 = _
    rw [Nat.shiftLeft_eq, Nat.shiftLeft_eq]
    omega
  rw [UInt32.toNat_shiftRight, UInt32.toNat_or, hshift]
  show ((count.toNat % 65536) <<< 16 ||| 512) >>> 16 = count.toNat % 65536
  rw [← Nat.shiftLeft_add_eq_or_of_lt (by decide), Nat.shiftRight_eq_div_pow, Nat.shiftLeft_eq]
  omega

namespace EmmcHost

variable {H H' : EmmcHost} {f : IntFlag} {cmd arg : UInt32}

/-! ## Waits and commands -/

/-- `H'` is `H` after waits. -/
def Waited (H H' : EmmcHost) : Prop :=
  H' = { H with waits := H'.waits, INTERRUPT := H'.INTERRUPT }

theorem Waited.refl (H : EmmcHost) : Waited H H := rfl

theorem Waited.trans {H'' : EmmcHost} (h : Waited H H') (h' : Waited H' H'') : Waited H H'' := by
  unfold Waited at *
  rw [h', h]

theorem wait_interrupt_waited (H : EmmcHost) (f : IntFlag) :
    Waited H (H.emmc_wait_interrupt f).2 := by
  unfold emmc_wait_interrupt
  split
  · rfl
  · rfl
  · split <;> rfl

/-- A wait that succeeds has found its flag. -/
theorem wait_interrupt_ok (h : (H.emmc_wait_interrupt f).1 = E_OK) :
    H.INTERRUPT f = true ∧ (H.emmc_wait_interrupt f).2 =
      { H with waits := H.waits + 1, INTERRUPT := update H.INTERRUPT f false } := by
  unfold emmc_wait_interrupt at h ⊢
  split at h
  · cases h
  · cases h
  · split at h
    · rename_i hflag
      exact ⟨hflag, by rw [if_pos hflag]⟩
    · cases h

/-- The command is issued: only the flags that it raises are left. -/
def issued (H : EmmcHost) (cmd arg : UInt32) : EmmcHost :=
  { H with waits := H.waits + 1, INTERRUPT := fun _ => false, ARG1 := arg }.issue cmd

section Send

variable (hresp : cmd &&& CMD_RESP_48B = CMD_RESP_48)
include hresp

theorem send_command_eq (H : EmmcHost) (arg : UInt32) :
    H.emmc_send_command cmd arg = or_return H.emmc_wait_status E_TIMED_OUT fun _ =>
      or_return_it ((H.issued cmd arg).emmc_wait_interrupt .CMD_DONE) fun H => (E_OK, H) := by
  unfold emmc_send_command
  rw [hresp]
  rfl

theorem send_command_ok (h : (H.emmc_send_command cmd arg).1 = E_OK) :
    (H.emmc_send_command cmd arg).2 =
      { H.issued cmd arg with
        waits := (H.issued cmd arg).waits + 1
        INTERRUPT := update (H.issued cmd arg).INTERRUPT .CMD_DONE false } := by
  rw [send_command_eq hresp] at h ⊢
  obtain ⟨-, hnext⟩ := or_return_ok h nofun
  rw [hnext] at h ⊢
  obtain ⟨hwait, hend⟩ := or_return_it_ok h
  rw [hend]
  exact (wait_interrupt_ok hwait).2

/-- Whatever becomes of a command, it has been issued or it has not. -/
theorem send_command_waited (H : EmmcHost) (arg : UInt32) :
    Waited H (H.emmc_send_command cmd arg).2 ∨
      Waited (H.issued cmd arg) (H.emmc_send_command cmd arg).2 := by
  rw [send_command_eq hresp]
  unfold or_return
  split
  · refine .inr ?_
    exact or_return_keeps (wait_interrupt_waited _ _) fun H h => h
  · exact .inl rfl

end Send

theorem issue_pio (hdata : cmd &&& CMD_ISDATA ≠ 0) (hdma : cmd &&& TM_DMA_EN = 0) (H : EmmcHost) :
    H.issue cmd =
      if (H.BLKSIZECNT >>> 16).toNat = 0 then
        { H.raise .CMD_DONE with transfer := none }.raise .DATA_DONE
      else { H.raise .CMD_DONE with
          transfer := some ⟨decide (cmd &&& TM_DAT_DIR_RD = 0), H.addressed,
            (H.BLKSIZECNT >>> 16).toNat, 0, fun _ => 0⟩ }.raise
        (if decide (cmd &&& TM_DAT_DIR_RD = 0) then .WRITE_RDY else .READ_RDY) := by
  unfold issue
  dsimp only
  rw [if_neg hdata, if_neg (not_not_intro hdma)]
  rfl

/-! ## Blocks through `DATA` -/

/-- The flag for which a transfer waits before each block. -/
def ready_flag (write : Bool) : IntFlag := if write then .WRITE_RDY else .READ_RDY

/-- A transfer of `blocks` blocks from `sector` on stands before its block `b`, if there is one: only
then the controller raises the flag. -/
structure Stands (H : EmmcHost) (write : Bool) (sector blocks b : Nat) : Prop where
  transfer : b < blocks → H.transfer = some ⟨write, sector + b, blocks - b, 0, fun _ => 0⟩
  ready : H.INTERRUPT (ready_flag write) = decide (b < blocks)

/-- After the command, before the first block. -/
theorem stands_issued {H : EmmcHost} {cmd arg : UInt32} (hdata : cmd &&& CMD_ISDATA ≠ 0)
    (hdma : cmd &&& TM_DMA_EN = 0) {write : Bool} (hwrite : decide (cmd &&& TM_DAT_DIR_RD = 0) = write)
    {sector blocks : Nat} (hblocks : (H.BLKSIZECNT >>> 16).toNat = blocks)
    (hsector : (if H.is_high_capacity then arg.toNat else arg.toNat / SECTOR_SIZE) = sector)
    (hresp : cmd &&& CMD_RESP_48B = CMD_RESP_48) (h : (H.emmc_send_command cmd arg).1 = E_OK) :
    Stands (H.emmc_send_command cmd arg).2 write sector blocks 0 ∧
      (H.emmc_send_command cmd arg).2.card = H.card ∧
      (H.emmc_send_command cmd arg).2.ram = H.ram := by
  rw [send_command_ok hresp h]
  unfold issued
  rw [issue_pio hdata hdma, hwrite]
  dsimp only
  rw [hblocks]
  by_cases hzero : blocks = 0
  · rw [if_pos hzero]
    refine ⟨⟨by omega, ?_⟩, rfl, rfl⟩
    subst hzero
    cases write <;> rfl
  · rw [if_neg hzero]
    refine ⟨⟨fun _ => ?_, ?_⟩, rfl, rfl⟩
    · rw [← hsector]
      rfl
    · rw [decide_eq_true (by omega)]
      cases write <;> rfl

/-- The last word of a block. -/
theorem next_word_stands {H : EmmcHost} {t : Transfer} {blocks b : Nat} {sector : Nat}
    (hpos : t.pos + 1 = SECTOR_SIZE / 4) (hb : b < blocks) (hsector : t.sector = sector + b)
    (hblocks : t.blocks = blocks - b) (hflag : H.INTERRUPT (ready_flag t.write) = false) :
    Stands (H.next_word t) t.write sector blocks (b + 1) ∧ (H.next_word t).card = H.card ∧
      (H.next_word t).ram = H.ram := by
  unfold next_word
  rw [if_neg (by omega)]
  by_cases hlast : t.blocks = 1
  · rw [if_pos hlast]
    refine ⟨⟨by omega, ?_⟩, rfl, rfl⟩
    rw [decide_eq_false (by omega), ← hflag]
    cases t.write <;> rfl
  · rw [if_neg hlast]
    refine ⟨⟨fun _ => ?_, ?_⟩, rfl, rfl⟩
    · rw [hsector, hblocks]
      rfl
    · rw [decide_eq_true (by omega)]
      exact update_self ..

/-- Words of a block that is read: the first `i` of them. -/
theorem read_words_eq {H : EmmcHost} {t : Transfer} (ht : H.transfer = some t)
    (hread : t.write = false) (hpos : t.pos = 0) (words base : Nat) {i : Nat}
    (hi : i < SECTOR_SIZE / 4) : read_words words base i H =
      { H with
        transfer := some { t with pos := i }
        ram := copy_bytes H.ram (words + 4 * base) (H.card t.sector) (4 * i) } := by
  induction i with
  | zero =>
    obtain ⟨⟩ := H
    obtain ⟨⟩ := t
    cases ht
    cases hpos
    rfl
  | succ i ih =>
    rw [read_words, ih (by omega)]
    unfold read_data next_word
    dsimp only
    rw [hread, if_neg Bool.false_ne_true, if_pos hi]
    dsimp only
    rw [Nat.mul_add, ← Nat.add_assoc, store_word_copy]
    rfl

/-- A block that is read goes to memory whole. -/
theorem read_words_block {H : EmmcHost} {sector blocks b : Nat} {fifo : Sector}
    (ht : H.transfer = some ⟨false, sector + b, blocks - b, 0, fifo⟩) (hb : b < blocks)
    (hflag : H.INTERRUPT .READ_RDY = false) (words base : Nat) :
    Stands (read_words words base (SECTOR_SIZE / 4) H) false sector blocks (b + 1) ∧
      (read_words words base (SECTOR_SIZE / 4) H).card = H.card ∧
      (read_words words base (SECTOR_SIZE / 4) H).ram =
        copy_bytes H.ram (words + 4 * base) (H.card (sector + b)) SECTOR_SIZE := by
  obtain ⟨n, hn⟩ : ∃ n, SECTOR_SIZE / 4 = n + 1 := ⟨127, rfl⟩
  have hsize : SECTOR_SIZE = 4 * n + 4 := by
    unfold SECTOR_SIZE at hn ⊢
    omega
  have hmost := read_words_eq ht rfl rfl words base (show n < SECTOR_SIZE / 4 by omega)
  obtain ⟨hstands, hcard, hram⟩ := next_word_stands (H := { H with
      transfer := some ⟨false, sector + b, blocks - b, n, fifo⟩
      ram := copy_bytes H.ram (words + 4 * base) (H.card (sector + b)) (4 * n) })
    (t := ⟨false, sector + b, blocks - b, n, fifo⟩) hn.symm hb rfl rfl hflag
  rw [hn, read_words, hmost]
  refine ⟨⟨hstands.transfer, hstands.ready⟩, hcard, ?_⟩
  unfold read_data
  dsimp only
  rw [if_neg Bool.false_ne_true]
  dsimp only
  rw [hram, Nat.mul_add, ← Nat.add_assoc, store_word_copy, hsize]

/-- Words of a block that is written: the first `i` of them wait in the controller. -/
theorem write_words_eq {H : EmmcHost} {t : Transfer} (ht : H.transfer = some t)
    (hwrite : t.write = true) (hpos : t.pos = 0) (words base : Nat) {i : Nat}
    (hi : i < SECTOR_SIZE / 4) : write_words words base i H =
      { H with
        transfer := some { t with
          pos := i
          fifo := copy_bytes t.fifo 0 (fun k => H.ram (words + 4 * base + k)) (4 * i) } } := by
  induction i with
  | zero =>
    obtain ⟨⟩ := H
    obtain ⟨⟩ := t
    cases ht
    cases hpos
    rfl
  | succ i ih =>
    have hword : word_at H.ram (words + 4 * (base + i)) =
        word_at (fun k => H.ram (words + 4 * base + k)) (4 * i) := by
      rw [Nat.mul_add, ← Nat.add_assoc]
      rfl
    have hstore := store_word_copy t.fifo (fun k => H.ram (words + 4 * base + k)) 0 (4 * i)
    rw [Nat.zero_add] at hstore
    rw [write_words, ih (by omega)]
    unfold write_data next_word
    dsimp only
    rw [if_pos hwrite, if_pos hi, if_pos hi, hword, hstore]
    rfl

/-- A block that is written is stored with its last word. -/
theorem write_words_block {H : EmmcHost} {sector blocks b : Nat} {fifo : Sector}
    (ht : H.transfer = some ⟨true, sector + b, blocks - b, 0, fifo⟩) (hb : b < blocks)
    (hflag : H.INTERRUPT .WRITE_RDY = false) (words base : Nat) :
    Stands (write_words words base (SECTOR_SIZE / 4) H) true sector blocks (b + 1) ∧
      (write_words words base (SECTOR_SIZE / 4) H).card =
        update H.card (sector + b) (clip fun k => H.ram (words + 4 * base + k)) ∧
      (write_words words base (SECTOR_SIZE / 4) H).ram = H.ram := by
  obtain ⟨n, hn⟩ : ∃ n, SECTOR_SIZE / 4 = n + 1 := ⟨127, rfl⟩
  have hsize : SECTOR_SIZE = 4 * n + 4 := by
    unfold SECTOR_SIZE at hn ⊢
    omega
  have hmost := write_words_eq ht rfl rfl words base (show n < SECTOR_SIZE / 4 by omega)
  have hword : word_at H.ram (words + 4 * (base + n)) =
      word_at (fun k => H.ram (words + 4 * base + k)) (4 * n) := by
    rw [Nat.mul_add, ← Nat.add_assoc]
    rfl
  have hstore := store_word_copy fifo (fun k => H.ram (words + 4 * base + k)) 0 (4 * n)
  rw [Nat.zero_add] at hstore
  have hclip : clip (copy_bytes fifo 0 (fun k => H.ram (words + 4 * base + k)) (4 * n + 4)) =
      clip fun k => H.ram (words + 4 * base + k) := by
    funext k
    unfold clip
    by_cases hk : k < SECTOR_SIZE
    · rw [if_pos hk, if_pos hk, copy_bytes_apply, if_pos (by omega), Nat.sub_zero]
    · rw [if_neg hk, if_neg hk]
  obtain ⟨hstands, hcard, hram⟩ := next_word_stands (H := { H with
      transfer := some ⟨true, sector + b, blocks - b, n,
        copy_bytes fifo 0 (fun k => H.ram (words + 4 * base + k)) (4 * n)⟩
      card := update H.card (sector + b) (clip fun k => H.ram (words + 4 * base + k)) })
    (t := ⟨true, sector + b, blocks - b, n,
      copy_bytes fifo 0 (fun k => H.ram (words + 4 * base + k)) (4 * n + 4)⟩) hn.symm hb rfl rfl
    hflag
  rw [hn, write_words, hmost]
  unfold write_data
  dsimp only
  rw [if_pos rfl, if_neg (by omega), hword, hstore, hclip]
  exact ⟨hstands, hcard, hram⟩

/-- A wait that succeeds has a block to wait for. -/
theorem Stands.wait {H : EmmcHost} {write : Bool} {sector blocks b : Nat} {f : IntFlag}
    (h : Stands H write sector blocks b) (hf : ready_flag write = f)
    (hok : (H.emmc_wait_interrupt f).1 = E_OK) :
    b < blocks ∧
      (H.emmc_wait_interrupt f).2.transfer =
        some ⟨write, sector + b, blocks - b, 0, fun _ => 0⟩ ∧
      (H.emmc_wait_interrupt f).2.INTERRUPT f = false ∧
      (H.emmc_wait_interrupt f).2.card = H.card ∧ (H.emmc_wait_interrupt f).2.ram = H.ram := by
  obtain ⟨hflag, heq⟩ := wait_interrupt_ok hok
  rw [← hf, h.ready] at hflag
  have hb := of_decide_eq_true hflag
  rw [heq]
  exact ⟨hb, h.transfer hb, update_self .., rfl, rfl⟩

/-- The loop over the blocks, for whatever a block that has been waited for makes of the state. -/
theorem pio_loop_ok {ready : IntFlag} {block : Nat → EmmcHost → EmmcHost}
    {P : Nat → EmmcHost → Prop}
    (hstep : ∀ b H, P b H → (H.emmc_wait_interrupt ready).1 = E_OK →
      P (b + 1) (block b (H.emmc_wait_interrupt ready).2)) (left : Nat) :
    ∀ {b : Nat} {H : EmmcHost}, P b H → (pio_loop ready block left b H).1 = E_OK →
      P (b + left) (pio_loop ready block left b H).2 := by
  induction left with
  | zero => exact fun h _ => h
  | succ left ih =>
    intro b H h hok
    rw [pio_loop] at hok ⊢
    obtain ⟨hwait, hnext⟩ := or_return_ok hok nofun
    rw [hnext] at hok ⊢
    rw [show b + (left + 1) = b + 1 + left by omega]
    exact ih (hstep b H h hwait) hok

end EmmcHost

/-- `count` sectors from `sector` on have been read to `buf`, and nothing else has changed. -/
structure BlocksRead (H H' : EmmcHost) (sector buf count : Nat) : Prop where
  card : H'.card = H.card
  ram : ∀ a, H'.ram a = if buf ≤ a ∧ a < buf + SECTOR_SIZE * count then
    H.card (sector + (a - buf) / SECTOR_SIZE) ((a - buf) % SECTOR_SIZE) else H.ram a

/-- `count` sectors from `sector` on have been written from `buf`, and nothing else has changed. -/
structure BlocksWritten (H H' : EmmcHost) (sector buf count : Nat) : Prop where
  ram : H'.ram = H.ram
  card : ∀ s i, i < SECTOR_SIZE → H'.card s i = if sector ≤ s ∧ s < sector + count then
    H.ram (buf + SECTOR_SIZE * (s - sector) + i) else H.card s i

theorem BlocksRead.none {H H' : EmmcHost} {sector buf : Nat} (hcard : H'.card = H.card)
    (hram : H'.ram = H.ram) : BlocksRead H H' sector buf 0 := by
  refine ⟨hcard, fun a => ?_⟩
  rw [if_neg (by omega), hram]

theorem BlocksWritten.none {H H' : EmmcHost} {sector buf : Nat} (hcard : H'.card = H.card)
    (hram : H'.ram = H.ram) : BlocksWritten H H' sector buf 0 := by
  refine ⟨hram, fun s i _ => ?_⟩
  rw [if_neg (by omega), hcard]

namespace EmmcHost

/-! ## PIO -/

/-- Before block `b` of a PIO read. -/
structure PioReads (H₀ : EmmcHost) (sector words blocks b : Nat) (H : EmmcHost) : Prop where
  stands : Stands H false sector blocks b
  read : BlocksRead H₀ H sector words b

/-- Before block `b` of a PIO write. -/
structure PioWrites (H₀ : EmmcHost) (sector words blocks b : Nat) (H : EmmcHost) : Prop where
  stands : Stands H true sector blocks b
  written : BlocksWritten H₀ H sector words b

theorem words_base (words b : Nat) :
    words + 4 * (b * (SECTOR_SIZE / 4)) = words + SECTOR_SIZE * b := by
  unfold SECTOR_SIZE
  omega

theorem PioReads.block {H₀ H : EmmcHost} {sector words blocks b : Nat}
    (h : PioReads H₀ sector words blocks b H)
    (hok : (H.emmc_wait_interrupt .READ_RDY).1 = E_OK) :
    PioReads H₀ sector words blocks (b + 1) (read_words words (b * (SECTOR_SIZE / 4))
      (SECTOR_SIZE / 4) (H.emmc_wait_interrupt .READ_RDY).2) := by
  have hflag : ready_flag false = .READ_RDY := rfl
  obtain ⟨hb, ht, hflag, hcard, hram⟩ := h.stands.wait hflag hok
  obtain ⟨hstands, hcard', hram'⟩ :=
    read_words_block ht hb hflag words (b * (SECTOR_SIZE / 4))
  refine ⟨hstands, (hcard'.trans hcard).trans h.read.card, fun a => ?_⟩
  rw [hram', words_base, copy_bytes_apply, hcard, hram, h.read.card, h.read.ram]
  unfold SECTOR_SIZE
  by_cases hnew : words + 512 * b ≤ a ∧ a < words + 512 * b + 512
  · -- this is block `b`
    rw [if_pos hnew, if_pos (by omega), show (a - words) / 512 = b by omega,
      show (a - words) % 512 = a - (words + 512 * b) by omega]
  · rw [if_neg hnew]
    by_cases hold : words ≤ a ∧ a < words + 512 * b
    · rw [if_pos hold, if_pos (by omega)]
    · rw [if_neg hold, if_neg (by omega)]

theorem PioWrites.block {H₀ H : EmmcHost} {sector words blocks b : Nat}
    (h : PioWrites H₀ sector words blocks b H)
    (hok : (H.emmc_wait_interrupt .WRITE_RDY).1 = E_OK) :
    PioWrites H₀ sector words blocks (b + 1) (write_words words (b * (SECTOR_SIZE / 4))
      (SECTOR_SIZE / 4) (H.emmc_wait_interrupt .WRITE_RDY).2) := by
  have hflag : ready_flag true = .WRITE_RDY := rfl
  obtain ⟨hb, ht, hflag, hcard, hram⟩ := h.stands.wait hflag hok
  obtain ⟨hstands, hcard', hram'⟩ :=
    write_words_block ht hb hflag words (b * (SECTOR_SIZE / 4))
  refine ⟨hstands, (hram'.trans hram).trans h.written.ram, fun s i hi => ?_⟩
  rw [hcard', words_base, hcard, hram, h.written.ram]
  by_cases hnew : s = sector + b
  · subst hnew
    rw [update_self, clip, if_pos hi, if_pos (by omega), Nat.add_sub_cancel_left]
  · rw [update_of_ne hnew, h.written.card s i hi]
    by_cases hold : sector ≤ s ∧ s < sector + b
    · rw [if_pos hold, if_pos (by omega)]
    · rw [if_neg hold, if_neg (by omega)]

theorem set_blocks_count (H : EmmcHost) (count : UInt32) :
    ((H.set_blocks count).BLKSIZECNT >>> 16).toNat = count.toNat % 65536 := blocks_eq count

/-- The argument of a command names the sector, in the one way of addressing or the other. -/
def Addressable (H : EmmcHost) (sector count : Nat) : Prop :=
  H.is_high_capacity = false → SECTOR_SIZE * (sector + count) ≤ 2 ^ 32

theorem sector_arg_eq {H : EmmcHost} {sector : UInt32} {count : Nat}
    (h : H.Addressable sector.toNat count) (hcount : 0 < count) :
    (if H.is_high_capacity then (H.sector_arg sector).toNat
      else (H.sector_arg sector).toNat / SECTOR_SIZE) = sector.toNat := by
  unfold sector_arg
  cases hcap : H.is_high_capacity with
  | true => rfl
  | false =>
    have hlt := h hcap
    unfold SECTOR_SIZE at hlt ⊢
    rw [if_neg Bool.false_ne_true, if_neg Bool.false_ne_true, UInt32.toNat_mul]
    show sector.toNat * 512 % 2 ^ 32 / 512 = sector.toNat
    omega

section Pio

variable {H : EmmcHost} {sector buf count : UInt32}

/-- The command and the loop, for whatever a block that has been waited for makes of the state. -/
theorem pio_blocks_ok (cmd : UInt32) (hdata : cmd &&& CMD_ISDATA ≠ 0) (hdma : cmd &&& TM_DMA_EN = 0)
    {write : Bool} (hwrite : decide (cmd &&& TM_DAT_DIR_RD = 0) = write)
    (hresp : cmd &&& CMD_RESP_48B = CMD_RESP_48) {ready : IntFlag}
    {block : Nat → EmmcHost → EmmcHost} {P : Nat → EmmcHost → Prop}
    (hstart : ∀ K, Stands K write sector.toNat (count.toNat % 65536) 0 → K.card = H.card →
      K.ram = H.ram → P 0 K)
    (hstep : ∀ b K, P b K → (K.emmc_wait_interrupt ready).1 = E_OK →
      P (b + 1) (block b (K.emmc_wait_interrupt ready).2))
    (hcount : 0 < count.toNat) (haddr : H.Addressable sector.toNat count.toNat)
    (hok : (or_return ((H.set_blocks count).emmc_send_command cmd (H.sector_arg sector)) E_CMD
      (pio_loop ready block count.toNat 0)).1 = E_OK) :
    P count.toNat (or_return ((H.set_blocks count).emmc_send_command cmd (H.sector_arg sector)) E_CMD
      (pio_loop ready block count.toNat 0)).2 := by
  obtain ⟨hsend, hnext⟩ := or_return_ok hok nofun
  rw [hnext] at hok ⊢
  obtain ⟨hstands, hcard, hram⟩ := stands_issued hdata hdma hwrite (set_blocks_count H count)
    (sector_arg_eq (H := H) haddr hcount) hresp hsend
  have hloop := pio_loop_ok hstep count.toNat (hstart _ hstands hcard hram) hok
  rwa [Nat.zero_add] at hloop

theorem pio_read_data_ok (hcount : 0 < count.toNat)
    (haddr : H.Addressable sector.toNat count.toNat)
    (hok : (H.pio_read_data sector buf count).1 = E_OK) :
    BlocksRead H (H.pio_read_data sector buf count).2 sector.toNat buf.toNat count.toNat := by
  have hstart : ∀ K, Stands K false sector.toNat (count.toNat % 65536) 0 → K.card = H.card →
      K.ram = H.ram → PioReads H sector.toNat buf.toNat (count.toNat % 65536) 0 K :=
    fun K hstands hcard hram => ⟨hstands, .none hcard hram⟩
  have hstep := fun b K (h : PioReads H sector.toNat buf.toNat (count.toNat % 65536) b K) => h.block
  unfold pio_read_data at hok ⊢
  dsimp only at hok ⊢
  by_cases hone : count = 1
  · -- one block is a loop of one round
    subst hone
    exact (pio_blocks_ok CMD17 (by decide) (by decide) (by decide) (by decide) hstart hstep
      hcount haddr hok).read
  · rw [if_neg hone] at hok ⊢
    exact (pio_blocks_ok _ (by decide) (by decide) (by decide) (by decide) hstart hstep hcount haddr
      hok).read

theorem pio_write_data_ok (hcount : 0 < count.toNat)
    (haddr : H.Addressable sector.toNat count.toNat)
    (hok : (H.pio_write_data sector buf count).1 = E_OK) :
    BlocksWritten H (H.pio_write_data sector buf count).2 sector.toNat buf.toNat count.toNat := by
  have hstart : ∀ K, Stands K true sector.toNat (count.toNat % 65536) 0 → K.card = H.card →
      K.ram = H.ram → PioWrites H sector.toNat buf.toNat (count.toNat % 65536) 0 K :=
    fun K hstands hcard hram => ⟨hstands, .none hcard hram⟩
  have hstep := fun b K (h : PioWrites H sector.toNat buf.toNat (count.toNat % 65536) b K) => h.block
  unfold pio_write_data at hok ⊢
  dsimp only at hok ⊢
  by_cases hone : count = 1
  · subst hone
    exact (pio_blocks_ok CMD24 (by decide) (by decide) (by decide) (by decide) hstart hstep
      hcount haddr hok).written
  · rw [if_neg hone] at hok ⊢
    exact (pio_blocks_ok _ (by decide) (by decide) (by decide) (by decide) hstart hstep hcount haddr
      hok).written

/-- The waits for the end move no data. -/
theorem pio_read_ok (hcount : 0 < count.toNat) (haddr : H.Addressable sector.toNat count.toNat)
    (hok : (H.pio_read sector buf count).1 = E_OK) :
    BlocksRead H (H.pio_read sector buf count).2 sector.toNat buf.toNat count.toNat := by
  unfold pio_read at hok ⊢
  obtain ⟨hdata, hnext⟩ := or_return_it_ok hok
  rw [hnext] at hok ⊢
  obtain ⟨hdone, hlast⟩ := or_return_ok hok nofun
  have hread := pio_read_data_ok hcount haddr hdata
  rw [hlast, (wait_interrupt_ok hdone).2]
  exact ⟨hread.card, hread.ram⟩

theorem pio_write_ok (hcount : 0 < count.toNat) (haddr : H.Addressable sector.toNat count.toNat)
    (hok : (H.pio_write sector buf count).1 = E_OK) :
    BlocksWritten H (H.pio_write sector buf count).2 sector.toNat buf.toNat count.toNat := by
  unfold pio_write at hok ⊢
  obtain ⟨hdata, hnext⟩ := or_return_it_ok hok
  rw [hnext] at hok ⊢
  obtain ⟨hdone, hlast⟩ := or_return_ok hok nofun
  rw [hlast] at hok ⊢
  obtain ⟨-, hlast⟩ := or_return_ok hok nofun
  have hwritten := pio_write_data_ok hcount haddr hdata
  rw [hlast, (wait_interrupt_ok hdone).2]
  exact ⟨hwritten.ram, hwritten.card⟩

end Pio

end EmmcHost

end Rpitos
