import Rpitos.Boot.Emmc
import Rpitos.Lib.Tiling

/-!
# Drivers.Adma2

The descriptor table of `emmc.c`. An access to `s_adma2_table` past its end gives `none`.

`adma2_tiles`: the table that `emmc_build_adma2_table` fills tiles the buffer, with the marks on its
last line only; only a buffer that is too large for the table gets 0.
-/

namespace Rpitos

open Function (update update_self update_of_ne)

def ADMA2_MAX_CHUNK : Nat := 65536
def ADMA2_MAX_XFER_BYTES : Nat := EMMC_SECTOR_SIZE_APP * SECTOR_SIZE
def ADMA2_MAX_DESCRIPTORS : Nat := ADMA2_MAX_XFER_BYTES / ADMA2_MAX_CHUNK + 2

def ADMA2_DESC_VALID : UInt32 := (1 : UInt32) <<< 0
def ADMA2_DESC_END : UInt32 := (1 : UInt32) <<< 1
def ADMA2_DESC_INT : UInt32 := (1 : UInt32) <<< 2
def ADMA2_DESC_ACT_TRAN : UInt32 := (2 : UInt32) <<< 4
def ADMA2_DESC_ACT_LINK : UInt32 := (3 : UInt32) <<< 4

/-- `attr_len` is `(length16 << 16) | attributes`. -/
structure Adma2Desc where
  attr_len : UInt32
  address : UInt32
  deriving DecidableEq, Repr

namespace Adma2Desc

/-- A length field of 0 means 65536. -/
def length (d : Adma2Desc) : Nat :=
  if d.attr_len >>> 16 = 0 then ADMA2_MAX_CHUNK else (d.attr_len >>> 16).toNat

def valid (d : Adma2Desc) : Prop := d.attr_len &&& ADMA2_DESC_VALID ≠ 0

/-- Of the two bits of the action, `ADMA2_DESC_ACT_LINK` has both. -/
def tran (d : Adma2Desc) : Prop := d.attr_len &&& ADMA2_DESC_ACT_LINK = ADMA2_DESC_ACT_TRAN

/-- `END`. -/
def last (d : Adma2Desc) : Prop := d.attr_len &&& ADMA2_DESC_END ≠ 0

/-- `INT`. -/
def interrupts (d : Adma2Desc) : Prop := d.attr_len &&& ADMA2_DESC_INT ≠ 0

instance (d : Adma2Desc) : Decidable d.valid := inferInstanceAs (Decidable (_ ≠ _))
instance (d : Adma2Desc) : Decidable d.tran := inferInstanceAs (Decidable (_ = _))
instance (d : Adma2Desc) : Decidable d.last := inferInstanceAs (Decidable (_ ≠ _))

end Adma2Desc

abbrev Adma2Table := Nat → Adma2Desc

/-- `s_adma2_table[n] = d`. -/
def set_desc (s_adma2_table : Adma2Table) (n : Nat) (d : Adma2Desc) : Option Adma2Table :=
  if n < ADMA2_MAX_DESCRIPTORS then some (update s_adma2_table n d) else none

/-- `s_adma2_table[n].attr_len |= flags`. -/
def mark_desc (s_adma2_table : Adma2Table) (n : Nat) (flags : UInt32) : Option Adma2Table :=
  let d := s_adma2_table n
  set_desc s_adma2_table n { d with attr_len := d.attr_len ||| flags }

/-- The loop of `emmc_build_adma2_table` and what follows it: the number of descriptors, and the
table. -/
def build_loop (s_adma2_table : Adma2Table) (addr : UInt32) (remaining n : Nat) :
    Option (Nat × Adma2Table) :=
  if remaining > 0 then
    if n ≥ ADMA2_MAX_DESCRIPTORS then some (0, s_adma2_table)
    else
      let chunk := if remaining > ADMA2_MAX_CHUNK then ADMA2_MAX_CHUNK else remaining
      let len16 := if chunk = ADMA2_MAX_CHUNK then 0 else UInt32.ofNat chunk
      match set_desc s_adma2_table n
          ⟨(len16 <<< 16) ||| ADMA2_DESC_VALID ||| ADMA2_DESC_ACT_TRAN, addr⟩ with
      | none => none
      | some s_adma2_table =>
        build_loop s_adma2_table (addr + UInt32.ofNat chunk) (remaining - chunk) (n + 1)
  else
    -- `n - 1` on 32 bits
    (mark_desc s_adma2_table (u32 (n + 0xFFFFFFFF)) (ADMA2_DESC_END ||| ADMA2_DESC_INT)).map
      fun s_adma2_table => (n, s_adma2_table)
termination_by remaining
decreasing_by unfold ADMA2_MAX_CHUNK; split <;> omega

def emmc_build_adma2_table (s_adma2_table : Adma2Table) (buf total_bytes : UInt32) :
    Option (Nat × Adma2Table) :=
  build_loop s_adma2_table buf total_bytes.toNat 0

/-! ## One descriptor -/

section Desc

variable {len16 attr m address : UInt32}

/-- A test of the attributes does not see the length. -/
theorem attr_and (len16 attr : UInt32) (hm : m.toNat < 2 ^ 16) :
    ((len16 <<< 16) ||| attr) &&& m = attr &&& m := by
  apply UInt32.eq_of_toBitVec_eq
  apply BitVec.eq_of_getLsbD_eq
  intro i hi
  simp only [UInt32.toBitVec_and, UInt32.toBitVec_or, UInt32.toBitVec_shiftLeft,
    BitVec.getLsbD_and, BitVec.getLsbD_or]
  by_cases h : i < 16
  · simp [h]
  · have hbit : m.toBitVec.getLsbD i = false :=
      Nat.testBit_lt_two_pow (Nat.lt_of_lt_of_le hm (Nat.pow_le_pow_right (by decide) (by omega)))
    rw [hbit, Bool.and_false, Bool.and_false]

theorem attr_shift (hattr : attr.toNat < 2 ^ 16) (hlen : len16.toNat < 2 ^ 16) :
    ((len16 <<< 16) ||| attr) >>> 16 = len16 := by
  apply UInt32.toNat_inj.mp
  have hshift : (len16 <<< 16).toNat = len16.toNat <<< 16 := by
    rw [UInt32.toNat_shiftLeft]
    show len16.toNat <<< 16 % 2 ^ 32 = _
    rw [Nat.shiftLeft_eq, Nat.mod_eq_of_lt (by omega)]
  rw [UInt32.toNat_shiftRight, UInt32.toNat_or, hshift, ← Nat.shiftLeft_add_eq_or_of_lt hattr]
  show (len16.toNat <<< 16 + attr.toNat) >>> 16 = len16.toNat
  rw [Nat.shiftRight_eq_div_pow, Nat.shiftLeft_eq]
  omega

theorem desc_length (hattr : attr.toNat < 2 ^ 16) (hlen : len16.toNat < 2 ^ 16) :
    Adma2Desc.length ⟨(len16 <<< 16) ||| attr, address⟩ =
      if len16 = 0 then ADMA2_MAX_CHUNK else len16.toNat := by
  unfold Adma2Desc.length
  rw [attr_shift hattr hlen]

end Desc

/-! ## The loop -/

namespace Adma2Desc

/-- A 16-bit length behind these attributes. -/
def HasAttr (d : Adma2Desc) (attr : UInt32) : Prop :=
  ∃ len16 : UInt32, len16.toNat < 2 ^ 16 ∧ d.attr_len = (len16 <<< 16) ||| attr

variable {d : Adma2Desc} {attr flags m : UInt32}

theorem HasAttr.and (h : d.HasAttr attr) (hm : m.toNat < 2 ^ 16) :
    d.attr_len &&& m = attr &&& m := by
  obtain ⟨len16, -, hattr⟩ := h
  rw [hattr, attr_and len16 attr hm]

theorem HasAttr.mark (h : d.HasAttr attr) (flags : UInt32) :
    HasAttr { d with attr_len := d.attr_len ||| flags } (attr ||| flags) := by
  obtain ⟨len16, hlen, hattr⟩ := h
  refine ⟨len16, hlen, ?_⟩
  rw [hattr, UInt32.or_assoc]

/-- Marks leave the length alone. -/
theorem HasAttr.mark_length (h : d.HasAttr attr) (hattr : attr.toNat < 2 ^ 16)
    (hflags : (attr ||| flags).toNat < 2 ^ 16) :
    Adma2Desc.length { d with attr_len := d.attr_len ||| flags } = d.length := by
  obtain ⟨len16, hlen, hd⟩ := h
  obtain ⟨attr_len, address⟩ := d
  dsimp only at hd
  dsimp only
  rw [hd, UInt32.or_assoc, desc_length hflags hlen, desc_length hattr hlen]

end Adma2Desc

/-- The first `n` lines, as start and length. -/
def Adma2Table.lines (T : Adma2Table) (n : Nat) : List (Nat × Nat) :=
  (List.range n).map fun i => ((T i).address.toNat, (T i).length)

theorem Adma2Table.lines_succ (T : Adma2Table) (n : Nat) :
    T.lines (n + 1) = T.lines n ++ [((T n).address.toNat, (T n).length)] := by
  unfold Adma2Table.lines
  rw [List.range_succ, List.map_append, List.map_singleton]

theorem Adma2Table.lines_congr {T T' : Adma2Table} {n : Nat}
    (h : ∀ i < n, (T' i).address = (T i).address ∧ (T' i).length = (T i).length) :
    T'.lines n = T.lines n := by
  refine List.map_congr_left fun i hi => ?_
  obtain ⟨haddr, hlen⟩ := h i (List.mem_range.mp hi)
  rw [haddr, hlen]

/-- The attributes of every line until the last one is marked. -/
def LINE_ATTR : UInt32 := ADMA2_DESC_VALID ||| ADMA2_DESC_ACT_TRAN

/-- Before each round of the loop: `n` lines cover what is no longer `remaining`, and all of them are
full as long as anything remains. -/
structure BuildInv (buf total : Nat) (T : Adma2Table) (addr : UInt32) (remaining n : Nat) :
    Prop where
  room : n ≤ ADMA2_MAX_DESCRIPTORS
  left : remaining ≤ total
  addr : addr = UInt32.ofNat (buf + (total - remaining))
  full : 0 < remaining → n * ADMA2_MAX_CHUNK + remaining = total
  covered : total ≤ n * ADMA2_MAX_CHUNK + remaining
  tiles : Tiles buf (T.lines n) (buf + (total - remaining))
  attrs : ∀ i < n, (T i).HasAttr LINE_ATTR

/-- What the controller finds in the first `n` lines. -/
structure Adma2Lines (T : Adma2Table) (n buf total : Nat) : Prop where
  tiles : Tiles buf (T.lines n) (buf + total)
  valid : ∀ i < n, (T i).valid
  tran : ∀ i < n, (T i).tran
  last : ∀ i < n, (T i).last ↔ i + 1 = n
  interrupts : ∀ i < n, (T i).interrupts ↔ i + 1 = n

section Loop

variable {buf total : Nat} {T : Adma2Table} {addr : UInt32} {remaining n : Nat}

/-- One round: a full line, or the last one. -/
theorem BuildInv.round (h : BuildInv buf total T addr remaining n) (hrem : 0 < remaining)
    (hn : n < ADMA2_MAX_DESCRIPTORS) (hwrap : buf + total ≤ 2 ^ 32) {chunk : Nat} {len16 : UInt32}
    (hchunk : chunk = if remaining > ADMA2_MAX_CHUNK then ADMA2_MAX_CHUNK else remaining)
    (hlen16 : len16 = if chunk = ADMA2_MAX_CHUNK then 0 else UInt32.ofNat chunk) :
    BuildInv buf total
      (update T n ⟨(len16 <<< 16) ||| ADMA2_DESC_VALID ||| ADMA2_DESC_ACT_TRAN, addr⟩)
      (addr + UInt32.ofNat chunk) (remaining - chunk) (n + 1) := by
  have hleft := h.left
  have hfull := h.full hrem
  unfold ADMA2_MAX_CHUNK at hchunk hlen16 hfull
  have hcases : chunk = 65536 ∧ 65536 < remaining ∨ chunk = remaining ∧ remaining ≤ 65536 := by
    rw [hchunk]
    split <;> omega
  have hpos : 0 < chunk := by omega
  have hmore : 0 < remaining - chunk → (n + 1) * ADMA2_MAX_CHUNK + (remaining - chunk) = total := by
    unfold ADMA2_MAX_CHUNK
    omega
  have hcov : total ≤ (n + 1) * ADMA2_MAX_CHUNK + (remaining - chunk) := by
    unfold ADMA2_MAX_CHUNK
    omega
  have hlt : len16.toNat < 2 ^ 16 := by
    rw [hlen16]
    split
    · decide
    · rw [UInt32.toNat_ofNat']
      omega
  have hattr : (len16 <<< 16) ||| ADMA2_DESC_VALID ||| ADMA2_DESC_ACT_TRAN =
      (len16 <<< 16) ||| LINE_ATTR := UInt32.or_assoc ..
  rw [hattr]
  -- a full chunk is written as 0 and read as 65536
  have hlength : Adma2Desc.length ⟨(len16 <<< 16) ||| LINE_ATTR, addr⟩ = chunk := by
    rw [desc_length (by decide) hlt, hlen16]
    unfold ADMA2_MAX_CHUNK
    by_cases hc : chunk = 65536
    · rw [if_pos hc, if_pos rfl, hc]
    · have hne : UInt32.ofNat chunk ≠ 0 := by
        intro h0
        have := congrArg UInt32.toNat h0
        rw [UInt32.toNat_ofNat'] at this
        simp at this
        omega
      rw [if_neg hc, if_neg hne, UInt32.toNat_ofNat']
      omega
  have haddr : addr.toNat = buf + (total - remaining) := by
    rw [h.addr, UInt32.toNat_ofNat', Nat.mod_eq_of_lt (by omega)]
  have hold : ∀ i < n, update T n ⟨(len16 <<< 16) ||| LINE_ATTR, addr⟩ i = T i :=
    fun i hi => update_of_ne (by omega) ..
  refine ⟨hn, by omega, ?_, hmore, hcov, ?_, fun i hi => ?_⟩
  · rw [h.addr, ← UInt32.ofNat_add]
    exact congrArg UInt32.ofNat (by omega)
  · rw [Adma2Table.lines_succ, update_self, hlength,
      Adma2Table.lines_congr fun i hi => by rw [hold i hi]; exact ⟨rfl, rfl⟩, haddr,
      show buf + (total - (remaining - chunk)) = buf + (total - remaining) + chunk by omega]
    exact h.tiles.snoc hpos
  · by_cases hlast : i = n
    · rw [hlast, update_self]
      exact ⟨len16, hlt, rfl⟩
    · rw [hold i (by omega)]
      exact h.attrs i (by omega)

theorem BuildInv.finish (h : BuildInv buf total T addr 0 n) (hn : 0 < n) :
    Adma2Lines (update T (n - 1)
      { T (n - 1) with attr_len := (T (n - 1)).attr_len ||| (ADMA2_DESC_END ||| ADMA2_DESC_INT) })
      n buf total := by
  have hlast := (h.attrs (n - 1) (by omega)).mark (ADMA2_DESC_END ||| ADMA2_DESC_INT)
  have hattr : ∀ i < n, Adma2Desc.HasAttr (update T (n - 1) { T (n - 1) with
      attr_len := (T (n - 1)).attr_len ||| (ADMA2_DESC_END ||| ADMA2_DESC_INT) } i)
      (if i + 1 = n then LINE_ATTR ||| (ADMA2_DESC_END ||| ADMA2_DESC_INT) else LINE_ATTR) := by
    intro i hi
    by_cases hi' : i + 1 = n
    · rw [if_pos hi', show i = n - 1 by omega, update_self]
      exact hlast
    · rw [if_neg hi', update_of_ne (by omega)]
      exact h.attrs i hi
  refine ⟨?_, fun i hi => ?_, fun i hi => ?_, fun i hi => ?_, fun i hi => ?_⟩
  · rw [Adma2Table.lines_congr (T := T) fun i hi => ?_]
    · simpa using h.tiles
    · by_cases hi' : i = n - 1
      · rw [hi', update_self]
        exact ⟨rfl, (h.attrs (n - 1) (by omega)).mark_length (by decide) (by decide)⟩
      · rw [update_of_ne hi']
        exact ⟨rfl, rfl⟩
  · unfold Adma2Desc.valid
    rw [(hattr i hi).and (by decide)]
    split <;> decide
  · unfold Adma2Desc.tran
    rw [(hattr i hi).and (by decide)]
    split <;> decide
  · unfold Adma2Desc.last
    rw [(hattr i hi).and (by decide)]
    split
    · rename_i hi'
      exact iff_of_true (by decide) hi'
    · rename_i hi'
      exact iff_of_false (by decide) hi'
  · unfold Adma2Desc.interrupts
    rw [(hattr i hi).and (by decide)]
    split
    · rename_i hi'
      exact iff_of_true (by decide) hi'
    · rename_i hi'
      exact iff_of_false (by decide) hi'

theorem BuildInv.loop (h : BuildInv buf total T addr remaining n) (htotal : 0 < total)
    (hwrap : buf + total ≤ 2 ^ 32) :
    ∃ m T', build_loop T addr remaining n = some (m, T') ∧
      (0 < m → m ≤ ADMA2_MAX_DESCRIPTORS ∧ Adma2Lines T' m buf total) ∧
      (m = 0 ↔ ADMA2_MAX_DESCRIPTORS * ADMA2_MAX_CHUNK < total) := by
  induction remaining using Nat.strongRecOn generalizing T addr n with
  | ind remaining ih =>
    have hmax : ADMA2_MAX_DESCRIPTORS = 130 := rfl
    by_cases hrem : 0 < remaining
    · by_cases hfull : n ≥ ADMA2_MAX_DESCRIPTORS
      · have hroom := h.room
        have htot := h.full hrem
        refine ⟨0, T, by rw [build_loop, if_pos hrem, if_pos hfull], by omega, ?_⟩
        rw [show n = ADMA2_MAX_DESCRIPTORS by omega] at htot
        omega
      · have hn : n < ADMA2_MAX_DESCRIPTORS := by omega
        have hlt : remaining - (if remaining > ADMA2_MAX_CHUNK then ADMA2_MAX_CHUNK else remaining) <
            remaining := by
          unfold ADMA2_MAX_CHUNK
          split <;> omega
        rw [build_loop, if_pos hrem, if_neg hfull]
        simp only [set_desc, if_pos hn]
        exact ih _ hlt (h.round hrem hn hwrap rfl rfl)
    · obtain rfl : remaining = 0 := by omega
      have hcov := h.covered
      have hroom := h.room
      unfold ADMA2_MAX_CHUNK at hcov ⊢
      have hn : 0 < n := by omega
      have hidx : u32 (n + 0xFFFFFFFF) = n - 1 := by
        unfold u32
        omega
      refine ⟨n, _, ?_, fun _ => ⟨hroom, h.finish hn⟩, by omega⟩
      rw [build_loop, if_neg hrem, hidx]
      unfold mark_desc set_desc
      rw [if_pos (by omega)]
      rfl

end Loop

/-- For every buffer, `emmc_build_adma2_table` returns without an access outside the table. Its
lines tile the buffer, all of them valid transfers and the last one marked; it returns 0 if and only
if the buffer is too large for the table. -/
theorem adma2_tiles (s_adma2_table : Adma2Table) (buf total_bytes : UInt32)
    (hpos : 0 < total_bytes.toNat) (hwrap : buf.toNat + total_bytes.toNat ≤ 2 ^ 32) :
    ∃ n T, emmc_build_adma2_table s_adma2_table buf total_bytes = some (n, T) ∧
      (0 < n → n ≤ ADMA2_MAX_DESCRIPTORS ∧ Adma2Lines T n buf.toNat total_bytes.toNat) ∧
      (n = 0 ↔ ADMA2_MAX_DESCRIPTORS * ADMA2_MAX_CHUNK < total_bytes.toNat) := by
  refine BuildInv.loop ⟨Nat.zero_le _, Nat.le_refl _, ?_, fun _ => by omega, by omega, ?_, ?_⟩ hpos
    hwrap
  · rw [Nat.sub_self, Nat.add_zero, UInt32.ofNat_toNat]
  · rw [Nat.sub_self]
    rfl
  · intro i hi
    omega

/-- A full line and one byte. -/
theorem adma2_tiles_two_lines :
    ∃ n T, emmc_build_adma2_table (fun _ => ⟨0, 0⟩) 0x1000 65537 = some (n, T) ∧
      (0 < n → n ≤ ADMA2_MAX_DESCRIPTORS ∧ Adma2Lines T n 0x1000 65537) ∧
      (n = 0 ↔ ADMA2_MAX_DESCRIPTORS * ADMA2_MAX_CHUNK < 65537) :=
  adma2_tiles (fun _ => ⟨0, 0⟩) 0x1000 65537 (by decide) (by decide)

end Rpitos
