import Mathlib.Data.Nat.Digits.Lemmas
import Mathlib.Tactic.IntervalCases
import Rpitos.Drivers.PrintfRuns

/-!
# Drivers.PrintfFields

The number fields of `uart_vprintf` beside those of C.

* `number_fields`: `%d`, `%u`, `%x` and `%X` print what C prints, but for a negative number with
  padding spaces.
-/

namespace Rpitos

/-! ## The fields of C -/

/-- The conversions of numbers. -/
inductive NumberConv where
  | d
  | u
  | x
  | X
  deriving DecidableEq, Repr

namespace NumberConv

def char : NumberConv → UInt8
  | d => 'd'.toUInt8
  | u => 'u'.toUInt8
  | x => 'x'.toUInt8
  | X => 'X'.toUInt8

def base : NumberConv → Nat
  | d | u => 10
  | x | X => 16

/-- The number that the argument stands for. -/
def value : NumberConv → UInt32 → Int
  | d, n => n.toInt32.toInt
  | u, n | x, n | X, n => n.toNat

def digit (k : NumberConv) (i : Nat) : UInt8 :=
  if i < 10 then UInt8.ofNat ('0'.toNat + i)
  else UInt8.ofNat ((if k = X then 'A'.toNat else 'a'.toNat) + (i - 10))

/-- The digits of `n`, the most significant first. -/
def digits (k : NumberConv) (n : Nat) : List UInt8 :=
  (if n = 0 then [0] else (Nat.digits k.base n).reverse).map k.digit

end NumberConv

/-- What C prints: the sign stands directly before the digits if the padding is spaces, and before the
zeros if it is zeros. -/
def c_field (k : NumberConv) (zero : Bool) (w : Nat) (n : UInt32) : List UInt8 :=
  let sign := if k.value n < 0 then ['-'.toUInt8] else []
  let digits := k.digits (k.value n).natAbs
  let fill := w - (sign.length + digits.length)
  if zero then sign ++ List.replicate fill '0'.toUInt8 ++ digits
  else List.replicate fill ' '.toUInt8 ++ sign ++ digits

instance : Append CString :=
  ⟨fun s t => ⟨s.chars ++ t.chars, fun h => (List.mem_append.mp h).elim s.no_nul t.no_nul⟩⟩

/-- The flag and the width as they are written. Width 0 is not written. -/
def flag_width (zero : Bool) (w : Nat) : List UInt8 :=
  (if zero then ['0'.toUInt8] else []) ++ if w = 0 then [] else NumberConv.u.digits w

theorem digits_are_digits (n : Nat) : ∀ c ∈ NumberConv.u.digits n, is_digit c := by
  intro c hc
  obtain ⟨i, hi, rfl⟩ := List.mem_map.mp hc
  have hlt : i < 10 := by
    split at hi
    · simp_all
    · exact Nat.digits_lt_base (by decide) (List.mem_reverse.mp hi)
  interval_cases i <;> decide

theorem flag_width_digits (zero : Bool) (w : Nat) : ∀ c ∈ flag_width zero w, is_digit c := by
  intro c hc
  rcases List.mem_append.mp hc with hc | hc
  · cases zero with
    | false => simp at hc
    | true =>
      obtain rfl := List.mem_singleton.mp hc
      decide
  · split at hc
    · simp at hc
    · exact digits_are_digits w c hc

theorem number_char_not_digit (k : NumberConv) : ¬ is_digit k.char := by
  cases k <;> decide

/-- A conversion of a number as it stands in a format. -/
def number_format (k : NumberConv) (zero : Bool) (w : Nat) : CString :=
  ⟨'%'.toUInt8 :: (flag_width zero w ++ [k.char]), by
    intro h
    rcases List.mem_cons.mp h with h | h
    · exact absurd h (by decide)
    · rcases List.mem_append.mp h with h | h
      · exact absurd (flag_width_digits zero w 0 h) (by decide)
      · cases k <;> exact absurd (List.mem_singleton.mp h) (by decide)⟩

/-! ## The fields of the code -/

/-- The digit string that the code takes for `k`. -/
def NumberConv.table : NumberConv → List UInt8
  | .d | .u => decimal
  | .x => lower_hex
  | .X => upper_hex

theorem NumberConv.one_lt_base (k : NumberConv) : 1 < k.base := by
  cases k <;> decide

theorem table_get (k : NumberConv) {i : Nat} (hi : i < k.base) : k.table[i]? = some (k.digit i) := by
  cases k <;> simp only [NumberConv.base] at hi <;> interval_cases i <;> rfl

theorem table_digit (k : NumberConv) {i : Nat} (hi : i < k.base) :
    k.table.getD i 0 = k.digit i := by
  rw [List.getD_eq_getElem?_getD, table_get k hi, Option.getD_some]

theorem tmp_digits_eq (digits : List UInt8) {base : Nat} (hbase : 1 < base) (n : Nat) :
    tmp_digits digits base n = (Nat.digits base n).map (digits.getD · 0) := by
  induction n using tmp_digits.induct base with
  | case1 n h ih => rw [tmp_digits, if_pos h, ih, Nat.digits_def' hbase h.1, List.map_cons]
  | case2 n h =>
    obtain rfl : n = 0 := by omega
    rw [tmp_digits, if_neg h, Nat.digits_zero, List.map_nil]

/-- What `format_uint` leaves in `tmp`, from behind. -/
theorem tmp_reverse (k : NumberConv) (n : UInt32) :
    (if n = 0 then chars "0" else tmp_digits k.table k.base n.toNat).reverse =
      k.digits n.toNat := by
  by_cases h0 : n = 0
  · cases k <;> subst h0 <;> rfl
  · have hn : n.toNat ≠ 0 := fun h => h0 (UInt32.toNat_inj.mp h)
    rw [if_neg h0, tmp_digits_eq _ k.one_lt_base, NumberConv.digits, if_neg hn, ← List.map_reverse]
    refine List.map_congr_left fun i hi => table_digit k ?_
    exact Nat.digits_lt_base k.one_lt_base (List.mem_reverse.mp hi)

theorem format_uint_eq (k : NumberConv) (n : UInt32) (width : Int) (pad : UInt8) :
    format_uint n k.base k.table width pad =
      List.replicate (width - (k.digits n.toNat).length).toNat pad ++ k.digits n.toNat := by
  rw [← tmp_reverse, List.length_reverse]
  rfl

theorem toInt_cond (n : Int32) : n.toInt =
    if 2 * n.toUInt32.toNat < 2 ^ 32 then (n.toUInt32.toNat : Int)
    else n.toUInt32.toNat - (2 ^ 32 : Nat) :=
  BitVec.toInt_eq_toNat_cond n.toBitVec

theorem neg_iff (n : Int32) : n < 0 ↔ n.toInt < 0 := Int32.lt_iff_toInt_lt

theorem nonneg_toNat {n : Int32} (hn : ¬ n.toInt < 0) : n.toUInt32.toNat = n.toInt.natAbs := by
  have hlt := n.toUInt32.toNat_lt
  have hcond := toInt_cond n
  split at hcond <;> omega

/-- Also for the least `n`, whose negation wraps to itself. -/
theorem neg_toNat {n : Int32} (hn : n.toInt < 0) : (-n).toUInt32.toNat = n.toInt.natAbs := by
  have hlt := n.toUInt32.toNat_lt
  have hcond := toInt_cond n
  have hsize : UInt32.size = 2 ^ 32 := rfl
  rw [Int32.toUInt32_neg, UInt32.toNat_neg, hsize]
  split at hcond <;> omega

/-- The padding with and without the flag. -/
def pad_char (zero : Bool) : UInt8 := if zero then '0'.toUInt8 else ' '.toUInt8

/-- What `convert` gives to the sink for `k`. -/
def number_chars (k : NumberConv) (zero : Bool) (w : Nat) (n : UInt32) : List UInt8 :=
  if k = .d then int_chars n.toInt32 w (pad_char zero)
  else uint_chars n k.base k.table w (pad_char zero)

theorem number_emits (strings : UInt32 → CString) (k : NumberConv) (zero : Bool) (w : Nat)
    (args : VaList) {sink : PrintfSink} (hinv : SinkInv sink) :
    Emits sink (number_chars k zero w (args 0)) args.rest
      (convert strings ⟨pad_char zero, w, k.char⟩ args sink) := by
  cases k with
  | d => exact (put_int_puts _ _ _ hinv).emits _
  | u => exact (put_uint_puts _ _ _ _ _ hinv).emits _
  | x => exact (put_uint_puts _ _ _ _ _ hinv).emits _
  | X => exact (put_uint_puts _ _ _ _ _ hinv).emits _

theorem conversion_of_number (k : UInt8) (zero : Bool) {w : Nat} (hw : w ≤ 16) :
    conversion_of (flag_width zero w) k = ⟨pad_char zero, w, k⟩ := by
  cases zero <;> interval_cases w <;> rfl

theorem uint_chars_eq (k : NumberConv) (n : UInt32) (pad : UInt8) {w : Nat} (hw : w ≤ 16) :
    uint_chars n k.base k.table w pad =
      List.replicate (w - (k.digits n.toNat).length) pad ++ k.digits n.toNat := by
  have hclamp : ¬ (w : Int) > PRINTF_NUM_BUF_SIZE := by
    simp only [PRINTF_NUM_BUF_SIZE]
    omega
  have hfill : ((w : Int) - (k.digits n.toNat).length).toNat = w - (k.digits n.toNat).length := by
    omega
  rw [uint_chars, if_neg hclamp, format_uint_eq, hfill]

/-- Where the code puts the sign before the padding spaces. -/
def misplaced_sign (k : NumberConv) (zero : Bool) (w : Nat) (n : UInt32) : Prop :=
  k.value n < 0 ∧ zero = false ∧ (k.digits (k.value n).natAbs).length + 1 < w

instance (k : NumberConv) (zero : Bool) (w : Nat) (n : UInt32) :
    Decidable (misplaced_sign k zero w n) :=
  inferInstanceAs (Decidable (_ ∧ _ ∧ _))

theorem number_chars_nonneg (k : NumberConv) (zero : Bool) {w : Nat} (hw : w ≤ 16) (n : UInt32)
    (hn : ¬ k.value n < 0) : number_chars k zero w n = c_field k zero w n := by
  have hdigits : number_chars k zero w n =
      List.replicate (w - (k.digits (k.value n).natAbs).length) (pad_char zero) ++
        k.digits (k.value n).natAbs := by
    by_cases hk : k = .d
    · subst hk
      have hneg : ¬ n.toInt32 < 0 := fun h => hn ((neg_iff _).mp h)
      rw [number_chars, if_pos rfl, int_chars, if_neg hneg]
      have := uint_chars_eq .d n.toInt32.toUInt32 (pad_char zero) hw
      rwa [nonneg_toNat hn] at this
    · rw [number_chars, if_neg hk, uint_chars_eq k n _ hw]
      cases k <;> first | rfl | exact absurd rfl hk
  rw [hdigits, c_field, if_neg hn]
  cases zero <;> simp [pad_char]

theorem NumberConv.eq_d_of_neg {k : NumberConv} {n : UInt32} (hn : k.value n < 0) : k = .d := by
  cases k with
  | d => rfl
  | u | x | X => exact absurd hn (Int.not_lt.mpr (Int.natCast_nonneg _))

/-- A negative number: the code puts the sign first. -/
theorem number_chars_neg (k : NumberConv) (zero : Bool) {w : Nat} (hw : w ≤ 16) {n : UInt32}
    (hn : k.value n < 0) : number_chars k zero w n =
      '-'.toUInt8 :: (List.replicate (w - 1 - (k.digits (k.value n).natAbs).length)
        (pad_char zero) ++ k.digits (k.value n).natAbs) := by
  obtain rfl := NumberConv.eq_d_of_neg hn
  have hneg : n.toInt32 < 0 := (neg_iff _).mpr hn
  have hwidth : (if (w : Int) > 0 then (w : Int) - 1 else 0) = (w - 1 : Nat) := by
    split <;> omega
  have := uint_chars_eq .d (-n.toInt32).toUInt32 (pad_char zero) (w := w - 1) (by omega)
  rw [neg_toNat hn] at this
  rw [number_chars, if_pos rfl, int_chars, if_pos hneg, hwidth]
  exact congrArg _ this

theorem number_chars_eq (k : NumberConv) (zero : Bool) {w : Nat} (hw : w ≤ 16) (n : UInt32) :
    number_chars k zero w n = c_field k zero w n ↔ ¬ misplaced_sign k zero w n := by
  by_cases hn : k.value n < 0
  · have hfill : w - 1 - (k.digits (k.value n).natAbs).length =
        w - (1 + (k.digits (k.value n).natAbs).length) := by omega
    rw [number_chars_neg k zero hw hn, c_field, if_pos hn, hfill, misplaced_sign]
    cases zero with
    | true => simp [pad_char]
    | false =>
      by_cases hfits : w ≤ (k.digits (k.value n).natAbs).length + 1
      · have h0 : w - (1 + (k.digits (k.value n).natAbs).length) = 0 := by omega
        simp [h0, hfits]
      · obtain ⟨m, hm⟩ : ∃ m, w - (1 + (k.digits (k.value n).natAbs).length) = m + 1 :=
          ⟨w - (1 + (k.digits (k.value n).natAbs).length) - 1, by omega⟩
        have hne : ¬ '-'.toUInt8 = ' '.toUInt8 := by decide
        have hlong : (k.digits (k.value n).natAbs).length + 1 < w := by omega
        simp [hm, hn, List.replicate_succ, hne, hlong]
  · have hno : ¬ misplaced_sign k zero w n := fun h => hn h.1
    exact iff_of_true (number_chars_nonneg k zero hw n hn) hno

theorem number_run {strings : UInt32 → CString} {before behind : CString} {args args₁ args₂ : VaList}
    {a b : PrintfSink} (k : NumberConv) (zero : Bool) {w : Nat} (hw : w ≤ 16)
    (ha : uart_vprintf strings before args = .ok (a, args₁))
    (hb : uart_vprintf strings behind args₁.rest = .ok (b, args₂)) :
    ∃ s, uart_vprintf strings (before ++ number_format k zero w ++ behind) args = .ok (s, args₂) ∧
      s.given = a.given ++ number_chars k zero w (args₁ 0) ++ b.given := by
  obtain ⟨a', rest, hrun, -, -, hbefore⟩ := vprintf_emits strings (complete_of_ok ha) args
  obtain ⟨rfl, rfl⟩ : a' = a ∧ rest = args₁ := by simpa [hrun] using ha
  obtain ⟨b', rest', hrun', -, -, hbehind⟩ := vprintf_emits strings (complete_of_ok hb) rest.rest
  obtain ⟨rfl, rfl⟩ : b' = b ∧ rest' = args₂ := by simpa [hrun'] using hb
  obtain ⟨s₁, hinv₁, hgiven₁, hloop₁⟩ :=
    hbefore ('%'.toUInt8 :: (flag_width zero w ++ k.char :: (behind.chars ++ [0]))) _ SinkInv.fresh
  obtain ⟨s₂, hconv, hinv₂, hgiven₂⟩ := (number_emits strings k zero w rest hinv₁).ok
  obtain ⟨s₃, hinv₃, hgiven₃, hloop₃⟩ := hbehind [0] s₂ hinv₂
  obtain ⟨s, hend, -, hgiven, -⟩ := loop_end strings rest' hinv₃
  refine ⟨s, ?_, by simp [hgiven, hgiven₃, hgiven₂, hgiven₁]⟩
  have hfmt : (before ++ number_format k zero w ++ behind).chars ++ [0] =
      before.chars ++ '%'.toUInt8 :: (flag_width zero w ++ k.char :: (behind.chars ++ [0])) := by
    change (before.chars ++ '%'.toUInt8 :: (flag_width zero w ++ [k.char]) ++ behind.chars) ++ [0] = _
    simp
  rw [uart_vprintf, hfmt, hloop₁, loop_conversion strings (flag_width_digits zero w)
    (number_char_not_digit k), conversion_of_number k.char zero hw, hconv]
  exact hloop₃.trans hend

theorem vprintf_empty (strings : UInt32 → CString) (args : VaList) :
    uart_vprintf strings ⟨[], by simp⟩ args = .ok (⟨fun _ => 0, 0, [], []⟩, args) := by
  rw [uart_vprintf, List.nil_append, vprintf_loop, if_pos rfl]
  rfl

/-- Wherever a conversion of a number stands in a format, it prints the field of C exactly if no sign
is misplaced. -/
theorem number_fields (strings : UInt32 → CString) (before behind : CString) (k : NumberConv)
    (zero : Bool) (w : Nat) (hw : w ≤ 16) (args args₁ args₂ : VaList) (a b : PrintfSink)
    (ha : uart_vprintf strings before args = .ok (a, args₁))
    (hb : uart_vprintf strings behind args₁.rest = .ok (b, args₂)) :
    ∃ s, uart_vprintf strings (before ++ number_format k zero w ++ behind) args = .ok (s, args₂) ∧
      (s.given = a.given ++ c_field k zero w (args₁ 0) ++ b.given ↔
        ¬ misplaced_sign k zero w (args₁ 0)) := by
  obtain ⟨s, hrun, hgiven⟩ := number_run k zero hw ha hb
  refine ⟨s, hrun, ?_⟩
  rw [← number_chars_eq k zero hw, hgiven]
  simp

theorem number_fields_percent_05d :
    ∃ s, uart_vprintf (fun _ => ⟨[], by simp⟩) (⟨[], by simp⟩ ++ number_format .d true 5 ++ ⟨[], by simp⟩)
        (fun _ => 0xFFFFFFFF) = .ok (s, VaList.rest fun _ => 0xFFFFFFFF) ∧
      (s.given = [] ++ c_field .d true 5 0xFFFFFFFF ++ [] ↔ ¬ misplaced_sign .d true 5 0xFFFFFFFF) :=
  number_fields _ _ _ .d true 5 (by decide) _ _ _ _ _ (vprintf_empty _ _) (vprintf_empty _ _)

/-- `"%4d"` of -1 prints `"-  1"`. -/
theorem percent_4d_of_minus_one :
    ∃ s rest, uart_vprintf (fun _ => ⟨[], by simp⟩)
        (⟨[], by simp⟩ ++ number_format .d false 4 ++ ⟨[], by simp⟩) (fun _ => 0xFFFFFFFF) =
          .ok (s, rest) ∧
      s.given = chars "-  1" ∧ c_field .d false 4 0xFFFFFFFF = chars "  -1" ∧
      s.given ≠ c_field .d false 4 0xFFFFFFFF := by
  have hgiven : number_chars .d false 4 0xFFFFFFFF = chars "-  1" := by
    rw [number_chars_neg .d false (by decide) (by decide)]
    decide
  have hfield : c_field .d false 4 0xFFFFFFFF = chars "  -1" := by decide
  obtain ⟨s, hrun, hs⟩ := number_run .d false (w := 4) (by decide)
    (vprintf_empty (fun _ => ⟨[], by simp⟩) fun _ => 0xFFFFFFFF) (vprintf_empty _ _)
  have hs' : s.given = chars "-  1" := by simpa [hgiven] using hs
  refine ⟨s, _, hrun, hs', hfield, ?_⟩
  rw [hs', hfield]
  decide

end Rpitos
