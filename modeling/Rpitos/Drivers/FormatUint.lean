import Rpitos.Drivers.PrintfFields

/-!
# Drivers.FormatUint

`format_uint` of `uart.c` on its arrays: the digits go backwards through the 10 characters of `tmp`
into a buffer of which it is not told the size. A load or a store outside an array is a fault.

* `format_uint_buf_eq`: it stores the characters of `format_uint` one after the other.
* `format_uint_exact`: which characters they are, and which buffers they fit.
* `sink_put_uint_buf_eq`, `fault_puthex_eq`: the two callers, with 16 and with 8 characters.
-/

namespace Rpitos

/-! ## The loops -/

/-- `char name[size]`. -/
abbrev CharArray (size : Nat) : Type := Vector UInt8 size

variable {size : Nat}

/-- `while (n > 0)`. Gives `tmp` and `i`. -/
def digit_loop (digits : List UInt8) (base : UInt32) (tmp : CharArray 10) (i : Nat) (n : UInt32) :
    Option (CharArray 10 × Nat) :=
  if n > 0 then
    if base = 0 then none
    else match digits[(n % base).toNat]? with
      | none => none
      | some d =>
        if h : i < 10 then digit_loop digits base (tmp.set i d) (i + 1) (n / base) else none
  else some (tmp, i)
termination_by 10 - i

/-- `for (int p = i; p < width; p++)`. Gives `out` and `len`. -/
def pad_loop (width : Int) (pad : UInt8) (p : Int) (out : CharArray size) (len : Nat) :
    Option (CharArray size × Nat) :=
  if p < width then
    if h : len < size then pad_loop width pad (p + 1) (out.set len pad) (len + 1) else none
  else some (out, len)
termination_by (width - p).toNat

/-- `while (i > 0)`. Gives `out` and `len`. -/
def copy_loop (tmp : CharArray 10) (out : CharArray size) (len : Nat) :
    Nat → Option (CharArray size × Nat)
  | 0 => some (out, len)
  | i + 1 =>
    if h : i < 10 ∧ len < size then
      copy_loop tmp (out.set len (tmp.get ⟨i, h.1⟩) h.2) (len + 1) i
    else none

/-- Gives `out` and the length. What `tmp` holds at the start is on the stack. -/
def format_uint_buf (tmp : CharArray 10) (out : CharArray size) (n base : UInt32)
    (digits : List UInt8) (width : Int) (pad : UInt8) : Option (CharArray size × Nat) := do
  let (tmp, i) ← (if n = 0 then some (tmp.set 0 '0'.toUInt8, 1)
    else digit_loop digits base tmp 0 n)
  let (out, len) ← pad_loop width pad i out 0
  copy_loop tmp out len i

/-- `sink_put_uint` over its `numbuf`. -/
def sink_put_uint_buf (tmp : CharArray 10) (numbuf : CharArray 16) (sink : PrintfSink)
    (n base : UInt32) (digits : List UInt8) (width : Int) (pad : UInt8) :
    Option (Except PrintfFault PrintfSink) := do
  let width := if width > PRINTF_NUM_BUF_SIZE then PRINTF_NUM_BUF_SIZE else width
  let (numbuf, len) ← format_uint_buf tmp numbuf n base digits width pad
  pure (sink_put_all sink (numbuf.toList.take len))

/-- What it gives to `uart_tx_raw`. -/
def fault_puthex (tmp : CharArray 10) (digits : CharArray 8) (v : UInt32) : Option (List UInt8) := do
  let (digits, _) ← format_uint_buf tmp digits v 16 upper_hex 8 '0'.toUInt8
  pure ('0'.toUInt8 :: 'x'.toUInt8 :: digits.toList)

/-! ## Stores one after the other -/

/-- `out[len++] = c` for each of these. -/
def store_all (out : CharArray size) (len : Nat) : List UInt8 → Option (CharArray size × Nat)
  | [] => some (out, len)
  | c :: cs => if h : len < size then store_all (out.set len c) (len + 1) cs else none

theorem store_all_append (out : CharArray size) (len : Nat) (cs ds : List UInt8) :
    store_all out len (cs ++ ds) = (store_all out len cs).bind fun r => store_all r.1 r.2 ds := by
  induction cs generalizing out len with
  | nil => rfl
  | cons c cs ih =>
    simp only [List.cons_append, store_all]
    split
    · exact ih _ _
    · rfl

/-- What fits is stored, and nothing else changes. -/
theorem store_all_fits (out : CharArray size) (len : Nat) (cs : List UInt8)
    (hfits : len + cs.length ≤ size) :
    ∃ out', store_all out len cs = some (out', len + cs.length) ∧
      out'.toList = out.toList.take len ++ cs ++ out.toList.drop (len + cs.length) := by
  induction cs generalizing out len with
  | nil => exact ⟨out, rfl, by simp⟩
  | cons c cs ih =>
    rw [List.length_cons] at hfits
    have hlen : len < size := by omega
    obtain ⟨out', hrun, hlist⟩ := ih (out.set len c) (len + 1) (by omega)
    have hlast : len + (c :: cs).length = len + 1 + cs.length := by
      rw [List.length_cons]
      omega
    refine ⟨out', by rw [store_all, dif_pos hlen, hrun, hlast], ?_⟩
    have htake : (out.toList.set len c).take (len + 1) = out.toList.take len ++ [c] := by
      rw [List.set_eq_take_append_cons_drop, if_pos (by simpa using hlen), List.take_append]
      simp [Nat.min_eq_left hlen.le]
    have hdrop : (out.toList.set len c).drop (len + 1 + cs.length) =
        out.toList.drop (len + 1 + cs.length) := List.drop_set_of_lt (by omega)
    rw [hlist, Vector.toList_set, htake, hdrop, hlast]
    simp

theorem store_all_too_long (out : CharArray size) {len : Nat} {cs : List UInt8} (hlen : len ≤ size)
    (hlong : size < len + cs.length) : store_all out len cs = none := by
  induction cs generalizing out len with
  | nil => exact absurd hlong (Nat.not_lt.mpr hlen)
  | cons c cs ih =>
    rw [List.length_cons] at hlong
    rw [store_all]
    split
    · exact ih _ (by omega) (by omega)
    · rfl

/-! ## The loops store -/

theorem pad_loop_eq (width : Int) (pad : UInt8) (p : Int) (out : CharArray size) (len : Nat) :
    pad_loop width pad p out len = store_all out len (List.replicate (width - p).toNat pad) := by
  fun_induction pad_loop width pad p out len with
  | case1 p out len hp hlen ih =>
    obtain ⟨m, hm⟩ : ∃ m, (width - p).toNat = m + 1 := ⟨(width - p).toNat - 1, by omega⟩
    have hrest : (width - (p + 1)).toNat = m := by omega
    rw [ih, hm, hrest, List.replicate_succ, store_all, dif_pos hlen]
  | case2 p out len hp hlen =>
    obtain ⟨m, hm⟩ : ∃ m, (width - p).toNat = m + 1 := ⟨(width - p).toNat - 1, by omega⟩
    rw [hm, List.replicate_succ, store_all, dif_neg hlen]
  | case3 p out len hp =>
    have h0 : (width - p).toNat = 0 := by omega
    rw [h0]
    rfl

theorem copy_loop_eq (tmp : CharArray 10) (out : CharArray size) (len : Nat) {i : Nat} (hi : i ≤ 10) :
    copy_loop tmp out len i = store_all out len (tmp.toList.take i).reverse := by
  induction i generalizing out len with
  | zero => rfl
  | succ i ih =>
    have hi' : i < tmp.toList.length := by
      rw [Vector.length_toList]
      exact hi
    have hget : tmp.toList[i] = tmp.get ⟨i, hi⟩ := by simp [Vector.get]
    rw [List.take_succ_eq_append_getElem hi', List.reverse_append, List.reverse_singleton,
      List.singleton_append, copy_loop, store_all, hget]
    by_cases hlen : len < size
    · rw [dif_pos ⟨hi, hlen⟩, dif_pos hlen]
      exact ih _ _ (Nat.le_of_lt hi)
    · rw [dif_neg fun h => hlen h.2, dif_neg hlen]

/-! ## The digits -/

theorem base_toNat (k : NumberConv) : (UInt32.ofNat k.base).toNat = k.base := by
  cases k <;> rfl

theorem digit_loop_eq (k : NumberConv) (tmp : CharArray 10) (i : Nat) (n : UInt32) :
    digit_loop k.table (UInt32.ofNat k.base) tmp i n =
      store_all tmp i (tmp_digits k.table k.base n.toNat) := by
  have hbase := k.one_lt_base
  have hmod : ∀ n : UInt32, (n % UInt32.ofNat k.base).toNat = n.toNat % k.base := fun n => by
    rw [UInt32.toNat_mod, base_toNat]
  have hdiv : ∀ n : UInt32, (n / UInt32.ofNat k.base).toNat = n.toNat / k.base := fun n => by
    rw [UInt32.toNat_div, base_toNat]
  have hget : ∀ n : UInt32, k.table[(n % UInt32.ofNat k.base).toNat]? =
      some (k.table.getD (n.toNat % k.base) 0) := fun n => by
    have hi : n.toNat % k.base < k.base := Nat.mod_lt _ (by omega)
    rw [hmod, table_get k hi, table_digit k hi]
  have hdigits : ∀ n : UInt32, n > 0 → tmp_digits k.table k.base n.toNat =
      k.table.getD (n.toNat % k.base) 0 ::
        tmp_digits k.table k.base (n / UInt32.ofNat k.base).toNat := fun n hn => by
    rw [tmp_digits, if_pos ⟨UInt32.lt_iff_toNat_lt.mp hn, hbase⟩, hdiv]
  fun_induction digit_loop k.table (UInt32.ofNat k.base) tmp i n with
  | case1 tmp i n hn hzero => cases k <;> exact absurd hzero (by decide)
  | case2 tmp i n hn hzero hnone =>
    rw [hget n] at hnone
    cases hnone
  | case3 tmp i n hn hzero d hd hi ih =>
    obtain rfl : d = k.table.getD (n.toNat % k.base) 0 := Option.some.inj (hd.symm.trans (hget n))
    rw [ih, hdigits n hn, store_all, dif_pos hi]
  | case4 tmp i n hn hzero d hd hi => rw [hdigits n hn, store_all, dif_neg hi]
  | case5 tmp i n hn =>
    have h0 : n.toNat = 0 := by
      have := mt UInt32.lt_iff_toNat_lt.mpr hn
      simpa using this
    rw [h0, tmp_digits, if_neg (by omega)]
    rfl

theorem digits_length_le (k : NumberConv) (n : UInt32) :
    (k.digits n.toNat).length ≤ if k.base = 16 then 8 else 10 := by
  have hn := n.toNat_lt
  have hlen : (Nat.digits k.base n.toNat).length ≤ if k.base = 16 then 8 else 10 := by
    rw [Nat.digits_length_le_iff k.one_lt_base]
    cases k <;> simp only [NumberConv.base] <;> norm_num <;> omega
  rw [NumberConv.digits, List.length_map]
  split
  · cases k <;> decide
  · rwa [List.length_reverse]

/-- The whole of it stores the characters of `format_uint`, in whatever buffer. -/
theorem format_uint_buf_eq (k : NumberConv) (tmp : CharArray 10) (out : CharArray size) (n : UInt32)
    (width : Int) (pad : UInt8) :
    format_uint_buf tmp out n (UInt32.ofNat k.base) k.table width pad =
      store_all out 0 (format_uint n k.base k.table width pad) := by
  have hrev := tmp_reverse k n
  obtain ⟨ds, hds⟩ : ∃ ds, ds = if n = 0 then chars "0" else tmp_digits k.table k.base n.toNat :=
    ⟨_, rfl⟩
  have hlen : ds.length ≤ 10 := by
    have := digits_length_le k n
    rw [← hrev, List.length_reverse, ← hds] at this
    split at this <;> omega
  have hfirst : (if n = 0 then some (tmp.set 0 '0'.toUInt8, 1)
      else digit_loop k.table (UInt32.ofNat k.base) tmp 0 n) = store_all tmp 0 ds := by
    rw [hds]
    split
    · rfl
    · exact digit_loop_eq k tmp 0 n
  obtain ⟨tmp', hrun, hlist⟩ := store_all_fits tmp 0 ds (by omega)
  have htake : tmp'.toList.take ds.length = ds := by
    rw [hlist]
    simp
  rw [Nat.zero_add] at hrun
  have hformat : format_uint n k.base k.table width pad =
      List.replicate (width - ds.length).toNat pad ++ ds.reverse := by
    rw [hds]
    rfl
  rw [format_uint_buf, hfirst, hrun, hformat, store_all_append]
  change (pad_loop width pad ds.length out 0).bind _ = _
  rw [pad_loop_eq]
  refine congrArg _ (funext fun r => ?_)
  exact (copy_loop_eq tmp' r.1 r.2 hlen).trans (by rw [htake])

/-! ## The characters -/

/-- The digit that a character stands for. -/
def digit_value (c : UInt8) : Nat :=
  if is_digit c then c.toNat - '0'.toNat
  else if 'a'.toUInt8 ≤ c then c.toNat - 'a'.toNat + 10
  else c.toNat - 'A'.toNat + 10

/-- The number that the characters stand for, read from left to right. -/
def parse_uint (base : Nat) (cs : List UInt8) : Nat :=
  cs.foldl (fun v c => v * base + digit_value c) 0

theorem digit_value_digit (k : NumberConv) {i : Nat} (hi : i < k.base) :
    digit_value (k.digit i) = i := by
  cases k <;> simp only [NumberConv.base] at hi <;> interval_cases i <;> decide

theorem parse_reverse (k : NumberConv) {ds : List Nat} (hds : ∀ d ∈ ds, d < k.base) :
    parse_uint k.base (ds.reverse.map k.digit) = Nat.ofDigits k.base ds := by
  induction ds with
  | nil => rfl
  | cons d ds ih =>
    obtain ⟨hd, hds⟩ := List.forall_mem_cons.mp hds
    rw [List.reverse_cons, List.map_append, parse_uint, List.foldl_append]
    change parse_uint k.base (ds.reverse.map k.digit) * k.base + digit_value (k.digit d) = _
    rw [ih hds, digit_value_digit k hd, Nat.ofDigits_cons, Nat.mul_comm, Nat.add_comm]

/-- The digits of `n` with their values, the most significant first. -/
theorem digits_eq_reverse (k : NumberConv) (n : Nat) : ∃ ds : List Nat,
    k.digits n = ds.reverse.map k.digit ∧ (∀ d ∈ ds, d < k.base) ∧ Nat.ofDigits k.base ds = n ∧
      (ds.reverse.head? = some 0 → ds = [0]) := by
  by_cases h0 : n = 0
  · subst h0
    refine ⟨[0], rfl, ?_, rfl, fun _ => rfl⟩
    exact List.forall_mem_singleton.mpr (Nat.lt_of_succ_lt k.one_lt_base)
  · refine ⟨Nat.digits k.base n, ?_, fun d hd => Nat.digits_lt_base k.one_lt_base hd,
      Nat.ofDigits_digits _ _, fun hhead => ?_⟩
    · rw [NumberConv.digits, if_neg h0]
    · rw [List.head?_reverse, List.getLast?_eq_some_getLast (Nat.digits_ne_nil_iff_ne_zero.mpr h0)]
        at hhead
      exact absurd (Option.some.inj hhead) (Nat.getLast_digit_ne_zero _ h0)

theorem parse_digits (k : NumberConv) (n : Nat) : parse_uint k.base (k.digits n) = n := by
  obtain ⟨ds, hdigits, hlt, hvalue, -⟩ := digits_eq_reverse k n
  rw [hdigits, parse_reverse k hlt, hvalue]

theorem digits_mem_table (k : NumberConv) (n : Nat) : ∀ c ∈ k.digits n, c ∈ k.table := by
  obtain ⟨ds, hdigits, hlt, -, -⟩ := digits_eq_reverse k n
  intro c hc
  rw [hdigits] at hc
  obtain ⟨d, hd, rfl⟩ := List.mem_map.mp hc
  exact List.mem_of_getElem? (table_get k (hlt d (List.mem_reverse.mp hd)))

theorem digits_no_leading_zero (k : NumberConv) {n : Nat}
    (hhead : (k.digits n).head? = some '0'.toUInt8) : k.digits n = chars "0" := by
  obtain ⟨ds, hdigits, hlt, -, hzero⟩ := digits_eq_reverse k n
  rw [hdigits] at hhead ⊢
  obtain ⟨d, hd, hchar⟩ := Option.map_eq_some_iff.mp (List.head?_map.symm.trans hhead)
  have hd0 : d = 0 := by
    have hvalue := digit_value_digit k (hlt d (List.mem_reverse.mp (List.mem_of_head? hd)))
    rw [hchar] at hvalue
    exact hvalue.symm
  rw [hzero (hd0 ▸ hd)]
  cases k <;> rfl

/-- The padding and the digits. -/
def uint_field (k : NumberConv) (n : UInt32) (width : Int) (pad : UInt8) : List UInt8 :=
  List.replicate (width - (k.digits n.toNat).length).toNat pad ++ k.digits n.toNat

theorem uint_field_length (k : NumberConv) (n : UInt32) (width : Int) (pad : UInt8) :
    ((uint_field k n width pad).length : Int) = max width (k.digits n.toNat).length := by
  rw [uint_field, List.length_append, List.length_replicate]
  omega

theorem uint_field_fits (k : NumberConv) (n : UInt32) {width : Int} (pad : UInt8)
    (hwidth : width ≤ 16) : (uint_field k n width pad).length ≤ 16 := by
  have hlen := uint_field_length k n width pad
  have hdigits := digits_length_le k n
  split at hdigits <;> omega

theorem format_uint_field (k : NumberConv) (n : UInt32) (width : Int) (pad : UInt8) {size : Nat}
    (tmp : CharArray 10) (out : CharArray size)
    (hsize : (uint_field k n width pad).length ≤ size) :
    ∃ out', format_uint_buf tmp out n (UInt32.ofNat k.base) k.table width pad =
        some (out', (uint_field k n width pad).length) ∧
      out'.toList = uint_field k n width pad ++
        out.toList.drop (uint_field k n width pad).length := by
  obtain ⟨out', hrun, hlist⟩ := store_all_fits out 0 (uint_field k n width pad) (by omega)
  rw [Nat.zero_add] at hrun hlist
  refine ⟨out', ?_, hlist⟩
  rw [format_uint_buf_eq, format_uint_eq]
  exact hrun

theorem hex_field_length (k : NumberConv) (n : UInt32) (pad : UInt8) (hbase : k.base = 16) :
    (uint_field k n 8 pad).length = 8 := by
  have hlen := uint_field_length k n 8 pad
  have hdigits := digits_length_le k n
  rw [if_pos hbase] at hdigits
  omega

/-- Of `tmp` no index but the first 10 is used, and of `out` none but those that the characters take:
there is no fault in a buffer that holds them, and there is one in any other. -/
theorem format_uint_exact (k : NumberConv) (n : UInt32) (width : Int) (pad : UInt8)
    (hwidth : width ≤ 16) :
    ((uint_field k n width pad).length : Int) = max width (k.digits n.toNat).length ∧
      (uint_field k n width pad).length ≤ 16 ∧
      (k.digits n.toNat).length ≤ 10 ∧
      parse_uint k.base (k.digits n.toNat) = n.toNat ∧
      (∀ c ∈ k.digits n.toNat, c ∈ k.table) ∧
      ((k.digits n.toNat).head? = some '0'.toUInt8 → k.digits n.toNat = chars "0") ∧
      (k.base = 16 → width = 8 → (uint_field k n width pad).length = 8) ∧
      ∀ (size : Nat) (tmp : CharArray 10) (out : CharArray size),
        ((uint_field k n width pad).length ≤ size →
          ∃ out', format_uint_buf tmp out n (UInt32.ofNat k.base) k.table width pad =
              some (out', (uint_field k n width pad).length) ∧
            out'.toList = uint_field k n width pad ++
              out.toList.drop (uint_field k n width pad).length) ∧
        (size < (uint_field k n width pad).length →
          format_uint_buf tmp out n (UInt32.ofNat k.base) k.table width pad = none) := by
  have hten : (k.digits n.toNat).length ≤ 10 := by
    have := digits_length_le k n
    split at this <;> omega
  refine ⟨uint_field_length k n width pad, uint_field_fits k n pad hwidth, hten,
    parse_digits k _, digits_mem_table k _, digits_no_leading_zero k, ?_, fun size tmp out => ⟨?_, ?_⟩⟩
  · rintro hbase rfl
    exact hex_field_length k n pad hbase
  · exact format_uint_field k n width pad tmp out
  · intro hlong
    rw [format_uint_buf_eq, format_uint_eq]
    exact store_all_too_long out (Nat.zero_le _) (by rwa [Nat.zero_add])

theorem format_uint_exact_deadbeef :
    (8 : Int) ≤ 16 ∧ (uint_field .X 0xDEADBEEF 8 48).length = 8 ∧
      parse_uint 16 (NumberConv.X.digits (0xDEADBEEF : UInt32).toNat) = 0xDEADBEEF := by
  obtain ⟨-, -, -, hparse, -, -, hlen, -⟩ := format_uint_exact .X 0xDEADBEEF 8 48 (by decide)
  exact ⟨by decide, hlen rfl rfl, hparse⟩

/-! ## The callers -/

/-- `sink_put_uint` puts the characters of `format_uint`: they all fit `numbuf`. -/
theorem sink_put_uint_buf_eq (k : NumberConv) (tmp : CharArray 10) (numbuf : CharArray 16)
    (sink : PrintfSink) (n : UInt32) (width : Int) (pad : UInt8) :
    sink_put_uint_buf tmp numbuf sink n (UInt32.ofNat k.base) k.table width pad =
      some (sink_put_uint sink n k.base k.table width pad) := by
  obtain ⟨w, hw⟩ : ∃ w, w = if width > PRINTF_NUM_BUF_SIZE then PRINTF_NUM_BUF_SIZE else width :=
    ⟨_, rfl⟩
  have hle : w ≤ 16 := by
    rw [hw, PRINTF_NUM_BUF_SIZE]
    split <;> omega
  obtain ⟨out, hrun, hlist⟩ :=
    format_uint_field k n w pad tmp numbuf (uint_field_fits k n pad hle)
  rw [sink_put_uint_buf, sink_put_uint, ← hw, hrun, format_uint_eq]
  change some (sink_put_all sink (out.toList.take (uint_field k n w pad).length)) = _
  rw [hlist, List.take_left']
  · rfl
  · rfl

/-- `fault_puthex` sends 8 digits, whatever the stack holds. -/
theorem fault_puthex_eq (tmp : CharArray 10) (digits : CharArray 8) (v : UInt32) :
    fault_puthex tmp digits v = some (chars "0x" ++
      (List.replicate (8 - (NumberConv.X.digits v.toNat).length) '0'.toUInt8 ++
        NumberConv.X.digits v.toNat)) := by
  have hlen := hex_field_length .X v '0'.toUInt8 rfl
  obtain ⟨out, hrun, hlist⟩ := format_uint_field .X v 8 '0'.toUInt8 tmp digits hlen.le
  have hdrop : digits.toList.drop (uint_field .X v 8 '0'.toUInt8).length = [] :=
    List.drop_eq_nil_of_le (by rw [hlen, Vector.length_toList])
  have hfill : ((8 : Int) - (NumberConv.X.digits v.toNat).length).toNat =
      8 - (NumberConv.X.digits v.toNat).length := by omega
  rw [hdrop, List.append_nil, uint_field, hfill] at hlist
  rw [← hlist]
  change (format_uint_buf tmp digits v (UInt32.ofNat NumberConv.X.base) NumberConv.X.table 8 _).bind _
    = _
  rw [hrun]
  rfl

end Rpitos
