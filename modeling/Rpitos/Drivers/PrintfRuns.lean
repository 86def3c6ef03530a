import Mathlib.Data.List.TakeWhile
import Mathlib.Tactic.SplitIfs
import Rpitos.Drivers.Printf

/-!
# Drivers.PrintfRuns

What one conversion and a whole run of `uart_vprintf` give to the sink, and what the sink prints.

* `vprintf_in_bounds`: the format is read only up to its NUL exactly when its conversions are complete;
  else the run ends in a read behind the NUL.
* `sink_transparent`: what is printed is what was given.
-/

namespace Rpitos

open Function (update update_self update_of_ne)

/-! ## The sink -/

/-- What is in the buffer and not printed. -/
def PrintfSink.waiting (sink : PrintfSink) : List UInt8 := (List.range sink.pos).map sink.buf

/-- Between two characters: there is room for a NUL, and as long as none was given nothing is lost. -/
structure SinkInv (sink : PrintfSink) : Prop where
  pos_lt : sink.pos < PRINTF_CHUNK_SIZE
  given_eq : 0 ∉ sink.given → sink.printed.flatten ++ sink.waiting = sink.given
  nonempty : 0 ∉ sink.given → ∀ s ∈ sink.printed, s ≠ []

theorem SinkInv.fresh : SinkInv ⟨fun _ => 0, 0, [], []⟩ :=
  ⟨by decide, fun _ => rfl, fun _ s hs => absurd hs (by simp)⟩

theorem range_update {α : Type} (buf : Nat → α) (n : Nat) (c : α) :
    (List.range n).map (update buf n c) = (List.range n).map buf := by
  refine List.map_congr_left fun i hi => ?_
  have := List.mem_range.mp hi
  exact update_of_ne (by omega) _ _

theorem buf_string_at (buf : Nat → UInt8) {n : Nat} (hn : n < PRINTF_CHUNK_SIZE) :
    ∃ s, buf_string (update buf n 0) = .ok s ∧
      (0 ∉ (List.range n).map buf → s = (List.range n).map buf) := by
  obtain ⟨m, hm⟩ : ∃ m, PRINTF_CHUNK_SIZE = n + (m + 1) := ⟨PRINTF_CHUNK_SIZE - n - 1, by omega⟩
  have hs : (List.range PRINTF_CHUNK_SIZE).map (update buf n 0) =
      (List.range n).map buf ++ 0 :: (List.range m).map fun i => update buf n 0 (n + (i + 1)) := by
    rw [hm, List.range_add, List.map_append, range_update, List.range_succ_eq_map]
    simp [Function.comp_def]
  refine ⟨_, by rw [buf_string, hs]; exact if_pos (by simp), fun h0 => ?_⟩
  rw [List.takeWhile_append_of_pos, List.takeWhile_cons_of_neg (by simp), List.append_nil]
  intro c hc
  have : c ≠ 0 := fun h => h0 (h ▸ hc)
  simpa using this

/-- A result in which the sink has got `cs`. -/
def Puts (sink : PrintfSink) (cs : List UInt8) : Except PrintfFault PrintfSink → Prop
  | .ok sink' => SinkInv sink' ∧ sink'.given = sink.given ++ cs
  | .error _ => False

theorem Puts.ok {sink : PrintfSink} {cs : List UInt8} {r : Except PrintfFault PrintfSink}
    (h : Puts sink cs r) :
    ∃ sink', r = .ok sink' ∧ SinkInv sink' ∧ sink'.given = sink.given ++ cs := by
  cases r with
  | error e => exact h.elim
  | ok sink' => exact ⟨sink', rfl, h⟩

theorem Puts.bind {sink : PrintfSink} {cs ds : List UInt8} {r : Except PrintfFault PrintfSink}
    {f : PrintfSink → Except PrintfFault PrintfSink} (hr : Puts sink cs r)
    (hf : ∀ sink', SinkInv sink' → Puts sink' ds (f sink')) : Puts sink (cs ++ ds) (r >>= f) := by
  obtain ⟨sink', rfl, hinv, hgiven⟩ := hr.ok
  obtain ⟨sink'', hf', hinv', hgiven'⟩ := (hf sink' hinv).ok
  change Puts sink (cs ++ ds) (f sink')
  rw [hf']
  exact ⟨hinv', by rw [hgiven', hgiven, List.append_assoc]⟩

theorem Puts.of_given {sink sink' : PrintfSink} {cs : List UInt8}
    {r : Except PrintfFault PrintfSink} (h : sink'.given = sink.given) (hr : Puts sink' cs r) :
    Puts sink cs r := by
  cases r with
  | error e => exact hr
  | ok s => exact ⟨hr.1, by rw [hr.2, h]⟩

/-- A flush leaves the buffer empty. -/
theorem flush_puts {sink : PrintfSink} (hinv : SinkInv sink) :
    ∃ sink', sink_flush sink = .ok sink' ∧ SinkInv sink' ∧ sink'.given = sink.given ∧
      sink'.pos = 0 := by
  by_cases hpos : sink.pos > 0
  · obtain ⟨s, hs, hwait⟩ := buf_string_at sink.buf hinv.pos_lt
    have hflush : sink_flush sink = .ok
        { sink with buf := update sink.buf sink.pos 0, printed := sink.printed ++ [s], pos := 0 } := by
      simp [sink_flush, hpos, store_char, hinv.pos_lt, sink_print, hs, bind, Except.bind, pure,
        Except.pure]
    refine ⟨_, hflush, ⟨Nat.zero_lt_succ _, fun h0 => ?_, fun h0 => ?_⟩, rfl, rfl⟩
    · have heq := hinv.given_eq h0
      have hw : s = sink.waiting := hwait fun h => h0 (heq ▸ List.mem_append_right _ h)
      simp [PrintfSink.waiting, hw, ← heq]
    · have heq := hinv.given_eq h0
      have hw : s = sink.waiting := hwait fun h => h0 (heq ▸ List.mem_append_right _ h)
      intro t ht
      rcases List.mem_append.mp ht with ht | ht
      · exact hinv.nonempty h0 t ht
      · obtain rfl := List.mem_singleton.mp ht
        rw [hw, ← List.length_pos_iff]
        simpa [PrintfSink.waiting] using hpos
  · exact ⟨sink, by simp [sink_flush, hpos, pure, Except.pure], hinv, rfl, by omega⟩

theorem store_puts {sink : PrintfSink} (c : UInt8) (hinv : SinkInv sink)
    (hroom : sink.pos < PRINTF_CHUNK_SIZE - 1) :
    Puts sink [c] (do
      let sink ← store_char sink sink.pos c
      pure { sink with pos := sink.pos + 1, given := sink.given ++ [c] }) := by
  have hlt : sink.pos < PRINTF_CHUNK_SIZE := hinv.pos_lt
  simp only [store_char, if_pos hlt]
  refine ⟨⟨?_, fun h0 => ?_, fun h0 => ?_⟩, rfl⟩
  · show sink.pos + 1 < PRINTF_CHUNK_SIZE
    omega
  · have heq := hinv.given_eq fun h => h0 (List.mem_append_left _ h)
    simp only [PrintfSink.waiting] at heq ⊢
    rw [List.range_succ, List.map_append, range_update, ← List.append_assoc, heq]
    simp
  · exact hinv.nonempty fun h => h0 (List.mem_append_left _ h)

theorem putc_puts {sink : PrintfSink} (c : UInt8) (hinv : SinkInv sink) :
    Puts sink [c] (sink_putc sink c) := by
  by_cases hfull : sink.pos ≥ PRINTF_CHUNK_SIZE - 1
  · obtain ⟨sink', hflush, hinv', hgiven, hpos⟩ := flush_puts hinv
    simp only [sink_putc, if_pos hfull, hflush]
    exact Puts.of_given hgiven (store_puts c hinv' (by rw [hpos]; decide))
  · simp only [sink_putc, if_neg hfull]
    exact store_puts c hinv (by omega)

theorem put_all_puts {sink : PrintfSink} (cs : List UInt8) (hinv : SinkInv sink) :
    Puts sink cs (sink_put_all sink cs) := by
  induction cs generalizing sink with
  | nil => exact ⟨hinv, by simp⟩
  | cons c cs ih => exact (putc_puts c hinv).bind fun sink' hinv' => ih hinv'

/-! ## A conversion -/

/-- A result in which the sink has got `cs` and the arguments `rest` are left. -/
def Emits (sink : PrintfSink) (cs : List UInt8) (rest : VaList) :
    Except PrintfFault (PrintfSink × VaList) → Prop
  | .ok (sink', args) => SinkInv sink' ∧ sink'.given = sink.given ++ cs ∧ args = rest
  | .error _ => False

theorem Emits.ok {sink : PrintfSink} {cs : List UInt8} {rest : VaList}
    {r : Except PrintfFault (PrintfSink × VaList)} (h : Emits sink cs rest r) :
    ∃ sink', r = .ok (sink', rest) ∧ SinkInv sink' ∧ sink'.given = sink.given ++ cs := by
  cases r with
  | error e => exact h.elim
  | ok r =>
    obtain ⟨hinv, hgiven, rfl⟩ := h
    exact ⟨r.1, rfl, hinv, hgiven⟩

theorem Puts.emits {sink : PrintfSink} {cs : List UInt8} {r : Except PrintfFault PrintfSink}
    (rest : VaList) (h : Puts sink cs r) :
    Emits sink cs rest (r >>= fun sink => pure (sink, rest)) := by
  obtain ⟨sink', rfl, hinv, hgiven⟩ := h.ok
  exact ⟨hinv, hgiven, rfl⟩

/-- The characters of `sink_put_uint`. -/
def uint_chars (n : UInt32) (base : Nat) (digits : List UInt8) (width : Int) (pad : UInt8) :
    List UInt8 :=
  format_uint n base digits (if width > PRINTF_NUM_BUF_SIZE then PRINTF_NUM_BUF_SIZE else width) pad

/-- The characters of `sink_put_int`. -/
def int_chars (n : Int32) (width : Int) (pad : UInt8) : List UInt8 :=
  if n < 0 then
    '-'.toUInt8 :: uint_chars (-n).toUInt32 10 decimal (if width > 0 then width - 1 else 0) pad
  else uint_chars n.toUInt32 10 decimal width pad

theorem put_uint_puts {sink : PrintfSink} (n : UInt32) (base : Nat) (digits : List UInt8)
    (width : Int) (pad : UInt8) (hinv : SinkInv sink) :
    Puts sink (uint_chars n base digits width pad) (sink_put_uint sink n base digits width pad) :=
  put_all_puts _ hinv

theorem put_int_puts {sink : PrintfSink} (n : Int32) (width : Int) (pad : UInt8)
    (hinv : SinkInv sink) : Puts sink (int_chars n width pad) (sink_put_int sink n width pad) := by
  unfold int_chars sink_put_int
  split
  · exact (putc_puts _ hinv).bind fun _ hinv => put_uint_puts _ _ _ _ _ hinv
  · exact put_uint_puts _ _ _ _ _ hinv

/-- What `convert` gives to the sink does not depend on the sink. -/
theorem convert_emits (strings : UInt32 → CString) (c : Conversion) (args : VaList) :
    ∃ cs rest, ∀ sink, SinkInv sink → Emits sink cs rest (convert strings c args sink) := by
  unfold convert
  split_ifs
  · exact ⟨_, _, fun sink hinv => (putc_puts _ hinv).emits _⟩
  · exact ⟨_, _, fun sink hinv => (put_all_puts _ hinv).emits _⟩
  · exact ⟨_, _, fun sink hinv => (put_all_puts _ hinv).emits _⟩
  · exact ⟨_, _, fun sink hinv => (put_int_puts _ _ _ hinv).emits _⟩
  · exact ⟨_, _, fun sink hinv => (put_uint_puts _ _ _ _ _ hinv).emits _⟩
  · exact ⟨_, _, fun sink hinv => (put_uint_puts _ _ _ _ _ hinv).emits _⟩
  · exact ⟨_, _, fun sink hinv => (put_uint_puts _ _ _ _ _ hinv).emits _⟩
  · exact ⟨_, _, fun sink hinv => (putc_puts _ hinv).emits _⟩
  · refine ⟨['%'.toUInt8] ++ [c.char], args, fun sink hinv => ?_⟩
    have hput := (putc_puts '%'.toUInt8 hinv).bind fun _ hinv => putc_puts c.char hinv
    rw [← bind_assoc]
    exact hput.emits _

/-- The conversion that the digits `ds` and the character `k` behind a `%` stand for. -/
def conversion_of (ds : List UInt8) (k : UInt8) : Conversion :=
  if ds.head? = some 48 then ⟨48, ds.tail.foldl next_width 0, k⟩
  else ⟨32, ds.foldl next_width 0, k⟩

theorem read_width_at {ds : List UInt8} (hds : ∀ d ∈ ds, is_digit d) {k : UInt8}
    (hk : ¬ is_digit k) (tail : List UInt8) (w : Int) :
    read_width (ds ++ k :: tail) w = .ok (ds.foldl next_width w, k :: tail) := by
  induction ds generalizing w with
  | nil => simp [read_width, hk]
  | cons d ds ih =>
    have hd : is_digit d := hds d (by simp)
    simp only [List.cons_append, read_width, if_pos hd, List.foldl_cons]
    exact ih (fun e he => hds e (List.mem_cons_of_mem _ he)) _

theorem read_conversion_at {ds : List UInt8} (hds : ∀ d ∈ ds, is_digit d) {k : UInt8}
    (hk : ¬ is_digit k) (tail : List UInt8) :
    read_conversion (ds ++ k :: tail) = .ok (conversion_of ds k, tail) := by
  cases ds with
  | nil =>
    have hne : k ≠ 48 := fun h => hk (h ▸ by decide)
    simp [read_conversion, conversion_of, hne, read_width, hk, bind, Except.bind, pure, Except.pure]
  | cons d ds =>
    by_cases hd : d = 48
    · have := read_width_at (fun e he => hds e (List.mem_cons_of_mem _ he)) hk tail 0
      simp [read_conversion, conversion_of, hd, this, bind, Except.bind, pure, Except.pure]
    · have := read_width_at hds hk tail 0
      simp only [List.cons_append] at this
      simp [read_conversion, conversion_of, hd, this, bind, Except.bind, pure, Except.pure]

/-! ## A run -/

/-- A conversion character stands behind the digits of every `%`. -/
def complete : List UInt8 → Bool
  | [] => true
  | c :: fmt =>
    if c ≠ '%'.toUInt8 then complete fmt
    else match _h : fmt.dropWhile is_digit with
      | [] => false
      | _ :: rest => complete rest
termination_by fmt => fmt.length
decreasing_by
  · simp
  · have := List.Sublist.length_le (List.dropWhile_sublist is_digit (l := fmt))
    rw [_h] at this
    simp only [List.length_cons] at this ⊢
    omega

theorem loop_char (strings : UInt32 → CString) {c : UInt8} (h0 : c ≠ 0) (hc : c ≠ '%'.toUInt8)
    (fmt : List UInt8) (args : VaList) (sink : PrintfSink) :
    vprintf_loop strings (c :: fmt) args sink =
      sink_putc sink c >>= vprintf_loop strings fmt args := by
  rw [vprintf_loop, if_neg h0, if_pos hc]

theorem loop_conversion (strings : UInt32 → CString) {ds : List UInt8}
    (hds : ∀ d ∈ ds, is_digit d) {k : UInt8} (hk : ¬ is_digit k) (tail : List UInt8)
    (args : VaList) (sink : PrintfSink) :
    vprintf_loop strings ('%'.toUInt8 :: (ds ++ k :: tail)) args sink =
      convert strings (conversion_of ds k) args sink >>= fun r =>
        vprintf_loop strings tail r.2 r.1 := by
  rw [vprintf_loop, if_neg (by decide), if_neg (by simp)]
  split
  · rename_i e he
    rw [read_conversion_at hds hk] at he
    cases he
  · rename_i conv rest he
    rw [read_conversion_at hds hk] at he
    cases he
    rfl

theorem loop_end (strings : UInt32 → CString) (args : VaList) {sink : PrintfSink}
    (hinv : SinkInv sink) : ∃ sink', vprintf_loop strings [0] args sink = .ok (sink', args) ∧
      SinkInv sink' ∧ sink'.given = sink.given ∧ sink'.pos = 0 := by
  obtain ⟨sink', hflush, hsink'⟩ := flush_puts hinv
  exact ⟨sink', by rw [vprintf_loop, if_pos rfl, hflush]; rfl, hsink'⟩

/-- A format is read character by character and conversion by conversion; the last one may be cut off
behind its digits. -/
@[elab_as_elim]
theorem format_induction {motive : List UInt8 → Prop} (nil : motive [])
    (char : ∀ c fmt, c ≠ '%'.toUInt8 → motive fmt → motive (c :: fmt))
    (cut : ∀ ds, (∀ d ∈ ds, is_digit d) → motive ('%'.toUInt8 :: ds))
    (conversion : ∀ ds k fmt, (∀ d ∈ ds, is_digit d) → ¬ is_digit k → motive fmt →
      motive ('%'.toUInt8 :: (ds ++ k :: fmt))) (fmt : List UInt8) : motive fmt := by
  induction fmt using complete.induct with
  | case1 => exact nil
  | case2 c fmt hc ih => exact char c fmt hc ih
  | case3 c fmt hc hcut =>
    obtain rfl : c = '%'.toUInt8 := not_not.mp hc
    exact cut fmt (List.dropWhile_eq_nil_iff.mp hcut)
  | case4 c fmt hc k behind hcut ih =>
    obtain rfl : c = '%'.toUInt8 := not_not.mp hc
    have hk := List.head?_dropWhile_not is_digit fmt
    rw [← List.takeWhile_append_dropWhile (p := is_digit) (l := fmt), hcut]
    refine conversion _ k behind (fun d hd => ?_) (by simpa [hcut] using hk) ih
    exact List.all_eq_true.mp List.all_takeWhile d hd

theorem complete_char {c : UInt8} (hc : c ≠ '%'.toUInt8) (fmt : List UInt8) :
    complete (c :: fmt) = complete fmt := by
  rw [complete, if_pos hc]

theorem complete_cut {ds : List UInt8} (hds : ∀ d ∈ ds, is_digit d) :
    complete ('%'.toUInt8 :: ds) = false := by
  rw [complete, if_neg (by simp)]
  split
  · rfl
  · rename_i h
    simp [List.dropWhile_eq_nil_iff.mpr hds] at h

theorem complete_conversion {ds : List UInt8} (hds : ∀ d ∈ ds, is_digit d) {k : UInt8}
    (hk : ¬ is_digit k) (fmt : List UInt8) :
    complete ('%'.toUInt8 :: (ds ++ k :: fmt)) = complete fmt := by
  have hdrop : (ds ++ k :: fmt).dropWhile is_digit = k :: fmt := by
    rw [List.dropWhile_append_of_pos hds, List.dropWhile_cons_of_neg hk]
  rw [complete, if_neg (by simp)]
  split
  · rename_i h
    simp [hdrop] at h
  · rename_i h
    rw [hdrop] at h
    cases h
    rfl

/-- A complete part of the format: what it gives to the sink and which arguments it takes depends
neither on the sink nor on what stands behind it. -/
theorem loop_emits (strings : UInt32 → CString) {fmt : List UInt8} (h0 : 0 ∉ fmt)
    (hfmt : complete fmt) (args : VaList) :
    ∃ cs rest, ∀ tail sink, SinkInv sink → ∃ sink', SinkInv sink' ∧
      sink'.given = sink.given ++ cs ∧
      vprintf_loop strings (fmt ++ tail) args sink = vprintf_loop strings tail rest sink' := by
  induction fmt using format_induction generalizing args with
  | nil => exact ⟨[], args, fun tail sink hinv => ⟨sink, hinv, by simp, rfl⟩⟩
  | char c fmt hc ih =>
    obtain ⟨cs, rest, hrun⟩ := ih (by simp_all) (complete_char hc fmt ▸ hfmt) args
    refine ⟨c :: cs, rest, fun tail sink hinv => ?_⟩
    obtain ⟨sink₁, hput, hinv₁, hgiven₁⟩ := (putc_puts c hinv).ok
    obtain ⟨sink', hinv', hgiven, hloop⟩ := hrun tail sink₁ hinv₁
    rw [List.cons_append, loop_char strings (fun h => h0 (by simp [h])) hc, hput]
    exact ⟨sink', hinv', by simp [hgiven, hgiven₁], hloop⟩
  | cut ds hds => simp [complete_cut hds] at hfmt
  | conversion ds k fmt hds hk ih =>
    rw [complete_conversion hds hk] at hfmt
    obtain ⟨cs, rest, hconv⟩ := convert_emits strings (conversion_of ds k) args
    obtain ⟨cs', rest', hrun⟩ := ih (by simp_all) hfmt rest
    refine ⟨cs ++ cs', rest', fun tail sink hinv => ?_⟩
    obtain ⟨sink₁, hemit, hinv₁, hgiven₁⟩ := (hconv sink hinv).ok
    obtain ⟨sink', hinv', hgiven, hloop⟩ := hrun tail sink₁ hinv₁
    rw [List.cons_append, List.append_assoc, List.cons_append, loop_conversion strings hds hk,
      hemit]
    exact ⟨sink', hinv', by simp [hgiven, hgiven₁], hloop⟩

/-- A conversion that the end of the format cuts off: the cursor steps over the NUL. -/
theorem loop_cut (strings : UInt32 → CString) {fmt : List UInt8} (h0 : 0 ∉ fmt)
    (hfmt : ¬ complete fmt) (args : VaList) {sink : PrintfSink} (hinv : SinkInv sink) :
    vprintf_loop strings (fmt ++ [0]) args sink = .error .fmt := by
  induction fmt using format_induction generalizing args sink with
  | nil => simp [complete] at hfmt
  | char c fmt hc ih =>
    obtain ⟨sink₁, hput, hinv₁, -⟩ := (putc_puts c hinv).ok
    rw [List.cons_append, loop_char strings (fun h => h0 (by simp [h])) hc, hput]
    exact ih (by simp_all) (complete_char hc fmt ▸ hfmt) args hinv₁
  | cut ds hds =>
    obtain ⟨cs, rest, hconv⟩ := convert_emits strings (conversion_of ds 0) args
    obtain ⟨sink₁, hemit, -⟩ := (hconv sink hinv).ok
    rw [List.cons_append, loop_conversion strings hds (by decide), hemit]
    exact vprintf_loop.eq_1 ..
  | conversion ds k fmt hds hk ih =>
    rw [complete_conversion hds hk] at hfmt
    obtain ⟨cs, rest, hconv⟩ := convert_emits strings (conversion_of ds k) args
    obtain ⟨sink₁, hemit, hinv₁, -⟩ := (hconv sink hinv).ok
    rw [List.cons_append, List.append_assoc, List.cons_append, loop_conversion strings hds hk,
      hemit]
    exact ih (by simp_all) hfmt rest hinv₁

/-- A run of `uart_vprintf` over a complete format, also as a part of a longer one. -/
theorem vprintf_emits (strings : UInt32 → CString) {fmt : CString} (hfmt : complete fmt.chars)
    (args : VaList) :
    ∃ a rest, uart_vprintf strings fmt args = .ok (a, rest) ∧ SinkInv a ∧ a.pos = 0 ∧
      ∀ tail sink, SinkInv sink → ∃ sink', SinkInv sink' ∧ sink'.given = sink.given ++ a.given ∧
        vprintf_loop strings (fmt.chars ++ tail) args sink =
          vprintf_loop strings tail rest sink' := by
  obtain ⟨cs, rest, hrun⟩ := loop_emits strings fmt.no_nul hfmt args
  obtain ⟨sink, hinv, hgiven, hloop⟩ := hrun [0] _ SinkInv.fresh
  obtain ⟨a, hend, hinv', hgiven', hpos⟩ := loop_end strings rest hinv
  have hcs : a.given = cs := hgiven'.trans hgiven
  exact ⟨a, rest, hloop.trans hend, hinv', hpos, hcs ▸ hrun⟩

/-- Behind a conversion that the format cuts off, the cursor is past the NUL. -/
theorem vprintf_cut (strings : UInt32 → CString) {fmt : CString} (hcut : ¬ complete fmt.chars)
    (args : VaList) : uart_vprintf strings fmt args = .error .fmt :=
  loop_cut strings fmt.no_nul hcut args SinkInv.fresh

theorem complete_of_ok {strings : UInt32 → CString} {fmt : CString} {args : VaList}
    {r : PrintfSink × VaList} (h : uart_vprintf strings fmt args = .ok r) :
    complete fmt.chars := by
  by_contra hcut
  rw [vprintf_cut strings hcut args] at h
  cases h

/-- The format is read only up to its NUL, and the run ends, exactly if every conversion is complete.
A run that fails fails by the read behind the NUL. -/
theorem vprintf_in_bounds (strings : UInt32 → CString) (fmt : CString) (args : VaList) :
    ((∃ r, uart_vprintf strings fmt args = .ok r) ↔ complete fmt.chars) ∧
      (uart_vprintf strings fmt args = .error .fmt ↔ ¬ complete fmt.chars) := by
  have hok : complete fmt.chars → ∃ r, uart_vprintf strings fmt args = .ok r := by
    intro hfmt
    obtain ⟨a, rest, hrun, -⟩ := vprintf_emits strings hfmt args
    exact ⟨_, hrun⟩
  refine ⟨⟨?_, hok⟩, ?_, fun hcut => vprintf_cut strings hcut args⟩
  · rintro ⟨r, hr⟩
    exact complete_of_ok hr
  · intro herr hfmt
    obtain ⟨r, hr⟩ := hok hfmt
    rw [hr] at herr
    cases herr

/-- `"%"`: the NUL counts as a conversion character, and the cursor goes on behind it. -/
theorem percent_read_past :
    ¬ ∀ (strings : UInt32 → CString) (fmt : CString) (args : VaList),
      uart_vprintf strings fmt args ≠ .error .fmt := by
  intro h
  have hcut : ¬ complete ['%'.toUInt8] := by rw [complete_cut (by simp)]; simp
  exact h (fun _ => ⟨[], by simp⟩) ⟨['%'.toUInt8], by decide⟩ (fun _ => 0)
    (vprintf_cut _ hcut _)

/-- What is printed is what was given, in strings that are not empty; the buffer is never left, and
never printed without a NUL. -/
theorem sink_transparent (strings : UInt32 → CString) (fmt : CString) (args : VaList)
    (hfmt : complete fmt.chars) :
    ∃ r, uart_vprintf strings fmt args = .ok r ∧
      (0 ∉ r.1.given → r.1.printed.flatten = r.1.given ∧ ∀ s ∈ r.1.printed, s ≠ []) := by
  obtain ⟨a, rest, hrun, hinv, hpos, -⟩ := vprintf_emits strings hfmt args
  refine ⟨_, hrun, fun h0 => ⟨?_, hinv.nonempty h0⟩⟩
  simpa [PrintfSink.waiting, hpos] using hinv.given_eq h0

/-- A string that does not fit the buffer: printed in one string of 31 characters and one of 13. -/
theorem sink_transparent_text :
    ∃ r, uart_vprintf (fun _ => ⟨chars "the quick brown fox jumps over the dog", by decide⟩)
        ⟨chars "a%s%5d", by decide⟩ (fun _ => 7) = .ok r ∧
      r.1.printed.flatten = r.1.given ∧ (∀ s ∈ r.1.printed, s ≠ []) ∧
      r.1.printed.map List.length = [31, 13] := by
  have hfmt : complete ('a'.toUInt8 :: '%'.toUInt8 :: ([] ++ 's'.toUInt8 ::
      '%'.toUInt8 :: (['5'.toUInt8] ++ 'd'.toUInt8 :: []))) := by
    have hfive : ∀ d ∈ ['5'.toUInt8], is_digit d := List.forall_mem_singleton.mpr rfl
    rw [complete_char (by decide), complete_conversion (by simp) (by decide),
      complete_conversion hfive (by decide), complete]
  obtain ⟨r, hr, hprinted⟩ := sink_transparent
    (fun _ => ⟨chars "the quick brown fox jumps over the dog", by decide⟩)
    ⟨chars "a%s%5d", by decide⟩ (fun _ => 7) hfmt
  have hrun : ((uart_vprintf (fun _ => ⟨chars "the quick brown fox jumps over the dog", by decide⟩)
      ⟨chars "a%s%5d", by decide⟩ (fun _ => 7)).toOption.map fun r =>
        (decide (0 ∈ r.1.given), r.1.printed.map List.length)) = some (false, [31, 13]) := by
    decide +kernel
  rw [hr] at hrun
  obtain ⟨hgiven, hlengths⟩ := Prod.mk.inj (Option.some.inj hrun)
  obtain ⟨hflat, hne⟩ := hprinted (of_decide_eq_false hgiven)
  exact ⟨r, hr, hflat, hne, hlengths⟩

end Rpitos
