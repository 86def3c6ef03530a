import Mathlib.Algebra.Group.Nat.Defs
import Mathlib.Logic.Function.Basic

/-!
# Drivers.Printf

The printf of `uart.c`: `uart_vprintf` over its sink of `PRINTF_CHUNK_SIZE` characters. A read of the
format past its terminating NUL, a store outside the sink's buffer and a string without a NUL are
faults. An argument is a word, of `%s` the address of a string; signed sums wrap at 32 bits.
-/

namespace Rpitos

open Function (update update_self update_of_ne)

def PRINTF_CHUNK_SIZE : Nat := 32
def PRINTF_NUM_BUF_SIZE : Int := 16

/-- The characters of a literal. -/
def chars (s : String) : List UInt8 := s.toList.map Char.toUInt8

/-- A string in memory: its characters up to the terminating NUL. -/
structure CString where
  chars : List UInt8
  no_nul : 0 ∉ chars

inductive PrintfFault where
  /-- A read of the format past its NUL. -/
  | fmt
  /-- A store outside `sink.buf`. -/
  | buf
  /-- `sink.buf` is printed without a NUL in it. -/
  | unterminated
  deriving DecidableEq, Repr

/-! ## Numbers -/

/-- The `while (n > 0)` of `format_uint`: what it appends to `tmp`. `base` is 10 or 16. -/
def tmp_digits (digits : List UInt8) (base n : Nat) : List UInt8 :=
  if 0 < n ∧ 1 < base then digits.getD (n % base) 0 :: tmp_digits digits base (n / base) else []
termination_by n
decreasing_by exact Nat.div_lt_self (by omega) (by omega)

/-- The characters in `out`. -/
def format_uint (n : UInt32) (base : Nat) (digits : List UInt8) (width : Int) (pad : UInt8) :
    List UInt8 :=
  let tmp := if n = 0 then chars "0" else tmp_digits digits base n.toNat
  List.replicate (width - tmp.length).toNat pad ++ tmp.reverse

/-! ## The sink -/

/-- `printed` are the strings that `uart_channel_print` has got, `given` are the characters that
`sink_putc` has got. -/
structure PrintfSink where
  buf : Nat → UInt8
  pos : Nat
  printed : List (List UInt8)
  given : List UInt8

/-- `sink->buf[i] = c`. -/
def store_char (sink : PrintfSink) (i : Nat) (c : UInt8) : Except PrintfFault PrintfSink :=
  if i < PRINTF_CHUNK_SIZE then .ok { sink with buf := update sink.buf i c } else .error .buf

/-- The string in the buffer: up to the first NUL. -/
def buf_string (buf : Nat → UInt8) : Except PrintfFault (List UInt8) :=
  let s := (List.range PRINTF_CHUNK_SIZE).map buf
  if 0 ∈ s then .ok (s.takeWhile (· ≠ 0)) else .error .unterminated

/-- `uart_channel_print(sink->channel, sink->buf)`. -/
def sink_print (sink : PrintfSink) : Except PrintfFault PrintfSink := do
  let s ← buf_string sink.buf
  pure { sink with printed := sink.printed ++ [s] }

def sink_flush (sink : PrintfSink) : Except PrintfFault PrintfSink :=
  if sink.pos > 0 then do
    let sink ← store_char sink sink.pos 0
    let sink ← sink_print sink
    pure { sink with pos := 0 }
  else pure sink

def sink_putc (sink : PrintfSink) (c : UInt8) : Except PrintfFault PrintfSink := do
  let sink ← if sink.pos ≥ PRINTF_CHUNK_SIZE - 1 then sink_flush sink else pure sink
  let sink ← store_char sink sink.pos c
  pure { sink with pos := sink.pos + 1, given := sink.given ++ [c] }

/-- `sink_putc` of these characters, one after the other. -/
def sink_put_all (sink : PrintfSink) : List UInt8 → Except PrintfFault PrintfSink
  | [] => pure sink
  | c :: cs => do
    let sink ← sink_putc sink c
    sink_put_all sink cs

def sink_puts (sink : PrintfSink) (s : CString) : Except PrintfFault PrintfSink :=
  sink_put_all sink s.chars

def sink_put_uint (sink : PrintfSink) (n : UInt32) (base : Nat) (digits : List UInt8) (width : Int)
    (pad : UInt8) : Except PrintfFault PrintfSink :=
  let width := if width > PRINTF_NUM_BUF_SIZE then PRINTF_NUM_BUF_SIZE else width
  sink_put_all sink (format_uint n base digits width pad)

/-! ## The format -/

/-- What stands between `%` and the conversion character, and that character. -/
structure Conversion where
  pad : UInt8
  width : Int
  char : UInt8

/-- `*fmt >= '0' && *fmt <= '9'`. -/
def is_digit (c : UInt8) : Bool := 48 ≤ c && c ≤ 57

/-- `width * 10 + (*fmt++ - '0')`. -/
def next_width (width : Int) (c : UInt8) : Int := (width * 10 + (c.toNat - 48)).bmod (2 ^ 32)

/-- The loop over the width. The cursor is what is left of the format with its NUL. -/
def read_width : List UInt8 → Int → Except PrintfFault (Int × List UInt8)
  | [], _ => .error .fmt
  | c :: fmt, width =>
    if is_digit c then read_width fmt (next_width width c) else .ok (width, c :: fmt)

/-- From behind `%` to behind the conversion character. -/
def read_conversion : List UInt8 → Except PrintfFault (Conversion × List UInt8)
  | [] => .error .fmt
  | c :: fmt => do
    let (width, rest) ← read_width (if c = 48 then fmt else c :: fmt) 0
    match rest with
    | [] => .error .fmt
    | k :: rest => pure (⟨if c = 48 then 48 else 32, width, k⟩, rest)

/-- The arguments, from the next one on. -/
abbrev VaList := Nat → UInt32

/-- The arguments behind the next one. -/
def VaList.rest (args : VaList) : VaList := fun i => args (i + 1)

/-- The digits of `%d` and `%u`, of `%x` and of `%X`. -/
def decimal : List UInt8 := chars "0123456789"
def lower_hex : List UInt8 := chars "0123456789abcdef"
def upper_hex : List UInt8 := chars "0123456789ABCDEF"

/-- What the `switch` does for `%d`. -/
def sink_put_int (sink : PrintfSink) (n : Int32) (width : Int) (pad : UInt8) :
    Except PrintfFault PrintfSink :=
  if n < 0 then do
    let sink ← sink_putc sink '-'.toUInt8
    sink_put_uint sink (-n).toUInt32 10 decimal (if width > 0 then width - 1 else 0) pad
  else sink_put_uint sink n.toUInt32 10 decimal width pad

/-- The `switch`. Gives the sink and the arguments that are left. -/
def convert (strings : UInt32 → CString) (c : Conversion) (args : VaList) (sink : PrintfSink) :
    Except PrintfFault (PrintfSink × VaList) :=
  if c.char = 'c'.toUInt8 then do
    let sink ← sink_putc sink (args 0).toUInt8
    pure (sink, args.rest)
  else if c.char = 's'.toUInt8 then do
    let sink ←
      (if args 0 = 0 then sink_put_all sink (chars "(null)") else sink_puts sink (strings (args 0)))
    pure (sink, args.rest)
  else if c.char = 'd'.toUInt8 then do
    let sink ← sink_put_int sink (args 0).toInt32 c.width c.pad
    pure (sink, args.rest)
  else if c.char = 'u'.toUInt8 then do
    let sink ← sink_put_uint sink (args 0) 10 decimal c.width c.pad
    pure (sink, args.rest)
  else if c.char = 'x'.toUInt8 then do
    let sink ← sink_put_uint sink (args 0) 16 lower_hex c.width c.pad
    pure (sink, args.rest)
  else if c.char = 'X'.toUInt8 then do
    let sink ← sink_put_uint sink (args 0) 16 upper_hex c.width c.pad
    pure (sink, args.rest)
  else if c.char = '%'.toUInt8 then do
    let sink ← sink_putc sink '%'.toUInt8
    pure (sink, args)
  else do
    -- also when the character is the NUL of the format
    let sink ← sink_putc sink '%'.toUInt8
    let sink ← sink_putc sink c.char
    pure (sink, args)

theorem read_width_shorter {fmt rest : List UInt8} {w w' : Int}
    (h : read_width fmt w = .ok (w', rest)) : rest.length ≤ fmt.length := by
  induction fmt generalizing w with
  | nil => simp [read_width] at h
  | cons c fmt ih =>
    simp only [read_width] at h
    split at h
    · have := ih h
      simp only [List.length_cons]
      omega
    · cases h
      exact Nat.le_refl _

theorem read_conversion_shorter {fmt rest : List UInt8} {c : Conversion}
    (h : read_conversion fmt = .ok (c, rest)) : rest.length < fmt.length := by
  cases fmt with
  | nil => simp [read_conversion] at h
  | cons d fmt =>
    simp only [read_conversion] at h
    cases hw : read_width (if d = 48 then fmt else d :: fmt) 0 with
    | error e => simp [hw, bind, Except.bind] at h
    | ok r =>
      obtain ⟨w, behind⟩ := r
      have hle := read_width_shorter hw
      have hif : (if d = 48 then fmt else d :: fmt).length ≤ fmt.length + 1 := by
        split <;> simp
      cases behind with
      | nil => simp [hw, bind, Except.bind] at h
      | cons k behind =>
        simp only [hw, bind, Except.bind, pure, Except.pure, Except.ok.injEq, Prod.mk.injEq] at h
        obtain ⟨-, rfl⟩ := h
        simp only [List.length_cons] at hle ⊢
        omega

/-- The loop of `uart_vprintf` and the flush behind it. -/
def vprintf_loop (strings : UInt32 → CString) :
    List UInt8 → VaList → PrintfSink → Except PrintfFault (PrintfSink × VaList)
  | [], _, _ => .error .fmt
  | c :: fmt, args, sink =>
    if c = 0 then do
      let sink ← sink_flush sink
      pure (sink, args)
    else if c ≠ '%'.toUInt8 then do
      let sink ← sink_putc sink c
      vprintf_loop strings fmt args sink
    else match _h : read_conversion fmt with
      | .error e => .error e
      | .ok (conv, rest) => do
        let (sink, args) ← convert strings conv args sink
        vprintf_loop strings rest args sink
termination_by fmt => fmt.length
decreasing_by
  · simp
  · have := read_conversion_shorter _h
    simp only [List.length_cons]
    omega

def uart_vprintf (strings : UInt32 → CString) (fmt : CString) (args : VaList) :
    Except PrintfFault (PrintfSink × VaList) :=
  vprintf_loop strings (fmt.chars ++ [0]) args ⟨fun _ => 0, 0, [], []⟩

end Rpitos
