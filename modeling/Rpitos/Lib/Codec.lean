import Mathlib.Data.List.Basic

/-!
# Lib.Codec

Self-delimiting codes: a reader that takes one encoded value off the front of a stream and leaves
the rest. `Codec.decode_stream_eq`: a stream of encoded values reads back as those values, and as no
others.
-/

namespace Rpitos

/-- `decode` takes one encoded value off the front. -/
structure Codec (α β : Type) where
  encode : α → List β
  decode : List β → Option (α × List β)
  nonempty : ∀ a, encode a ≠ []
  roundtrip : ∀ a rest, decode (encode a ++ rest) = some (a, rest)

namespace Codec

variable {α β : Type} (C : Codec α β)

/-- Read values until the stream ends, at most `fuel` of them. -/
def decode_all : Nat → List β → Option (List α)
  | _, [] => some []
  | 0, _ :: _ => none
  | fuel + 1, b :: bytes => do
    let (a, rest) ← C.decode (b :: bytes)
    let as ← decode_all fuel rest
    return a :: as

/-- A value takes an item of the stream or more, so the length bounds the number of values. -/
def decode_stream (bytes : List β) : Option (List α) := C.decode_all bytes.length bytes

theorem decode_all_cons (a : α) (rest : List β) (fuel : Nat) :
    C.decode_all (fuel + 1) (C.encode a ++ rest) = (C.decode_all fuel rest).map (a :: ·) := by
  obtain ⟨b, bytes, hcons⟩ := List.exists_cons_of_ne_nil
    (List.append_ne_nil_of_left_ne_nil (C.nonempty a) rest)
  have hread := C.roundtrip a rest
  rw [hcons] at hread ⊢
  rw [decode_all, hread]
  cases hrest : C.decode_all fuel rest with
  | none => simp only [Option.bind_eq_bind, Option.bind_some, hrest]; rfl
  | some as => simp only [Option.bind_eq_bind, Option.bind_some, hrest]; rfl

theorem decode_all_flatMap (as : List α) {fuel : Nat} (h : as.length ≤ fuel) :
    C.decode_all fuel (as.flatMap C.encode) = some as := by
  induction as generalizing fuel with
  | nil => rw [List.flatMap_nil, decode_all]
  | cons a as ih =>
    cases fuel with
    | zero => exact absurd h (Nat.not_succ_le_zero _)
    | succ fuel =>
      rw [List.flatMap_cons, decode_all_cons, ih (Nat.le_of_succ_le_succ h)]
      rfl

theorem length_le (as : List α) : as.length ≤ (as.flatMap C.encode).length := by
  induction as with
  | nil => exact Nat.le_refl 0
  | cons a as ih =>
    have hpos := List.length_pos_of_ne_nil (C.nonempty a)
    rw [List.flatMap_cons, List.length_append, List.length_cons]
    omega

theorem decode_stream_eq (as : List α) : C.decode_stream (as.flatMap C.encode) = some as :=
  C.decode_all_flatMap as (C.length_le as)

end Codec

end Rpitos
