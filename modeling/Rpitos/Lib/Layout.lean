import Mathlib.Data.List.Basic

/-!
# Lib.Layout

Message layouts: a field codec is a reader that takes a value off the front of a message, a layout
reads a message whole. Each comes with both directions: what is written reads back (`roundtrip`), and
nothing is read that is not written so (`sound`).
-/

namespace Rpitos

/-- A value at the front of a message. -/
structure FieldCodec (α β : Type) where
  encode : α → List β
  decode : List β → Option (α × List β)
  roundtrip : ∀ a rest, decode (encode a ++ rest) = some (a, rest)
  sound : ∀ {bytes a rest}, decode bytes = some (a, rest) → bytes = encode a ++ rest

/-- A value that is all of a message. -/
structure WireLayout (α β : Type) where
  encode : α → List β
  decode : List β → Option α
  roundtrip : ∀ a, decode (encode a) = some a
  sound : ∀ {bytes a}, decode bytes = some a → bytes = encode a

namespace FieldCodec

variable {α β γ : Type}

/-- One item. -/
def item : FieldCodec β β where
  encode b := [b]
  decode
    | [] => none
    | b :: rest => some (b, rest)
  roundtrip _ _ := rfl
  sound {bytes a rest} h := by
    cases bytes with
    | nil => cases h
    | cons b bytes =>
      cases h
      rfl

/-- One field, then another. -/
def pair (F : FieldCodec α β) (G : FieldCodec γ β) : FieldCodec (α × γ) β where
  encode v := F.encode v.1 ++ G.encode v.2
  decode bytes :=
    (F.decode bytes).bind fun a => (G.decode a.2).map fun c => ((a.1, c.1), c.2)
  roundtrip v rest := by
    rw [List.append_assoc, F.roundtrip, Option.bind_some, G.roundtrip, Option.map_some]
  sound {bytes v rest} h := by
    obtain ⟨⟨a, bytes'⟩, hF, hmap⟩ := Option.bind_eq_some_iff.mp h
    obtain ⟨⟨c, rest'⟩, hG, hv⟩ := Option.map_eq_some_iff.mp hmap
    cases hv
    have hbytes : bytes' = G.encode c ++ rest' := G.sound hG
    rw [F.sound hF, hbytes, List.append_assoc]

/-- A field whose values are some of the values of another. -/
def via (F : FieldCodec γ β) (code : α → γ) (read : γ → Option α) (hread : ∀ a, read (code a) = some a)
    (hcode : ∀ c a, read c = some a → code a = c) : FieldCodec α β where
  encode a := F.encode (code a)
  decode bytes := (F.decode bytes).bind fun c => (read c.1).map fun a => (a, c.2)
  roundtrip a rest := by
    rw [F.roundtrip, Option.bind_some, hread, Option.map_some]
  sound {bytes a rest} h := by
    obtain ⟨⟨c, rest'⟩, hF, hread⟩ := Option.bind_eq_some_iff.mp h
    obtain ⟨a', ha, hv⟩ := Option.map_eq_some_iff.mp hread
    cases hv
    rw [F.sound hF, hcode c a ha]

/-- An item that is fixed. -/
def fixed [DecidableEq β] (b : β) : FieldCodec Unit β :=
  item.via (fun _ => b) (fun c => if c = b then some () else none) (fun _ => if_pos rfl)
    fun c _ h => by
      split at h
      case isTrue hc => exact hc.symm
      case isFalse => cases h

/-- The values of an enumeration, each with its code. -/
def enum [DecidableEq β] (values : List α) (code : α → β) (hmem : ∀ a, a ∈ values)
    (hinj : Function.Injective code) : FieldCodec α β :=
  item.via code (fun c => values.find? fun a => code a = c)
    (fun a => by
      cases hfind : values.find? fun b => code b = code a with
      | none =>
        have hnone := List.find?_eq_none.mp hfind a (hmem a)
        exact absurd (decide_eq_true rfl) hnone
      | some b =>
        have hb := List.find?_some (p := fun b => decide (code b = code a)) hfind
        rw [hinj (of_decide_eq_true hb)])
    fun c a h => of_decide_eq_true (List.find?_some (p := fun a => decide (code a = c)) h)

end FieldCodec

namespace WireLayout

variable {α β γ : Type}

/-- A field that is the whole message. -/
def last (F : FieldCodec α β) : WireLayout α β where
  encode := F.encode
  decode bytes := (F.decode bytes).bind fun a => if a.2.isEmpty then some a.1 else none
  roundtrip a := by
    have h := F.roundtrip a []
    rw [List.append_nil] at h
    rw [h]
    rfl
  sound {bytes a} h := by
    obtain ⟨⟨a', rest⟩, hF, hrest⟩ := Option.bind_eq_some_iff.mp h
    cases rest with
    | nil =>
      cases hrest
      rw [F.sound hF, List.append_nil]
    | cons b rest => cases hrest

/-- A field before the rest of the message. -/
def after (F : FieldCodec α β) (L : WireLayout γ β) : WireLayout (α × γ) β where
  encode v := F.encode v.1 ++ L.encode v.2
  decode bytes := (F.decode bytes).bind fun a => (L.decode a.2).map fun c => (a.1, c)
  roundtrip v := by
    rw [F.roundtrip, Option.bind_some, L.roundtrip, Option.map_some]
  sound {bytes v} h := by
    obtain ⟨⟨a, rest⟩, hF, hmap⟩ := Option.bind_eq_some_iff.mp h
    obtain ⟨c, hL, hv⟩ := Option.map_eq_some_iff.mp hmap
    cases hv
    have hrest : rest = L.encode c := L.sound hL
    rw [F.sound hF, hrest]

/-- All the items that are left, when `p` holds of them. -/
def items (p : List β → Prop) [DecidablePred p] : WireLayout { l : List β // p l } β where
  encode := Subtype.val
  decode bytes := if h : p bytes then some ⟨bytes, h⟩ else none
  roundtrip l := dif_pos l.property
  sound {bytes l} h := by
    split at h
    case isTrue =>
      cases h
      rfl
    case isFalse => cases h

end WireLayout

end Rpitos
