import Rpitos.Kernel.Types

/-!
# Kernel.Heap

The bump allocator of `heap.c`. A block is its offset in the static array.

`heap_blocks`: over every sequence of calls the blocks are apart and inside the array exactly when no
call asks for so much that one of the two 32-bit sums wraps.
-/

namespace Rpitos

def HEAP_SIZE_BYTES : Nat := 262144

/-- `(size + 3) & ~0b11` on 32 bits. -/
def heap_align (size : Nat) : Nat := (size + 3) % 2 ^ 32 / 4 * 4

/-- `heap_malloc`: the offset of the block, or `none` for NULL, and the new `heap_offset`. -/
def heap_malloc (heap_offset size : Nat) : Option Nat × Nat :=
  let size := heap_align size
  if (heap_offset + size) % 2 ^ 32 > HEAP_SIZE_BYTES then (none, heap_offset)
  else (some heap_offset, (heap_offset + size) % 2 ^ 32)

/-! ## One call -/

section Call

variable {heap_offset size : Nat}

/-- What every call keeps, whatever it is asked for. -/
theorem heap_offset_bound (haligned : heap_offset % 4 = 0) (hle : heap_offset ≤ HEAP_SIZE_BYTES)
    (size : Nat) : (heap_malloc heap_offset size).2 % 4 = 0 ∧
      (heap_malloc heap_offset size).2 ≤ HEAP_SIZE_BYTES := by
  unfold heap_malloc
  dsimp only
  split
  · exact ⟨haligned, hle⟩
  · rename_i hfull
    refine ⟨?_, Nat.le_of_not_gt hfull⟩
    dsimp only
    unfold heap_align
    omega

/-- A call whose sums do not wrap returns NULL and leaves `heap_offset`, or returns the bytes from
`heap_offset` on and moves it behind them. -/
theorem heap_malloc_cases (hfit : heap_offset + size + 3 < 2 ^ 32) :
    heap_malloc heap_offset size = (none, heap_offset) ∨
      heap_malloc heap_offset size = (some heap_offset, heap_offset + heap_align size) ∧
        size ≤ heap_align size ∧ heap_offset + heap_align size ≤ HEAP_SIZE_BYTES := by
  have hsize : size ≤ heap_align size := by unfold heap_align; omega
  have hsum : (heap_offset + heap_align size) % 2 ^ 32 = heap_offset + heap_align size :=
    Nat.mod_eq_of_lt (by unfold heap_align; omega)
  unfold heap_malloc
  dsimp only
  rw [hsum]
  split
  · exact .inl rfl
  · rename_i hfull
    exact .inr ⟨rfl, hsize, Nat.le_of_not_gt hfull⟩

/-- A call in which a sum wraps hands out a block that ends outside the array. -/
theorem heap_malloc_wraps (haligned : heap_offset % 4 = 0)
    (hle : heap_offset ≤ HEAP_SIZE_BYTES) (hsize : size < 2 ^ 32)
    (hwrap : ¬ heap_offset + size + 3 < 2 ^ 32) :
    (heap_malloc heap_offset size).1 = some heap_offset ∧
      HEAP_SIZE_BYTES < heap_offset + size := by
  unfold HEAP_SIZE_BYTES at hle
  have hsum : ¬ (heap_offset + heap_align size) % 2 ^ 32 > HEAP_SIZE_BYTES := by
    unfold heap_align HEAP_SIZE_BYTES
    omega
  unfold heap_malloc
  dsimp only
  rw [if_neg hsum]
  exact ⟨rfl, by unfold HEAP_SIZE_BYTES; omega⟩

end Call

/-! ## Sequences of calls -/

/-- A call of `heap_malloc`: the `heap_offset` it finds and the size it is asked for. -/
structure HeapCall where
  heap_offset : Nat
  size : Nat
  deriving DecidableEq, Repr

namespace HeapCall

/-- What the call returns. -/
def block (c : HeapCall) : Option Nat := (heap_malloc c.heap_offset c.size).1

/-- The `heap_offset` the call leaves. -/
def leaves (c : HeapCall) : Nat := (heap_malloc c.heap_offset c.size).2

/-- The bytes the caller may use. -/
def owns (c : HeapCall) (address : Nat) : Prop :=
  ∃ block ∈ c.block, block ≤ address ∧ address < block + c.size

/-- Neither `size + 3` nor `heap_offset + size` wraps. -/
def fits (c : HeapCall) : Prop := c.heap_offset + c.size + 3 < 2 ^ 32

end HeapCall

/-- The calls for `sizes`, one after the other. -/
def heap_calls : Nat → List Nat → List HeapCall
  | _, [] => []
  | heap_offset, size :: sizes =>
    ⟨heap_offset, size⟩ :: heap_calls (heap_malloc heap_offset size).2 sizes

/-- What `heap_malloc` promises over a sequence of calls. -/
structure HeapSafe (calls : List HeapCall) : Prop where
  aligned : ∀ c ∈ calls, ∀ block ∈ c.block, block % 4 = 0
  inside : ∀ c ∈ calls, ∀ block ∈ c.block, block + c.size ≤ HEAP_SIZE_BYTES
  /-- No byte belongs to two blocks. -/
  apart : calls.Pairwise fun c d => ∀ address, c.owns address → ¬ d.owns address
  null : ∀ c ∈ calls, c.block = none → c.leaves = c.heap_offset
  bound : ∀ c ∈ calls, c.leaves ≤ HEAP_SIZE_BYTES

/-- Every call of a sequence starts from an aligned `heap_offset` inside the array. -/
theorem heap_calls_bound (sizes : List Nat) : ∀ {heap_offset : Nat}, heap_offset % 4 = 0 →
    heap_offset ≤ HEAP_SIZE_BYTES → ∀ c ∈ heap_calls heap_offset sizes,
      c.heap_offset % 4 = 0 ∧ c.heap_offset ≤ HEAP_SIZE_BYTES ∧ c.size ∈ sizes := by
  induction sizes with
  | nil => intro _ _ _ c hc; cases hc
  | cons size sizes ih =>
    intro heap_offset haligned hle c hc
    obtain ⟨haligned', hle'⟩ := heap_offset_bound haligned hle size
    rcases List.mem_cons.mp hc with rfl | hc
    · exact ⟨haligned, hle, List.mem_cons_self ..⟩
    · obtain ⟨h1, h2, h3⟩ := ih haligned' hle' c hc
      exact ⟨h1, h2, List.mem_cons_of_mem _ h3⟩

/-- While no sum wraps, `heap_offset` only grows, so later blocks lie behind it. -/
theorem heap_calls_behind (sizes : List Nat) : ∀ {heap_offset : Nat}, heap_offset % 4 = 0 →
    heap_offset ≤ HEAP_SIZE_BYTES → (∀ c ∈ heap_calls heap_offset sizes, c.fits) →
    ∀ c ∈ heap_calls heap_offset sizes, heap_offset ≤ c.heap_offset := by
  induction sizes with
  | nil => intro _ _ _ _ c hc; cases hc
  | cons size sizes ih =>
    intro heap_offset haligned hle hfit c hc
    obtain ⟨haligned', hle'⟩ := heap_offset_bound haligned hle size
    rcases List.mem_cons.mp hc with rfl | hc
    · exact Nat.le_refl _
    · have hbehind := ih haligned' hle' (fun d hd => hfit d (List.mem_cons_of_mem _ hd)) c hc
      rcases heap_malloc_cases (hfit _ (List.mem_cons_self ..)) with h | ⟨h, -, -⟩
      · rw [h] at hbehind; exact hbehind
      · rw [h] at hbehind; exact Nat.le_trans (Nat.le_add_right _ _) hbehind

namespace HeapCall

variable {c : HeapCall} {address : Nat}

/-- Where the block of a call that fits lies. -/
theorem owns_range (hfit : c.fits) (ho : c.owns address) : c.heap_offset ≤ address ∧ address < c.leaves := by
  obtain ⟨block, hblock, h1, h2⟩ := ho
  unfold HeapCall.block at hblock
  unfold leaves
  rcases heap_malloc_cases hfit with h | ⟨h, hsize, -⟩
  · rw [h] at hblock; cases hblock
  · rw [h] at hblock ⊢
    cases hblock
    exact ⟨h1, by dsimp only; omega⟩

end HeapCall

/-- The blocks of a sequence without a wrapping sum are apart. -/
theorem heap_calls_apart (sizes : List Nat) : ∀ {heap_offset : Nat}, heap_offset % 4 = 0 →
    heap_offset ≤ HEAP_SIZE_BYTES → (∀ c ∈ heap_calls heap_offset sizes, c.fits) →
    (heap_calls heap_offset sizes).Pairwise fun c d =>
      ∀ address, c.owns address → ¬ d.owns address := by
  induction sizes with
  | nil => intro _ _ _ _; exact .nil
  | cons size sizes ih =>
    intro heap_offset haligned hle hfit
    obtain ⟨haligned', hle'⟩ := heap_offset_bound haligned hle size
    have htail : ∀ d ∈ heap_calls (heap_malloc heap_offset size).2 sizes, d.fits := fun d hd =>
      hfit d (List.mem_cons_of_mem _ hd)
    refine List.pairwise_cons.mpr ⟨fun d hd address hc hd' => ?_, ih haligned' hle' htail⟩
    have hbehind := heap_calls_behind sizes haligned' hle' htail d hd
    have h1 := (HeapCall.owns_range (hfit _ (List.mem_cons_self ..)) hc).2
    have h2 := (HeapCall.owns_range (htail d hd) hd').1
    exact absurd (Nat.lt_of_lt_of_le h1 (Nat.le_trans hbehind h2)) (Nat.lt_irrefl _)

/-- Over every sequence of calls the blocks are aligned, inside the array and apart, if and only if
no call is in the way of a wrapping sum. -/
theorem heap_blocks (sizes : List Nat) (hsizes : ∀ size ∈ sizes, size < 2 ^ 32) :
    HeapSafe (heap_calls 0 sizes) ↔ ∀ c ∈ heap_calls 0 sizes, c.fits := by
  have hbound := heap_calls_bound sizes (Nat.zero_mod 4) (Nat.zero_le HEAP_SIZE_BYTES)
  constructor
  · intro hsafe c hc
    by_contra hwrap
    obtain ⟨haligned, hle, hmem⟩ := hbound c hc
    obtain ⟨hblock, hout⟩ := heap_malloc_wraps haligned hle (hsizes _ hmem) hwrap
    exact absurd (hsafe.inside c hc _ hblock) (Nat.not_le_of_gt hout)
  · intro hfit
    refine ⟨fun c hc block hblock => ?_, fun c hc block hblock => ?_,
      heap_calls_apart sizes (Nat.zero_mod 4) (Nat.zero_le _) hfit, fun c hc hnull => ?_,
      fun c hc => ?_⟩
    all_goals obtain ⟨haligned, hle, -⟩ := hbound c hc
    · unfold HeapCall.block at hblock
      rcases heap_malloc_cases (hfit c hc) with h | ⟨h, -, -⟩
      · rw [h] at hblock; cases hblock
      · rw [h] at hblock; cases hblock; exact haligned
    · unfold HeapCall.block at hblock
      rcases heap_malloc_cases (hfit c hc) with h | ⟨h, hsize, hin⟩
      · rw [h] at hblock; cases hblock
      · rw [h] at hblock; cases hblock; omega
    · unfold HeapCall.block at hnull
      unfold HeapCall.leaves
      rcases heap_malloc_cases (hfit c hc) with h | ⟨h, -, -⟩
      · rw [h]
      · rw [h] at hnull; cases hnull
    · exact (heap_offset_bound haligned hle c.size).2

theorem heap_blocks_until_full :
    HeapSafe (heap_calls 0 [5, 262136, 4, 0]) ↔ ∀ c ∈ heap_calls 0 [5, 262136, 4, 0], c.fits :=
  heap_blocks [5, 262136, 4, 0] (by decide)

/-- `heap_offset + size` wraps to 0, and the first block is handed out again. -/
theorem heap_blocks_overlap :
    ¬ ∀ sizes : List Nat, (∀ size ∈ sizes, size < 2 ^ 32) → HeapSafe (heap_calls 0 sizes) := by
  intro h
  have hsafe := h [4, 4294967292, 4] (by decide)
  have hfirst : (⟨0, 4⟩ : HeapCall).owns 0 := ⟨0, rfl, by decide, by decide⟩
  have hcalls : heap_calls 0 [4, 4294967292, 4] = [⟨0, 4⟩, ⟨4, 4294967292⟩, ⟨0, 4⟩] := by rfl
  have hapart := hsafe.apart
  rw [hcalls] at hapart
  exact (List.pairwise_cons.mp hapart).1 ⟨0, 4⟩ (by simp) 0 hfirst hfirst

end Rpitos
