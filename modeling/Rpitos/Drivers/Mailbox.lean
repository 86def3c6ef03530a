import Rpitos.Kernel.Types
import Rpitos.Lib.Polling

/-!
# Drivers.Mailbox

`mbox_property_call` of `mailbox.c`. The registers may give any values, so the loop over the responses
may go on for ever: it is run with fuel, and `Returns` says that some fuel is enough.

* `response_loop_returns`, `response_loop_reads`: a foreign response costs nothing of the budget, and
  the loop reads as many as come before the budget is spent.
* `mbox_bounded_iff`: the calls of a class are bounded exactly if their floods of foreign responses
  are, and by how many reads.
-/

namespace Rpitos

open StatusCode

def MBOX_STATUS_FULL : UInt32 := (1 : UInt32) <<< 31
def MBOX_STATUS_EMPTY : UInt32 := (1 : UInt32) <<< 30
def MBOX_TAG_RESP_BIT : UInt32 := (1 : UInt32) <<< 31
def MBOX_CH_PROPERTY : UInt32 := 8
def MBOX_SPIN_LIMIT : Nat := 1000000

def DMA_BUS_ALIAS : UInt32 := 0xC0000000
def BUS_ADDRESS (a : UInt32) : UInt32 := (a &&& ~~~0xC0000000) ||| DMA_BUS_ALIAS

/-- A call for the buffer at `buf`, with what the reads of the two registers give, one value for each
read, and what the read of `buf[1]` gives. -/
structure MboxCall where
  buf : UInt32
  STATUS : Nat → UInt32
  READ : Nat → UInt32
  buf1 : UInt32

/-- The reads that a call has made, and what it has stored to `MBOX_WRITE`. -/
structure MboxState where
  status_reads : Nat
  data_reads : Nat
  written : List UInt32
  deriving DecidableEq, Repr

/-- `addr`. -/
def MboxCall.addr (X : MboxCall) : UInt32 := BUS_ADDRESS X.buf ||| MBOX_CH_PROPERTY

/-- The `do` loop over the responses and the test of `buf[1]`. -/
def response_loop (X : MboxCall) : Nat → Nat → MboxState → Option (StatusCode × MboxState)
  | 0, _, _ => none
  | fuel + 1, spins, st =>
    let waited := spin (flagged MBOX_STATUS_EMPTY) X.STATUS st.status_reads spins
    let st := { st with status_reads := waited.1 }
    if waited.2 = 0 then some (E_TIMED_OUT, st)
    else
      let resp := X.READ st.data_reads
      let st := { st with data_reads := st.data_reads + 1 }
      if resp ≠ X.addr then response_loop X fuel waited.2 st
      else if X.buf1 ≠ MBOX_TAG_RESP_BIT then some (E_CORRUPTED, st)
      else some (E_OK, st)

def mbox_property_call (X : MboxCall) (fuel : Nat) : Option (StatusCode × MboxState) :=
  let waited := spin (flagged MBOX_STATUS_FULL) X.STATUS 0 MBOX_SPIN_LIMIT
  if waited.2 = 0 then some (E_TIMED_OUT, ⟨waited.1, 0, []⟩)
  else response_loop X fuel MBOX_SPIN_LIMIT ⟨waited.1, 0, [X.addr]⟩

/-- The call returns `r`. -/
def Returns (X : MboxCall) (r : StatusCode × MboxState) : Prop :=
  ∃ fuel, mbox_property_call X fuel = some r

/-- The reads of the registers. -/
def MboxState.reads (st : MboxState) : Nat := st.status_reads + st.data_reads

/-! ## The responses -/

variable {X : MboxCall}

/-- From the `pos`th status and the `d`th response on, the next `k` responses are foreign, and they are
there before the budget is spent. -/
def FloodsFrom (X : MboxCall) (spins pos d k : Nat) : Prop :=
  Outlasts (flagged MBOX_STATUS_EMPTY) X.STATUS pos spins k ∧
    AllFrom (fun resp => resp ≠ X.addr) X.READ d k

theorem floodsFrom_zero {spins pos d : Nat} (h : 0 < spins) : FloodsFrom X spins pos d 0 :=
  ⟨outlasts_zero h, allFrom_zero⟩

theorem floodsFrom_succ {spins pos d k : Nat} {waited : Nat × Nat}
    (hwaited : spin (flagged MBOX_STATUS_EMPTY) X.STATUS pos spins = waited) :
    FloodsFrom X spins pos d (k + 1) ↔
      waited.2 ≠ 0 ∧ X.READ d ≠ X.addr ∧ FloodsFrom X waited.2 waited.1 (d + 1) k := by
  unfold FloodsFrom
  rw [outlasts_spin, allFrom_succ, hwaited, decide_eq_true_iff]
  constructor
  · rintro ⟨⟨hspins, hstatus⟩, hresp, hrest⟩
    exact ⟨hspins, hresp, hstatus, hrest⟩
  · rintro ⟨hspins, hresp, hstatus, hrest⟩
    exact ⟨⟨hspins, hstatus⟩, hresp, hrest⟩

/-- Without a flood of `k` responses the loop ends in its first `k` rounds. -/
theorem response_loop_returns {k spins : Nat} {st : MboxState} (hspins : 0 < spins)
    (h : ¬ FloodsFrom X spins st.status_reads st.data_reads k) :
    ∃ r, response_loop X k spins st = some r ∧
      r.2.status_reads ≤ st.status_reads + spins + k ∧ r.2.data_reads ≤ st.data_reads + k := by
  induction k generalizing spins st with
  | zero => exact absurd (floodsFrom_zero hspins) h
  | succ k ih =>
    obtain ⟨waited, hwaited⟩ :
      ∃ w, spin (flagged MBOX_STATUS_EMPTY) X.STATUS st.status_reads spins = w := ⟨_, rfl⟩
    have hreads := spin_reads (flagged MBOX_STATUS_EMPTY) X.STATUS st.status_reads spins
    rw [hwaited] at hreads
    rw [floodsFrom_succ hwaited] at h
    unfold response_loop
    rw [hwaited]
    dsimp only
    by_cases hspent : waited.2 = 0
    · rw [if_pos hspent]
      exact ⟨_, rfl, by dsimp only; omega, Nat.le_add_right _ _⟩
    rw [if_neg hspent]
    by_cases hresp : X.READ st.data_reads ≠ X.addr
    · rw [if_pos hresp]
      obtain ⟨r, hr, hstatus, hdata⟩ := @ih waited.2 ⟨waited.1, st.data_reads + 1, st.written⟩
        (Nat.pos_of_ne_zero hspent) fun hflood => h ⟨hspent, hresp, hflood⟩
      dsimp only at hstatus hdata
      exact ⟨r, hr, by omega, by omega⟩
    · rw [if_neg hresp]
      split
      · exact ⟨_, rfl, by dsimp only; omega, by dsimp only; omega⟩
      · exact ⟨_, rfl, by dsimp only; omega, by dsimp only; omega⟩

section Round

variable {fuel spins k : Nat} {st : MboxState} {r : StatusCode × MboxState}

/-- What a round of the loop comes to: the budget is spent, the response is foreign, or it is taken. -/
theorem response_round (hr : response_loop X (fuel + 1) spins st = some r) {waited : Nat × Nat}
    (hwaited : spin (flagged MBOX_STATUS_EMPTY) X.STATUS st.status_reads spins = waited) :
    (waited.2 = 0 ∧ r = (E_TIMED_OUT, ⟨waited.1, st.data_reads, st.written⟩)) ∨
    (waited.2 ≠ 0 ∧ X.READ st.data_reads ≠ X.addr ∧
      response_loop X fuel waited.2 ⟨waited.1, st.data_reads + 1, st.written⟩ = some r) ∨
    (waited.2 ≠ 0 ∧ X.READ st.data_reads = X.addr ∧
      r.2 = ⟨waited.1, st.data_reads + 1, st.written⟩) := by
  unfold response_loop at hr
  rw [hwaited] at hr
  dsimp only at hr
  by_cases hspent : waited.2 = 0
  · rw [if_pos hspent] at hr
    exact .inl ⟨hspent, (Option.some.inj hr).symm⟩
  rw [if_neg hspent] at hr
  by_cases hresp : X.READ st.data_reads = X.addr
  · rw [if_neg (not_not_intro hresp)] at hr
    refine .inr (.inr ⟨hspent, hresp, ?_⟩)
    split at hr <;> rw [← Option.some.inj hr]
  · rw [if_pos hresp] at hr
    exact .inr (.inl ⟨hspent, hresp, hr⟩)

/-- The loop does not end before it has read the responses of a flood. -/
theorem response_loop_reads (hspins : 0 < spins) (hr : response_loop X fuel spins st = some r)
    (h : FloodsFrom X spins st.status_reads st.data_reads k) :
    st.data_reads + k ≤ r.2.data_reads := by
  induction fuel generalizing spins st k with
  | zero => cases hr
  | succ fuel ih =>
    obtain ⟨hspent, rfl⟩ | ⟨hspent, hresp, hrest⟩ | ⟨hspent, hresp, htaken⟩ := response_round hr rfl
    · cases k with
      | zero => exact Nat.le_refl _
      | succ k => exact absurd hspent ((floodsFrom_succ rfl).mp h).1
    · have hspins' := Nat.pos_of_ne_zero hspent
      cases k with
      | zero =>
        have hdata := ih hspins' hrest (floodsFrom_zero hspins')
        dsimp only at hdata
        omega
      | succ k =>
        have hdata := ih hspins' hrest ((floodsFrom_succ rfl).mp h).2.2
        dsimp only at hdata
        omega
    · rw [htaken]
      cases k with
      | zero => exact Nat.le_succ _
      | succ k => exact absurd hresp ((floodsFrom_succ rfl).mp h).2.1

/-- A success has read the response to this call last. -/
theorem response_loop_ok (hr : response_loop X fuel spins st = some r) (hok : r.1 = E_OK) :
    r.2.written = st.written ∧ ∃ d, r.2.data_reads = d + 1 ∧ X.READ d = X.addr := by
  induction fuel generalizing spins st with
  | zero => cases hr
  | succ fuel ih =>
    obtain ⟨-, rfl⟩ | ⟨-, -, hrest⟩ | ⟨-, hresp, htaken⟩ := response_round hr rfl
    · cases hok
    · have htaken := ih hrest
      exact htaken
    · rw [htaken]
      exact ⟨rfl, st.data_reads, rfl, hresp⟩

end Round

/-! ## The call -/

/-- The mailbox gets free in time, and then `k` foreign responses come before the budget of the second
wait is spent. -/
def Floods (X : MboxCall) (k : Nat) : Prop :=
  ∃ p, Settles (flagged MBOX_STATUS_FULL) X.STATUS 0 MBOX_SPIN_LIMIT p ∧
    ¬ AllFrom (flagged MBOX_STATUS_FULL) X.STATUS 0 MBOX_SPIN_LIMIT ∧
    FloodsFrom X MBOX_SPIN_LIMIT p 0 k

theorem floods_iff {k : Nat} {waited : Nat × Nat}
    (hwaited : spin (flagged MBOX_STATUS_FULL) X.STATUS 0 MBOX_SPIN_LIMIT = waited) :
    Floods X k ↔ waited.2 ≠ 0 ∧ FloodsFrom X MBOX_SPIN_LIMIT waited.1 0 k := by
  unfold Floods
  constructor
  · rintro ⟨p, hp, hfree, hflood⟩
    rw [← spin_settles, hwaited] at hp
    rw [← spin_spent, hwaited] at hfree
    exact ⟨hfree, hp ▸ hflood⟩
  · rintro ⟨hfree, hflood⟩
    refine ⟨waited.1, ?_, ?_, hflood⟩
    · rw [← spin_settles, hwaited]
    · rwa [← spin_spent, hwaited]

theorem limit_pos : 0 < MBOX_SPIN_LIMIT := by decide

/-- Without a flood of `k` responses. -/
theorem returns_bounded {k : Nat} (h : ¬ Floods X k) :
    ∃ r, Returns X r ∧ r.2.reads ≤ 2 * MBOX_SPIN_LIMIT + 2 * k + 1 := by
  obtain ⟨waited, hwaited⟩ :
    ∃ w, spin (flagged MBOX_STATUS_FULL) X.STATUS 0 MBOX_SPIN_LIMIT = w := ⟨_, rfl⟩
  have hreads := spin_reads (flagged MBOX_STATUS_FULL) X.STATUS 0 MBOX_SPIN_LIMIT
  rw [hwaited] at hreads
  rw [floods_iff hwaited] at h
  unfold Returns mbox_property_call MboxState.reads
  rw [hwaited]
  dsimp only
  by_cases hspent : waited.2 = 0
  · simp only [if_pos hspent]
    exact ⟨_, ⟨0, rfl⟩, by dsimp only; omega⟩
  · simp only [if_neg hspent]
    obtain ⟨r, hr, hstatus, hdata⟩ := @response_loop_returns X k MBOX_SPIN_LIMIT
      ⟨waited.1, 0, [X.addr]⟩ limit_pos fun hflood => h ⟨hspent, hflood⟩
    dsimp only at hstatus hdata
    exact ⟨r, ⟨k, hr⟩, by omega⟩

/-- With one. -/
theorem floods_reads {k : Nat} (h : Floods X k) {r : StatusCode × MboxState} (hr : Returns X r) :
    k ≤ r.2.reads := by
  obtain ⟨fuel, hr⟩ := hr
  obtain ⟨hfree, hflood⟩ := (floods_iff rfl).mp h
  unfold mbox_property_call at hr
  dsimp only at hr
  rw [if_neg hfree] at hr
  have hdata := response_loop_reads limit_pos hr hflood
  unfold MboxState.reads
  dsimp only at hdata
  omega

theorem returns_ok {r : StatusCode × MboxState} (hr : Returns X r) (hok : r.1 = E_OK) :
    r.2.written = [X.addr] ∧ ∃ d, r.2.data_reads = d + 1 ∧ X.READ d = X.addr := by
  obtain ⟨fuel, hr⟩ := hr
  unfold mbox_property_call at hr
  dsimp only at hr
  split at hr
  · obtain rfl := Option.some.inj hr
    cases hok
  · exact response_loop_ok hr hok

/-- The call returns after at most `bound` reads, and with success only after the response to the
address that was written. -/
def ReturnsWithin (X : MboxCall) (bound : Nat) : Prop :=
  ∃ r, Returns X r ∧ r.2.reads ≤ bound ∧
    (r.1 = E_OK → r.2.written = [X.addr] ∧ ∃ d, r.2.data_reads = d + 1 ∧ X.READ d = X.addr)

theorem returns_within {k : Nat} (h : ¬ Floods X k) :
    ReturnsWithin X (2 * MBOX_SPIN_LIMIT + 2 * k + 1) := by
  obtain ⟨r, hr, hbound⟩ := returns_bounded h
  exact ⟨r, hr, hbound, returns_ok hr⟩

/-- A class of calls: they all return within some number of reads exactly if there is a `k` such that
none of them is flooded with `k` foreign responses, and the number follows from `k`. -/
theorem mbox_bounded_iff (D : MboxCall → Prop) :
    ((∃ bound, ∀ X, D X → ReturnsWithin X bound) ↔ ∃ k, ∀ X, D X → ¬ Floods X k) ∧
      ∀ k, (∀ X, D X → ¬ Floods X k) →
        ∀ X, D X → ReturnsWithin X (2 * MBOX_SPIN_LIMIT + 2 * k + 1) := by
  have hwithin : ∀ k, (∀ X, D X → ¬ Floods X k) →
      ∀ X, D X → ReturnsWithin X (2 * MBOX_SPIN_LIMIT + 2 * k + 1) :=
    fun k h X hX => returns_within (h X hX)
  refine ⟨⟨?_, ?_⟩, hwithin⟩
  · rintro ⟨bound, h⟩
    refine ⟨bound + 1, fun X hX hflood => ?_⟩
    obtain ⟨r, hr, hbound, -⟩ := h X hX
    have := floods_reads hflood hr
    omega
  · rintro ⟨k, h⟩
    exact ⟨_, hwithin k h⟩

/-- Responses to others without end: both registers read 0. -/
def foreign_responses : MboxCall where
  buf := 0x1000
  STATUS _ := 0
  READ _ := 0
  buf1 := 0

theorem foreign_floods (k : Nat) : Floods foreign_responses k := by
  have hempty : ∀ pos n,
      AllFrom (fun status => !flagged MBOX_STATUS_EMPTY status) foreign_responses.STATUS pos n := by
    intro pos n i _
    change (!flagged MBOX_STATUS_EMPTY 0) = true
    decide
  refine ⟨1, ⟨0, Nat.zero_le _, rfl, allFrom_zero, fun _ => nofun⟩, fun h => ?_,
    ⟨k, hits_all (hempty 1 k), ?_⟩, fun i hi => rfl⟩
  · exact absurd (h 0 limit_pos) nofun
  · rw [hits_none (hempty 1 k)]
    exact limit_pos

theorem foreign_never_returns : ¬ ∃ r, Returns foreign_responses r := by
  rintro ⟨r, hr⟩
  have := floods_reads (foreign_floods (r.2.reads + 1)) hr
  omega

end Rpitos
