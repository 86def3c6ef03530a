import Rpitos.Drivers.I2c

/-!
# Drivers.I2cTransfers

What a transfer of `i2c.c` has moved when it returns `E_OK`. The return value comes from a status that
is read behind both loops, and how the loop over the bytes has ended is forgotten by then.

* `transfer_loop_eq`: the loop moves as many bytes as `pump` of the status values says.
* `phase_ok_iff`: success means a complete transfer unless the loop is cut short before a status that
  shows `DONE` alone.
-/

namespace Rpitos

open Function (update update_self update_of_ne)
open StatusCode

/-! ## Stores -/

@[simp] theorem I2cState.store_stores (st : I2cState) (r : BSCStore) :
    (st.store r).stores = st.stores ++ [r] := rfl

@[simp] theorem fifo_data_append (a b : List BSCStore) :
    fifo_data (a ++ b) = fifo_data a ++ fifo_data b := by
  induction a with
  | nil => rfl
  | cons r a ih => cases r <;> simp [fifo_data, ih]

/-- Between the states nothing has come out of the FIFO. -/
def Undrained (st st' : I2cState) : Prop := st'.fifo_reads = st.fifo_reads ∧ st'.buf = st.buf

/-- Between the states nothing has gone through the FIFO. -/
def Unmoved (st st' : I2cState) : Prop :=
  fifo_data st'.stores = fifo_data st.stores ∧ Undrained st st'

theorem Unmoved.refl (st : I2cState) : Unmoved st st := ⟨rfl, rfl, rfl⟩

theorem Unmoved.store {st st' : I2cState} (h : Unmoved st st') {r : BSCStore} (hr : fifo_data [r] = []) :
    Unmoved st (st'.store r) := by
  refine ⟨?_, h.2⟩
  rw [I2cState.store_stores, fifo_data_append, hr, List.append_nil]
  exact h.1

theorem Fed.unmoved {bytes : List UInt8} {st st₁ st₂ st' : I2cState} (h : Fed bytes st₁ st₂)
    (hbefore : Unmoved st st₁) (hbehind : Unmoved st₂ st') : Fed bytes st st' := by
  unfold Fed at *
  rw [hbehind.1, h, hbefore.1]

theorem Received.undrained {regs : BSCRegs} {len : Nat} {st st₁ st₂ st' : I2cState}
    (h : Received regs len st₁ st₂) (hbefore : Undrained st st₁) (hbehind : Undrained st₂ st') :
    Received regs len st st' := by
  unfold Received at *
  rw [hbehind.1, hbehind.2, ← hbefore.1, ← hbefore.2]
  exact h

/-! ## The loop over the bytes -/

/-- A move of a byte leaves the number of status reads alone. -/
def Steady (move : I2cState → Nat → I2cState) : Prop :=
  ∀ st i n, move { st with s_reads := n } i = { move st i with s_reads := n }

theorem feed_steady (buf : Nat → UInt8) : Steady (feed buf) := fun _ _ _ => rfl

theorem drain_steady (regs : BSCRegs) : Steady (drain regs) := fun _ _ _ => rfl

theorem Steady.foldl {move : I2cState → Nat → I2cState} (hmove : Steady move) (l : List Nat)
    (st : I2cState) (n : Nat) :
    l.foldl move { st with s_reads := n } = { l.foldl move st with s_reads := n } := by
  induction l generalizing st with
  | nil => rfl
  | cons i l ih => rw [List.foldl_cons, hmove, ih, List.foldl_cons]

/-- The loop on the status values alone: the bytes left and the number of reads. -/
def pump_status (regs : BSCRegs) (ready : UInt32) (len timeout pos : Nat) : Nat × Nat :=
  pump (flagged (S_ERR ||| S_CLKT)) (flagged ready) regs.S timeout len pos

/-- The loop moves the bytes one after the other, as many as the status values allow. -/
theorem transfer_loop_eq {move : I2cState → Nat → I2cState} (hmove : Steady move) (regs : BSCRegs)
    (ready : UInt32) (len timeout index : Nat) (st : I2cState) :
    transfer_loop regs ready move len timeout index st =
      { (List.range' index (len - index -
            (pump_status regs ready (len - index) timeout st.s_reads).1)).foldl move st with
        s_reads := (pump_status regs ready (len - index) timeout st.s_reads).2 } := by
  induction timeout generalizing index st with
  | zero =>
    simp only [transfer_loop, pump_status, pump, Nat.sub_self]
    rfl
  | succ timeout ih =>
    unfold transfer_loop pump_status pump
    by_cases hindex : index < len
    · have hleft : ¬ len - index = 0 := by omega
      rw [if_pos hindex, if_neg hleft]
      dsimp only
      by_cases hstop : flagged (S_ERR ||| S_CLKT) (regs.S st.s_reads) = true
      · rw [if_pos hstop, if_pos hstop, Nat.sub_self]
        rfl
      rw [if_neg hstop, if_neg hstop]
      by_cases hready : flagged ready (regs.S st.s_reads) = true
      · have hle := pump_left_le (flagged (S_ERR ||| S_CLKT)) (flagged ready) regs.S timeout
          (len - index - 1) (st.s_reads + 1)
        rw [if_pos hready, if_pos hready, ih, hmove, hmove.foldl]
        unfold pump_status
        dsimp only
        rw [← Nat.sub_sub]
        obtain ⟨k, hk⟩ : ∃ k, len - index - 1 - (pump (flagged (S_ERR ||| S_CLKT)) (flagged ready)
            regs.S timeout (len - index - 1) (st.s_reads + 1)).1 = k := ⟨_, rfl⟩
        have hk' : len - index - (pump (flagged (S_ERR ||| S_CLKT)) (flagged ready)
            regs.S timeout (len - index - 1) (st.s_reads + 1)).1 = k + 1 := by omega
        rw [hk, hk', List.range'_succ, List.foldl_cons]
      · rw [if_neg hready, if_neg hready, ih, hmove.foldl]
        rfl
    · have hleft : len - index = 0 := by omega
      rw [if_neg hindex, if_pos hleft, hleft]
      rfl

theorem feed_fed (buf : Nat → UInt8) (l : List Nat) (st : I2cState) :
    Fed (l.map buf) st (l.foldl (feed buf) st) := by
  induction l generalizing st with
  | nil => exact (List.append_nil _).symm
  | cons i l ih =>
    have hrest := ih (feed buf st i)
    unfold Fed at *
    rw [List.foldl_cons, hrest]
    simp [feed, fifo_data]

theorem feed_undrained (buf : Nat → UInt8) (l : List Nat) (st : I2cState) :
    (l.foldl (feed buf) st).s_reads = st.s_reads ∧ Undrained st (l.foldl (feed buf) st) := by
  induction l generalizing st with
  | nil => exact ⟨rfl, rfl, rfl⟩
  | cons i l ih => exact ih (feed buf st i)

theorem drain_received (regs : BSCRegs) (k : Nat) (st : I2cState) :
    Received regs k st ((List.range k).foldl (drain regs) st) := by
  induction k with
  | zero => exact ⟨rfl, fun i => (if_neg (Nat.not_lt_zero i)).symm⟩
  | succ k ih =>
    obtain ⟨hreads, hbuf⟩ := ih
    rw [List.range_succ, List.foldl_append, List.foldl_cons, List.foldl_nil]
    refine ⟨congrArg (· + 1) hreads, fun i => ?_⟩
    rw [drain, hreads]
    by_cases hi : i = k
    · subst hi
      rw [if_pos (Nat.lt_succ_self i)]
      exact update_self ..
    · have hlt : i < k + 1 ↔ i < k := by omega
      simp only [hlt]
      exact (update_of_ne hi ..).trans (hbuf i)

theorem Fed.count {buf : Nat → UInt8} {k len : Nat} {st st' : I2cState}
    (hk : Fed ((List.range k).map buf) st st') (hlen : Fed ((List.range len).map buf) st st') :
    len = k := by
  have hlists := List.append_cancel_left (hlen.symm.trans hk)
  have hlengths := congrArg List.length hlists
  simpa using hlengths

theorem Received.count {regs : BSCRegs} {k len : Nat} {st st' : I2cState}
    (hk : Received regs k st st') (hlen : Received regs len st st') : len = k :=
  Nat.add_left_cancel (hlen.1.symm.trans hk.1)

/-! ## The verdict -/

/-- `DONE`, and neither `ERR` nor `CLKT`. -/
def shows_done (status : UInt32) : Bool :=
  !flagged S_CLKT status && !flagged S_ERR status && flagged S_DONE status

/-- Where the wait for the end of a transfer stops. -/
def EndsAt (regs : BSCRegs) (pos q : Nat) : Prop :=
  Settles (fun s => !flagged (S_DONE ||| S_ERR ||| S_CLKT) s) regs.S pos done_timeout q

/-- The status values from `pos` on cut the loop over the bytes short, and the status behind both
loops shows that the transfer is done. -/
def CutShort (regs : BSCRegs) (ready : UInt32) (len pos : Nat) : Prop :=
  ∃ p q, CutAt (flagged (S_ERR ||| S_CLKT)) (flagged ready) regs.S transfer_timeout len pos p ∧
    EndsAt regs p q ∧ shows_done (regs.S q)

theorem finish_unmoved (regs : BSCRegs) (channel : UInt8) (st : I2cState) :
    Unmoved st (finish regs channel st).2 := by
  unfold finish
  dsimp only
  split
  · exact (Unmoved.refl _).store rfl
  · split
    · exact Unmoved.refl _
    · split
      · exact (Unmoved.refl _).store rfl
      · exact Unmoved.refl _

theorem finish_ok_iff (regs : BSCRegs) (channel : UInt8) (st : I2cState) :
    (finish regs channel st).1 = E_OK ↔ ∃ q, EndsAt regs st.s_reads q ∧ shows_done (regs.S q) := by
  have hends : (∃ q, EndsAt regs st.s_reads q ∧ shows_done (regs.S q)) ↔
      shows_done (regs.S (spin (fun s => !flagged (S_DONE ||| S_ERR ||| S_CLKT) s) regs.S st.s_reads
        done_timeout).1) := by
    constructor
    · rintro ⟨q, hq, hdone⟩
      obtain rfl := (spin_settles _ _ _ _ _).mpr hq
      exact hdone
    · exact fun hdone => ⟨_, (spin_settles _ _ _ _ _).mp rfl, hdone⟩
  rw [hends]
  unfold finish shows_done
  dsimp only
  split
  · simp_all
  · split
    · simp_all
    · split <;> simp_all

/-! ## A phase -/

section Phase

variable {move : I2cState → Nat → I2cState} {regs : BSCRegs} {ready : UInt32} {channel : UInt8}
  {len : Nat} {st : I2cState}

/-- The bytes that the loop of a phase moves. -/
def phase_count (regs : BSCRegs) (ready : UInt32) (len pos : Nat) : Nat :=
  len - (pump_status regs ready len transfer_timeout pos).1

theorem phase_loop (hmove : Steady move) :
    transfer_loop regs ready move len transfer_timeout 0 st =
      { (List.range (phase_count regs ready len st.s_reads)).foldl move st with
        s_reads := (pump_status regs ready len transfer_timeout st.s_reads).2 } := by
  rw [transfer_loop_eq hmove, List.range_eq_range']
  rfl

/-- Success with bytes left over. -/
theorem phase_cut_iff (hmove : Steady move) :
    ((finish regs channel (transfer_loop regs ready move len transfer_timeout 0 st)).1 = E_OK ∧
        len ≠ phase_count regs ready len st.s_reads) ↔ CutShort regs ready len st.s_reads := by
  have hle := pump_left_le (flagged (S_ERR ||| S_CLKT)) (flagged ready) regs.S transfer_timeout len
    st.s_reads
  have hleft : len ≠ phase_count regs ready len st.s_reads ↔
      (pump_status regs ready len transfer_timeout st.s_reads).1 ≠ 0 := by
    unfold phase_count pump_status
    omega
  rw [finish_ok_iff, hleft, phase_loop hmove]
  constructor
  · rintro ⟨⟨q, hq, hdone⟩, hcut⟩
    exact ⟨_, q, (pump_cut ..).mp ⟨hcut, rfl⟩, hq, hdone⟩
  · rintro ⟨p, q, hcut, hq, hdone⟩
    obtain ⟨hnot, rfl⟩ := (pump_cut ..).mpr hcut
    exact ⟨⟨q, hq, hdone⟩, hnot⟩

/-- `Moved n` tells of exactly `n` bytes. -/
theorem phase_ok_iff (hmove : Steady move) (Moved : Nat → Prop)
    (hmoved : Moved (phase_count regs ready len st.s_reads))
    (hcount : ∀ n, Moved n → n = phase_count regs ready len st.s_reads) :
    ((finish regs channel (transfer_loop regs ready move len transfer_timeout 0 st)).1 = E_OK →
        Moved len) ↔ ¬ CutShort regs ready len st.s_reads := by
  rw [← @phase_cut_iff move regs ready channel len st hmove]
  constructor
  · rintro hok ⟨hdone, hne⟩
    exact hne (hcount len (hok hdone))
  · intro hno hdone
    have hlen : len = phase_count regs ready len st.s_reads :=
      Classical.byContradiction fun hne => hno ⟨hdone, hne⟩
    rwa [← hlen] at hmoved

end Phase

section Phases

variable (regs : BSCRegs) (channel : UInt8) (len : Nat) {st st₁ : I2cState}

theorem write_phase_iff (buf : Nat → UInt8) (hbefore : Unmoved st st₁) :
    ((finish regs channel (transfer_loop regs S_TXD (feed buf) len transfer_timeout 0 st₁)).1 = E_OK →
        Fed ((List.range len).map buf) st
          (finish regs channel (transfer_loop regs S_TXD (feed buf) len transfer_timeout 0 st₁)).2) ↔
      ¬ CutShort regs S_TXD len st₁.s_reads := by
  have hmoved : Fed ((List.range (phase_count regs S_TXD len st₁.s_reads)).map buf) st
      (finish regs channel (transfer_loop regs S_TXD (feed buf) len transfer_timeout 0 st₁)).2 := by
    refine Fed.unmoved ?_ hbefore (finish_unmoved regs channel _)
    rw [phase_loop (feed_steady buf)]
    exact feed_fed buf _ st₁
  exact phase_ok_iff (feed_steady buf) (fun n => Fed ((List.range n).map buf) st
      (finish regs channel (transfer_loop regs S_TXD (feed buf) len transfer_timeout 0 st₁)).2)
    hmoved fun n hn => hmoved.count hn

theorem read_phase_iff (hbefore : Undrained st st₁) :
    ((finish regs channel (transfer_loop regs S_RXD (drain regs) len transfer_timeout 0 st₁)).1 =
        E_OK → Received regs len st
          (finish regs channel (transfer_loop regs S_RXD (drain regs) len transfer_timeout 0 st₁)).2) ↔
      ¬ CutShort regs S_RXD len st₁.s_reads := by
  have hmoved : Received regs (phase_count regs S_RXD len st₁.s_reads) st
      (finish regs channel (transfer_loop regs S_RXD (drain regs) len transfer_timeout 0 st₁)).2 := by
    refine Received.undrained ?_ hbefore (finish_unmoved regs channel _).2
    rw [phase_loop (drain_steady regs)]
    exact drain_received regs _ st₁
  exact phase_ok_iff (drain_steady regs) (fun n => Received regs n st
      (finish regs channel (transfer_loop regs S_RXD (drain regs) len transfer_timeout 0 st₁)).2)
    hmoved fun n hn => hmoved.count hn

end Phases

/-! ## The transfers -/

/-- The channel has registers and is configured. -/
def Usable (st : I2cState) (channel : UInt8) : Prop :=
  st.configured channel ∧ i2c_channel_regs channel ≠ none

theorem cutShort_pos {regs : BSCRegs} {ready : UInt32} {len pos : Nat}
    (h : CutShort regs ready len pos) : 0 < len := by
  obtain ⟨_, _, ⟨n, -, -, hlt, -⟩, -⟩ := h
  exact Nat.zero_lt_of_lt hlt

/-- A call that is refused keeps any promise about a success. -/
theorem refused_iff {r : StatusCode × I2cState} {P : Prop} {Q : I2cState → Prop} (hr : r.1 ≠ E_OK)
    (hP : ¬ P) : (r.1 = E_OK → Q r.2) ↔ ¬ P :=
  iff_of_true (fun h => absurd h hr) hP

section Transfers

variable (regs : BSCRegs) (st : I2cState) (channel addr : UInt8)

/-- The tests that all three transfers make. -/
theorem usable_iff {run : StatusCode × I2cState} {P : Prop} (Q : I2cState → Prop)
    (hrun : (run.1 = E_OK → Q run.2) ↔ ¬ P) :
    ((if !st.configured channel then (E_NOT_INITIALIZED, st)
        else if i2c_channel_regs channel = none then (E_NOTSUPP, st) else run).1 = E_OK →
      Q (if !st.configured channel then (E_NOT_INITIALIZED, st)
        else if i2c_channel_regs channel = none then (E_NOTSUPP, st) else run).2) ↔
      ¬ (Usable st channel ∧ P) := by
  by_cases hconf : st.configured channel = true
  · rw [if_neg (by simp [hconf])]
    by_cases hregs : i2c_channel_regs channel = none
    · rw [if_pos hregs]
      exact refused_iff nofun fun h => h.1.2 hregs
    · rw [if_neg hregs, hrun, and_iff_right ⟨hconf, hregs⟩]
  · rw [if_pos (by simp [hconf])]
    exact refused_iff nofun fun h => hconf h.1.1

/-- The test for no bytes, which the transfers of one buffer make first. -/
theorem some_bytes_iff {run : StatusCode × I2cState} {len : UInt16} {P : Prop} (Q : I2cState → Prop)
    (hP : P → 0 < len.toNat) (hrun : (run.1 = E_OK → Q run.2) ↔ ¬ P) :
    ((if len = 0 then (E_INVALID_ARGS, st) else run).1 = E_OK →
      Q (if len = 0 then (E_INVALID_ARGS, st) else run).2) ↔ ¬ P := by
  by_cases hlen : len = 0
  · subst hlen
    rw [if_pos rfl]
    exact refused_iff nofun fun h => absurd (hP h) (Nat.lt_irrefl 0)
  · rw [if_neg hlen]
    exact hrun

theorem write_ok_iff (buf : Nat → UInt8) (len : UInt16) :
    ((i2c_channel_write regs st channel addr buf len).1 = E_OK →
        Fed ((List.range len.toNat).map buf) st (i2c_channel_write regs st channel addr buf len).2) ↔
      ¬ (Usable st channel ∧ CutShort regs S_TXD len.toNat st.s_reads) := by
  unfold i2c_channel_write
  refine some_bytes_iff st (Fed ((List.range len.toNat).map buf) st) (fun h => cutShort_pos h.2) ?_
  refine usable_iff st channel (Fed ((List.range len.toNat).map buf) st) ?_
  refine write_phase_iff regs channel len.toNat buf ?_
  exact ((((Unmoved.refl st).store rfl).store rfl).store rfl).store rfl

theorem read_ok_iff (len : UInt16) :
    ((i2c_channel_read regs st channel addr len).1 = E_OK →
        Received regs len.toNat st (i2c_channel_read regs st channel addr len).2) ↔
      ¬ (Usable st channel ∧ CutShort regs S_RXD len.toNat st.s_reads) := by
  unfold i2c_channel_read
  refine some_bytes_iff st (Received regs len.toNat st) (fun h => cutShort_pos h.2) ?_
  refine usable_iff st channel (Received regs len.toNat st) ?_
  exact read_phase_iff regs channel len.toNat ⟨rfl, rfl⟩

/-- The wait behind the write phase stops at `r` in time, and the status there shows no error. -/
def HandsOver (regs : BSCRegs) (pos r : Nat) : Prop :=
  Settles (fun s => !flagged (S_TA ||| S_DONE ||| S_ERR ||| S_CLKT) s) regs.S pos done_timeout r ∧
    ¬ AllFrom (fun s => !flagged (S_TA ||| S_DONE ||| S_ERR ||| S_CLKT) s) regs.S pos done_timeout ∧
    ¬ flagged S_CLKT (regs.S r) ∧ ¬ flagged S_ERR (regs.S r)

theorem handsOver_iff {regs : BSCRegs} {pos r : Nat} {waited : Nat × Nat}
    (hwaited : spin (fun s => !flagged (S_TA ||| S_DONE ||| S_ERR ||| S_CLKT) s) regs.S pos
      done_timeout = waited) :
    HandsOver regs pos r ↔ waited.1 = r ∧ waited.2 ≠ 0 ∧ ¬ flagged S_CLKT (regs.S r) ∧
      ¬ flagged S_ERR (regs.S r) := by
  rw [HandsOver, ← spin_settles, ← spin_spent, hwaited]

theorem start_write_undrained (tx_buf : Nat → UInt8) (tx_len : UInt16) :
    (start_write st addr tx_buf tx_len).s_reads = st.s_reads ∧
      Undrained st (start_write st addr tx_buf tx_len) :=
  feed_undrained tx_buf _ _

theorem chain_read_iff {st' : I2cState} (hbefore : Undrained st st') (rx_len : UInt16) :
    ((chain_read regs st' channel rx_len).1 = E_OK →
        Received regs rx_len.toNat st (chain_read regs st' channel rx_len).2) ↔
      ¬ CutShort regs S_RXD rx_len.toNat st'.s_reads := by
  have hstores : Undrained st ((st'.store (.DLEN rx_len.toUInt32)).store
    (.C (C_I2CEN ||| C_ST ||| C_READ))) := hbefore
  exact read_phase_iff regs channel rx_len.toNat hstores

theorem write_read_ok_iff (tx_buf : Nat → UInt8) (tx_len rx_len : UInt16) :
    ((i2c_channel_write_read regs st channel addr tx_buf tx_len rx_len).1 = E_OK →
        Received regs rx_len.toNat st
          (i2c_channel_write_read regs st channel addr tx_buf tx_len rx_len).2) ↔
      ¬ (Usable st channel ∧ tx_len.toNat ≤ I2C_FIFO_DEPTH ∧
        ∃ r, HandsOver regs st.s_reads r ∧ CutShort regs S_RXD rx_len.toNat (r + 1)) := by
  unfold i2c_channel_write_read
  refine usable_iff st channel (Received regs rx_len.toNat st) ?_
  by_cases hdepth : tx_len.toNat > I2C_FIFO_DEPTH
  · rw [if_pos hdepth]
    exact refused_iff nofun fun h => Nat.not_le.mpr hdepth h.1
  rw [if_neg hdepth, and_iff_right (Nat.not_lt.mp hdepth)]
  obtain ⟨hreads, hundrained⟩ := start_write_undrained st addr tx_buf tx_len
  obtain ⟨waited, hwaited⟩ : ∃ w, spin (fun s => !flagged (S_TA ||| S_DONE ||| S_ERR ||| S_CLKT) s)
    regs.S st.s_reads done_timeout = w := ⟨_, rfl⟩
  simp only [hreads, hwaited, handsOver_iff hwaited]
  by_cases hspent : waited.2 = 0
  · rw [if_pos hspent]
    exact refused_iff nofun fun ⟨_, h, _⟩ => h.2.1 hspent
  rw [if_neg hspent]
  by_cases hclkt : flagged S_CLKT (regs.S waited.1) = true
  · rw [if_pos hclkt]
    exact refused_iff nofun fun ⟨_, h, _⟩ => h.2.2.1 (h.1 ▸ hclkt)
  rw [if_neg hclkt]
  by_cases herr : flagged S_ERR (regs.S waited.1) = true
  · rw [if_pos herr]
    exact refused_iff nofun fun ⟨_, h, _⟩ => h.2.2.2 (h.1 ▸ herr)
  rw [if_neg herr]
  refine (chain_read_iff regs st channel ?_ rx_len).trans (not_congr ?_)
  · exact hundrained
  constructor
  · exact fun h => ⟨_, ⟨rfl, hspent, hclkt, herr⟩, h⟩
  · rintro ⟨r, ⟨rfl, -⟩, h⟩
    exact h

/-- For each transfer, any lengths and any values of the registers: a success means a complete transfer
exactly if the status values do not cut the loop over the bytes short before they show `DONE`. -/
theorem i2c_ok_complete_iff (regs : BSCRegs) (st : I2cState) (channel addr : UInt8) :
    (∀ (buf : Nat → UInt8) (len : UInt16),
      ((i2c_channel_write regs st channel addr buf len).1 = E_OK →
          Fed ((List.range len.toNat).map buf) st
            (i2c_channel_write regs st channel addr buf len).2) ↔
        ¬ (Usable st channel ∧ CutShort regs S_TXD len.toNat st.s_reads)) ∧
    (∀ len : UInt16,
      ((i2c_channel_read regs st channel addr len).1 = E_OK →
          Received regs len.toNat st (i2c_channel_read regs st channel addr len).2) ↔
        ¬ (Usable st channel ∧ CutShort regs S_RXD len.toNat st.s_reads)) ∧
    ∀ (tx_buf : Nat → UInt8) (tx_len rx_len : UInt16),
      ((i2c_channel_write_read regs st channel addr tx_buf tx_len rx_len).1 = E_OK →
          Received regs rx_len.toNat st
            (i2c_channel_write_read regs st channel addr tx_buf tx_len rx_len).2) ↔
        ¬ (Usable st channel ∧ tx_len.toNat ≤ I2C_FIFO_DEPTH ∧
          ∃ r, HandsOver regs st.s_reads r ∧ CutShort regs S_RXD rx_len.toNat (r + 1)) :=
  ⟨write_ok_iff regs st channel addr, read_ok_iff regs st channel addr,
    write_read_ok_iff regs st channel addr⟩

end Transfers

/-- The slave sends its byte when the driver has given up waiting for it: the transfer is done, and
the byte is in the FIFO. -/
def late_byte : BSCRegs where
  S i := if i < transfer_timeout then S_TA else S_DONE ||| S_RXD
  FIFO _ := 0x2A

/-- Only channel 1 is configured. -/
def channel_1 : I2cState := ⟨fun c => c = 1, fun _ => 0, 0, 0, [], fun _ => 0⟩

theorem late_byte_cut : CutShort late_byte S_RXD 1 0 := by
  have hwait : ∀ i < transfer_timeout, late_byte.S (0 + i) = S_TA := fun i hi => by
    rw [Nat.zero_add]
    exact if_pos hi
  have hlate : ∀ i, transfer_timeout ≤ i → late_byte.S i = S_DONE ||| S_RXD :=
    fun i hi => if_neg (Nat.not_lt.mpr hi)
  refine ⟨transfer_timeout, transfer_timeout + 0 + 1, ⟨transfer_timeout, Nat.le_refl _, ?_, ?_,
    .inl ⟨rfl, (Nat.zero_add _).symm⟩⟩, ⟨0, Nat.zero_le _, rfl, allFrom_zero, fun _ => ?_⟩, ?_⟩
  · intro i hi
    rw [hwait i hi]
    decide
  · rw [hits_none fun i hi => ?_]
    · exact Nat.zero_lt_one
    · rw [hwait i hi]
      decide
  · rw [Nat.add_zero, hlate _ (Nat.le_refl _)]
    decide
  · rw [hlate _ (Nat.le_succ _)]
    decide

/-- A read of one byte reports success, and the byte has not been read. -/
theorem late_byte_read :
    (i2c_channel_read late_byte channel_1 1 0x48 1).1 = E_OK ∧
      ¬ Received late_byte 1 channel_1 (i2c_channel_read late_byte channel_1 1 0x48 1).2 := by
  refine Classical.not_imp.mp fun h => ?_
  exact (read_ok_iff late_byte channel_1 1 0x48 1).mp h ⟨⟨rfl, by decide⟩, late_byte_cut⟩

end Rpitos
