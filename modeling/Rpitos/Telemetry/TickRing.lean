import Rpitos.Kernel.Locks
import Rpitos.Lib.Ring

/-!
# Telemetry.TickRing

The tick-state rings of `telemetry.c`, one for each core. A report and a round of the drain each hold
the ring's lock, so each is one step, and the steps of all cores come in any order.

`tick_rings_fifo`: of each ring, what has been popped and what is still stored are the reports in
their order, without those that came to a full ring; and the byte that goes out with a record counts
these modulo 256. `drain_ring_eq`: a drain that nothing interrupts sends what is stored.
`report_producer`: for the operations of `Kernel.Locks` a report is a push of their ring.
-/

namespace Rpitos

open Function (update update_self update_of_ne)

def PKT_TICK_STATE : UInt32 := 2

/-- `TelemetryTickRecord`. -/
structure TickRecord where
  core_id : UInt8
  task_id : UInt16
  state : UInt8
  deriving DecidableEq, Repr

/-- `TelemetryTickRing` with what the drain uses of it. `head` is the next slot to write, `tail` the
next one to read. -/
structure TickRing where
  records : Nat → TickRecord
  head : UInt8
  tail : UInt8
  count : UInt8
  overflow_count : UInt8

/-- `(uint8_t)((i + 1U) % TELEMETRY_TICK_RING_DEPTH)`. -/
def next_slot (i : UInt8) : UInt8 := UInt8.ofNat ((i.toNat + 1) % TELEMETRY_TICK_RING_DEPTH)

namespace TickRing

/-- All zero. -/
def boot : TickRing := ⟨fun _ => ⟨0, 0, 0⟩, 0, 0, 0, 0⟩

/-- What a report does under the lock. A record that comes to a full ring is dropped. -/
def report (ring : TickRing) (record : TickRecord) : TickRing :=
  if ring.count.toNat = TELEMETRY_TICK_RING_DEPTH then
    { ring with overflow_count := ring.overflow_count + 1 }
  else
    { ring with
      records := update ring.records ring.head.toNat record
      head := next_slot ring.head
      count := ring.count + 1 }

/-- What a round of the drain does under the lock: the record with the overflow count, `none` for an
empty ring. -/
def round (ring : TickRing) :
    Option (TickRecord × UInt8 × TickRing) :=
  if ring.count > 0 then
    some (ring.records ring.tail.toNat, ring.overflow_count,
      { ring with tail := next_slot ring.tail, count := ring.count - 1 })
  else none

/-- The records in the ring, the next one to read first. -/
def stored (ring : TickRing) : List TickRecord :=
  (List.range ring.count.toNat).map fun i =>
    ring.records ((ring.tail.toNat + i) % TELEMETRY_TICK_RING_DEPTH)

theorem stored_length (ring : TickRing) : ring.stored.length = ring.count.toNat := by
  rw [stored, List.length_map, List.length_range]

section Round

variable {ring ring' : TickRing} {record : TickRecord} {overflow : UInt8}

/-- A round that finds a record. -/
theorem round_some (h : ring.round = some (record, overflow, ring')) :
    0 < ring.count.toNat ∧ record = ring.records ring.tail.toNat ∧ overflow = ring.overflow_count ∧
      ring'.records = ring.records ∧ ring'.head = ring.head ∧ ring'.tail = next_slot ring.tail ∧
      ring'.count.toNat = ring.count.toNat - 1 ∧ ring'.overflow_count = ring.overflow_count := by
  unfold round at h
  split at h
  case isFalse => cases h
  case isTrue hpos =>
    cases h
    have hcount : 0 < ring.count.toNat := hpos
    refine ⟨hcount, rfl, rfl, rfl, rfl, rfl, ?_, rfl⟩
    exact UInt8.toNat_sub_of_le _ _ (UInt8.le_iff_toNat_le.mpr (by exact hcount))

theorem round_none (h : ring.round = none) : ring.count = 0 := by
  unfold round at h
  split at h
  case isTrue => cases h
  case isFalse hzero =>
    apply UInt8.toNat_inj.mp
    exact Nat.eq_zero_of_not_pos hzero

/-- A round finds a record unless the ring is empty. -/
theorem round_none_iff (ring : TickRing) : ring.round = none ↔ ring.count = 0 := by
  refine ⟨round_none, fun hzero => ?_⟩
  unfold round
  rw [hzero]
  rfl

end Round

end TickRing

/-- `telemetry_send(PKT_TICK_STATE, payload, sizeof(payload))`. -/
def tick_state_call (record : TickRecord) (overflow : UInt8) : FramedCall where
  type := PKT_TICK_STATE
  payload := buffer_of [record.core_id, (record.task_id >>> 8).toUInt8,
    (record.task_id &&& 0xFF).toUInt8, record.state, overflow]
  len := 5

/-- The `while (1)` of `telemetry_drain_tick_rings`: the calls, and the ring that is left. -/
def drain_ring (ring : TickRing) : List FramedCall × TickRing :=
  match _h : ring.round with
  | none => ([], ring)
  | some (record, overflow, ring') =>
    let rest := drain_ring ring'
    (tick_state_call record overflow :: rest.1, rest.2)
termination_by ring.count.toNat
decreasing_by
  obtain ⟨hpos, -, -, -, -, -, hcount, -⟩ := ring.round_some _h
  omega

/-- `g_tick_rings`. -/
abbrev TickRings := Nat → TickRing

def telemetry_report_tick_state (g_tick_rings : TickRings) (core_id : UInt32) (task_id : UInt16)
    (state : UInt8) : TickRings :=
  if core_id.toNat ≥ COMPANION_CORE_MAX_CORES then g_tick_rings
  else
    update g_tick_rings core_id.toNat
      ((g_tick_rings core_id.toNat).report ⟨core_id.toUInt8, task_id, state⟩)

/-- `telemetry_drain_tick_rings`, alone: the calls, and the rings that are left. -/
def telemetry_drain_tick_rings (g_tick_rings : TickRings) : List FramedCall × TickRings :=
  (List.range COMPANION_CORE_MAX_CORES).foldl (fun r core_id =>
    let d := drain_ring (r.2 core_id)
    (r.1 ++ d.1, update r.2 core_id d.2)) ([], g_tick_rings)

/-! ## The producer's ring -/

theorem next_slot_toNat (i : UInt8) :
    (next_slot i).toNat = (i.toNat + 1) % TELEMETRY_TICK_RING_DEPTH := by
  unfold next_slot TELEMETRY_TICK_RING_DEPTH
  rw [UInt8.toNat_ofNat']
  omega

theorem next_slot_mod {i : UInt8} {k : Nat} (h : i.toNat = k % TELEMETRY_TICK_RING_DEPTH) :
    (next_slot i).toNat = (k + 1) % TELEMETRY_TICK_RING_DEPTH := by
  rw [next_slot_toNat, h, Nat.mod_add_mod]

/-- What a producer uses of the ring. -/
def TickRecord.producer (record : TickRecord) : TelemetryTickRecord :=
  ⟨record.core_id, record.task_id.toNat, record.state⟩

def TickRing.producer (ring : TickRing) : TelemetryTickRing :=
  ⟨fun i => (ring.records i).producer, ring.head.toNat, ring.count.toNat, ring.overflow_count⟩

/-- For the producer a report is the push of its own ring. -/
theorem report_producer {ring : TickRing}
    (hcount : ring.count.toNat ≤ TELEMETRY_TICK_RING_DEPTH) (record : TickRecord) :
    (ring.report record).producer = ring.producer.push record.producer := by
  unfold TickRing.report TelemetryTickRing.push TickRing.producer
  by_cases hfull : ring.count.toNat = TELEMETRY_TICK_RING_DEPTH
  · simp only [if_pos hfull]
  · have hrecords : (fun i => (update ring.records ring.head.toNat record i).producer) =
        update (fun i => (ring.records i).producer) ring.head.toNat record.producer := by
      funext i
      by_cases hi : i = ring.head.toNat
      · subst hi
        rw [update_self, update_self]
      · rw [update_of_ne hi, update_of_ne hi]
    have hnext : (ring.count + 1).toNat = ring.count.toNat + 1 := by
      unfold TELEMETRY_TICK_RING_DEPTH at hcount
      rw [UInt8.toNat_add]
      show (ring.count.toNat + 1) % 256 = _
      omega
    simp only [if_neg hfull, hrecords, next_slot_toNat, hnext]

/-! ## A drain alone -/

section Drain

variable {ring ring' : TickRing} {record : TickRecord} {overflow : UInt8}

theorem round_stored (h : ring.round = some (record, overflow, ring'))
    (htail : ring.tail.toNat < TELEMETRY_TICK_RING_DEPTH) :
    ring.stored = record :: ring'.stored := by
  obtain ⟨hpos, rfl, -, hrecords, -, htail', hcount, -⟩ := ring.round_some h
  have hnext := next_slot_mod (Nat.mod_eq_of_lt htail).symm
  unfold TickRing.stored
  rw [hrecords, htail', hnext, hcount, show ring.count.toNat = ring.count.toNat - 1 + 1 by omega,
    List.range_succ_eq_map, List.map_cons, List.map_map, Nat.add_zero, Nat.mod_eq_of_lt htail,
    Nat.add_sub_cancel]
  refine congrArg (List.cons _) (List.map_congr_left fun i _ => ?_)
  rw [Function.comp_apply, Nat.mod_add_mod, Nat.succ_eq_add_one, Nat.add_assoc, Nat.add_comm 1]

/-- A drain that nothing interrupts sends what is stored, with the one overflow count, and leaves
nothing. -/
theorem drain_ring_eq (ring : TickRing)
    (htail : ring.tail.toNat < TELEMETRY_TICK_RING_DEPTH) :
    (drain_ring ring).1 = ring.stored.map (fun r => tick_state_call r ring.overflow_count) ∧
      (drain_ring ring).2.count = 0 := by
  induction hn : ring.count.toNat using Nat.strongRecOn generalizing ring with
  | ind n ih =>
    rw [drain_ring]
    split
    case h_1 hround =>
      have hcount := ring.round_none hround
      rw [TickRing.stored, hcount]
      exact ⟨rfl, rfl⟩
    case h_2 record overflow ring' hround =>
      obtain ⟨hpos, -, hover, -, -, htail', hcount, hover'⟩ := ring.round_some hround
      have hnext := next_slot_mod (Nat.mod_eq_of_lt htail).symm
      have hlt : ring'.tail.toNat < TELEMETRY_TICK_RING_DEPTH := by
        rw [htail', hnext]
        exact Nat.mod_lt _ (by decide)
      obtain ⟨hcalls, hleft⟩ := ih _ (by omega) ring' hlt rfl
      refine ⟨?_, hleft⟩
      rw [round_stored hround htail, List.map_cons, ← hover', ← hcalls, hover, hover']

theorem drain_ring_type (ring : TickRing) :
    ∀ c ∈ (drain_ring ring).1, c.type = PKT_TICK_STATE := by
  fun_induction drain_ring ring with
  | case1 => nofun
  | case2 ring record overflow ring' hround rest ih =>
    intro c hc
    obtain rfl | hc := List.mem_cons.mp hc
    · rfl
    · exact ih c hc

theorem telemetry_drain_type (g_tick_rings : TickRings) :
    ∀ c ∈ (telemetry_drain_tick_rings g_tick_rings).1, c.type = PKT_TICK_STATE := by
  unfold telemetry_drain_tick_rings
  refine List.foldlRecOn (motive := fun r : List FramedCall × TickRings =>
    ∀ c ∈ r.1, c.type = PKT_TICK_STATE) _ _ nofun fun r h core _ c hc => ?_
  obtain hc | hc := List.mem_append.mp hc
  · exact h c hc
  · exact drain_ring_type _ c hc

end Drain

/-! ## Histories -/

inductive TickStep where
  | report (core_id : UInt32) (task_id : UInt16) (state : UInt8)
  | round (core_id : CoreId)

/-- The record that a step reports for a core. -/
def TickStep.record (core : CoreId) : TickStep → Option TickRecord
  | .report core_id task_id state =>
    if core_id.toNat = core then some ⟨core_id.toUInt8, task_id, state⟩ else none
  | .round _ => none

/-- The rings, and for each core what has come in, with the number of records that were stored then,
and what has gone out, with the overflow count. -/
structure TickHistory where
  rings : TickRings
  arrived : Nat → List (TickRecord × Nat)
  popped : Nat → List (TickRecord × UInt8)

namespace TickHistory

def boot : TickHistory := ⟨fun _ => .boot, fun _ => [], fun _ => []⟩

def step (X : TickHistory) : TickStep → TickHistory
  | .report core_id task_id state =>
    let core := core_id.toNat
    { X with
      rings := telemetry_report_tick_state X.rings core_id task_id state
      arrived := update X.arrived core
        (X.arrived core ++ [(⟨core_id.toUInt8, task_id, state⟩, (X.rings core).stored.length)]) }
  | .round core =>
    match (X.rings core).round with
    | none => X
    | some (record, overflow, ring) =>
      { X with
        rings := update X.rings core ring
        popped := update X.popped core (X.popped core ++ [(record, overflow)]) }

/-- The reports for a core that did not come to a full ring. -/
def kept (X : TickHistory) (core : Nat) : List TickRecord :=
  ((X.arrived core).filter fun a => a.2 ≠ TELEMETRY_TICK_RING_DEPTH).map Prod.fst

/-- How many reports for a core came to a full ring. -/
def dropped (X : TickHistory) (core : Nat) : Nat :=
  (X.arrived core).countP fun a => a.2 = TELEMETRY_TICK_RING_DEPTH

end TickHistory

/-- A ring with what it has kept and how much of it has been popped. -/
structure TickRingInv (ring : TickRing) (kept : List TickRecord) (n dropped : Nat) :
    Prop where
  history : Ring TELEMETRY_TICK_RING_DEPTH ring.records kept n
  head : ring.head.toNat = kept.length % TELEMETRY_TICK_RING_DEPTH
  tail : ring.tail.toNat = n % TELEMETRY_TICK_RING_DEPTH
  count : ring.count.toNat = kept.length - n
  overflow : ring.overflow_count = UInt8.ofNat dropped

section Inv

variable {ring ring' : TickRing} {kept : List TickRecord} {n dropped : Nat}

theorem TickRingInv.boot : TickRingInv .boot [] 0 0 :=
  ⟨Ring.empty _, rfl, rfl, rfl, rfl⟩

/-- The records in the ring are those that have been kept and not popped. -/
theorem TickRingInv.stored (h : TickRingInv ring kept n dropped) : ring.stored = kept.drop n := by
  unfold TickRing.stored
  rw [← h.history.unread, h.count, h.tail]
  exact List.map_congr_left fun i _ => by rw [Nat.mod_add_mod]

theorem TickRingInv.report_kept (h : TickRingInv ring kept n dropped)
    (hroom : ring.count.toNat ≠ TELEMETRY_TICK_RING_DEPTH) (record : TickRecord) :
    TickRingInv (ring.report record) (kept ++ [record]) n dropped := by
  have hle := h.history.le
  have hcap := h.history.room
  have hcount := h.count
  unfold TickRing.report
  rw [if_neg hroom]
  refine ⟨h.history.push (by omega) ?_ ?_, ?_, h.tail, ?_, h.overflow⟩
  · rw [← h.head]
    exact update_self ..
  · intro k _ hk
    rw [← h.head] at hk
    exact update_of_ne hk ..
  · rw [List.length_append, List.length_singleton]
    exact next_slot_mod h.head
  · rw [List.length_append, List.length_singleton, UInt8.toNat_add, hcount]
    unfold TELEMETRY_TICK_RING_DEPTH at hcap hroom
    show (kept.length - n + 1) % 256 = _
    omega

theorem TickRingInv.report_dropped (h : TickRingInv ring kept n dropped)
    (hfull : ring.count.toNat = TELEMETRY_TICK_RING_DEPTH) (record : TickRecord) :
    TickRingInv (ring.report record) kept n (dropped + 1) := by
  unfold TickRing.report
  rw [if_pos hfull]
  refine ⟨h.history, h.head, h.tail, h.count, ?_⟩
  rw [h.overflow, UInt8.ofNat_add]
  rfl

/-- A round pops the record that has waited longest, and sends the number of those dropped. -/
theorem TickRingInv.round (h : TickRingInv ring kept n dropped) {record : TickRecord}
    {overflow : UInt8} (hr : ring.round = some (record, overflow, ring')) :
    TickRingInv ring' kept (n + 1) dropped ∧ kept[n]? = some record ∧
      overflow = UInt8.ofNat dropped := by
  obtain ⟨hpos, hrecord, hover, hrecords, hhead, htail, hcount, hover'⟩ := ring.round_some hr
  have hn := h.count
  have hlt : n < kept.length := by omega
  refine ⟨⟨?_, ?_, ?_, ?_, ?_⟩, ?_, ?_⟩
  · rw [hrecords]
    exact h.history.pop hlt
  · rw [hhead, h.head]
  · rw [htail]
    exact next_slot_mod h.tail
  · omega
  · rw [hover', h.overflow]
  · rw [hrecord, h.tail, h.history.front hlt, List.getElem?_eq_getElem hlt]
  · rw [hover, h.overflow]

end Inv

namespace TickHistory

/-- What holds of each core. -/
structure CoreInv (X : TickHistory) (core : Nat) : Prop where
  ring : TickRingInv (X.rings core) (X.kept core) (X.popped core).length (X.dropped core)
  popped : (X.popped core).map Prod.fst = (X.kept core).take (X.popped core).length

variable {X : TickHistory} {core : Nat}

theorem CoreInv.boot (core : Nat) : CoreInv .boot core := ⟨.boot, rfl⟩

/-- A step that leaves a core alone. -/
theorem CoreInv.congr {X' : TickHistory} (h : CoreInv X core)
    (hrings : X'.rings core = X.rings core) (harrived : X'.arrived core = X.arrived core)
    (hpopped : X'.popped core = X.popped core) : CoreInv X' core := by
  have hkept : X'.kept core = X.kept core := by rw [kept, harrived, kept]
  have hdropped : X'.dropped core = X.dropped core := by rw [dropped, harrived, dropped]
  refine ⟨?_, ?_⟩
  · rw [hrings, hkept, hpopped, hdropped]
    exact h.ring
  · rw [hkept, hpopped]
    exact h.popped

theorem kept_arrived {X' : TickHistory} {record : TickRecord} {k : Nat}
    (h : X'.arrived core = X.arrived core ++ [(record, k)]) : X'.kept core =
      if k = TELEMETRY_TICK_RING_DEPTH then X.kept core else X.kept core ++ [record] := by
  rw [kept, h, List.filter_append, List.map_append]
  by_cases hk : k = TELEMETRY_TICK_RING_DEPTH <;> simp [hk, kept]

theorem dropped_arrived {X' : TickHistory} {record : TickRecord} {k : Nat}
    (h : X'.arrived core = X.arrived core ++ [(record, k)]) : X'.dropped core =
      if k = TELEMETRY_TICK_RING_DEPTH then X.dropped core + 1 else X.dropped core := by
  rw [dropped, h, List.countP_append]
  by_cases hk : k = TELEMETRY_TICK_RING_DEPTH <;> simp [hk, dropped]

theorem CoreInv.report (h : CoreInv X core) (hcore : core < COMPANION_CORE_MAX_CORES)
    (core_id : UInt32) (task_id : UInt16) (state : UInt8) :
    CoreInv (X.step (.report core_id task_id state)) core := by
  by_cases hne : core = core_id.toNat
  · subst hne
    have hrings : (X.step (.report core_id task_id state)).rings core_id.toNat =
        (X.rings core_id.toNat).report ⟨core_id.toUInt8, task_id, state⟩ := by
      dsimp only [step]
      rw [telemetry_report_tick_state, if_neg (by omega), update_self]
    have harrived : (X.step (.report core_id task_id state)).arrived core_id.toNat =
        X.arrived core_id.toNat ++ [(⟨core_id.toUInt8, task_id, state⟩,
          (X.rings core_id.toNat).count.toNat)] := by
      dsimp only [step]
      rw [update_self, TickRing.stored_length]
    have hkept := kept_arrived harrived
    have hdropped := dropped_arrived harrived
    have hpopped : (X.step (.report core_id task_id state)).popped = X.popped := rfl
    by_cases hfull : (X.rings core_id.toNat).count.toNat = TELEMETRY_TICK_RING_DEPTH
    · rw [if_pos hfull] at hkept hdropped
      refine ⟨?_, ?_⟩
      · rw [hrings, hkept, hdropped, hpopped]
        exact h.ring.report_dropped hfull _
      · rw [hkept, hpopped]
        exact h.popped
    · rw [if_neg hfull] at hkept hdropped
      refine ⟨?_, ?_⟩
      · rw [hrings, hkept, hdropped, hpopped]
        exact h.ring.report_kept hfull _
      · rw [hkept, hpopped, List.take_append_of_le_length h.ring.history.le]
        exact h.popped
  · refine h.congr ?_ (update_of_ne hne ..) rfl
    dsimp only [step]
    rw [telemetry_report_tick_state]
    split
    · rfl
    · exact update_of_ne hne ..

theorem CoreInv.round (h : CoreInv X core) (core_id : CoreId) :
    CoreInv (X.step (.round core_id)) core := by
  rw [step]
  split
  case h_1 => exact h
  case h_2 record overflow ring hround =>
    by_cases hne : core = core_id.val
    · subst hne
      obtain ⟨hring, hrecord, -⟩ := h.ring.round hround
      have hpopped : update X.popped core_id.val (X.popped core_id.val ++ [(record, overflow)])
          core_id.val = X.popped core_id.val ++ [(record, overflow)] := update_self ..
      refine ⟨?_, ?_⟩
      · dsimp only
        rw [update_self, hpopped, List.length_append, List.length_singleton]
        exact hring
      · dsimp only
        rw [hpopped, List.length_append, List.length_singleton, List.map_append, h.popped,
          List.map_singleton]
        show _ = (X.kept core_id.val).take _
        rw [List.take_add_one, hrecord]
        rfl
    · exact h.congr (update_of_ne hne ..) rfl (update_of_ne hne ..)

theorem CoreInv.run (hcore : core < COMPANION_CORE_MAX_CORES) (steps : List TickStep) :
    ∀ {X : TickHistory}, CoreInv X core → CoreInv (steps.foldl step X) core := by
  induction steps with
  | nil => exact fun h => h
  | cons a steps ih =>
    intro X h
    cases a with
    | report core_id task_id state => exact ih (h.report hcore core_id task_id state)
    | round core_id => exact ih (h.round core_id)

/-- The reports for a core, all of them, in their order. -/
theorem arrived_eq (steps : List TickStep) (core : CoreId) : ∀ X : TickHistory,
    ((steps.foldl step X).arrived core).map Prod.fst =
      (X.arrived core).map Prod.fst ++ steps.filterMap (TickStep.record core) := by
  induction steps with
  | nil => exact fun X => (List.append_nil _).symm
  | cons a steps ih =>
    intro X
    rw [List.foldl_cons, ih, List.filterMap_cons]
    cases a with
    | report core_id task_id state =>
      dsimp only [step, TickStep.record]
      by_cases hcore : core_id.toNat = core.val
      · rw [if_pos hcore, ← hcore, update_self, List.map_append, List.append_assoc]
        rfl
      · rw [if_neg hcore, update_of_ne (Ne.symm hcore)]
    | round core_id =>
      dsimp only [step, TickStep.record]
      split <;> rfl

end TickHistory

/-- For every core, after any reports and rounds of the drain, of all cores and in any order: what has
been popped and what is stored are the reports without those that came to a full ring, `head` is
`count` behind `tail`, a round finds a record unless `count` is 0, and the next record goes out with
the number of reports dropped so far. -/
theorem tick_rings_fifo (steps : List TickStep) (core : CoreId) :
    let X := steps.foldl TickHistory.step .boot
    let ring := X.rings core
    (X.arrived core).map Prod.fst = steps.filterMap (TickStep.record core) ∧
      (X.popped core).map Prod.fst ++ ring.stored = X.kept core ∧
      ring.head.toNat = (ring.tail.toNat + ring.count.toNat) % TELEMETRY_TICK_RING_DEPTH ∧
      ring.count.toNat ≤ TELEMETRY_TICK_RING_DEPTH ∧
      (ring.round = none ↔ ring.count = 0) ∧
      ∀ record overflow ring', ring.round = some (record, overflow, ring') →
        overflow = UInt8.ofNat (X.dropped core) := by
  intro X ring
  have h : X.CoreInv core := TickHistory.CoreInv.run core.isLt steps (.boot core)
  have hle := h.ring.history.le
  have hroom := h.ring.history.room
  refine ⟨TickHistory.arrived_eq steps core .boot, ?_, ?_, ?_, ring.round_none_iff,
    fun record overflow ring' hr => ?_⟩
  · rw [h.popped, h.ring.stored, List.take_append_drop]
  · rw [h.ring.head, h.ring.tail, h.ring.count, Nat.mod_add_mod, Nat.add_sub_cancel' hle]
  · rw [h.ring.count]
    omega
  · exact (h.ring.round hr).2.2

end Rpitos
