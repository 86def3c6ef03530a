import Rpitos.Telemetry.TickRing

/-!
# Telemetry.SyncRoster

The roster of synchronisation objects of `telemetry.c`: `telemetry_register_sync` announces an object
and stores it as long as there is room, `telemetry_rebroadcast_sync_roster` announces the stored ones
again. What a local array holds before it is written is arbitrary.

`roster_repeats`: the rebroadcast sends the payloads of the first registrations once more, byte for
byte and in their order, also while other cores register objects and report ticks; and the
identifiers are pairwise different.
-/

namespace Rpitos

open Function (update update_self update_of_ne)

def TELEMETRY_SYNC_NAME_MAX : Nat := 16
def TELEMETRY_MAX_SYNC_OBJECTS : Nat := 16

def PKT_SYNC_CREATED : UInt32 := 9

/-- `name_len` is at most `TELEMETRY_SYNC_NAME_MAX`. -/
structure TelemetrySyncRegistryEntry where
  kind : TelemetrySyncKind
  sync_id : UInt16
  parent_sync_id : UInt16
  name_len : Nat
  name : Nat → UInt8

/-- The static variables, with the tick-state rings. -/
structure SyncTelemetry where
  next_sync_id : UInt16
  sync_registry : Nat → TelemetrySyncRegistryEntry
  sync_registry_count : UInt16
  g_tick_rings : TickRings

/-- `payload[0]` to `payload[4]`. -/
def sync_header (payload : Nat → UInt8) (kind : TelemetrySyncKind) (sync_id parent_sync_id : UInt16) :
    Nat → UInt8 :=
  copy_bytes payload 0 (buffer_of [kind.toByte, (sync_id >>> 8).toUInt8, (sync_id &&& 0xFF).toUInt8,
    (parent_sync_id >>> 8).toUInt8, (parent_sync_id &&& 0xFF).toUInt8]) 5

/-- The `while` of `telemetry_register_sync`, from `name_len` on. -/
def copy_name (name : Option (Nat → UInt8)) (payload : Nat → UInt8) (name_len : Nat) :
    (Nat → UInt8) × Nat :=
  match name with
  | none => (payload, name_len)
  | some chars =>
    if chars name_len ≠ 0 ∧ name_len < TELEMETRY_SYNC_NAME_MAX then
      copy_name (some chars) (update payload (5 + name_len) (chars name_len)) (name_len + 1)
    else (payload, name_len)
termination_by TELEMETRY_SYNC_NAME_MAX - name_len

/-- `telemetry_send_framed(PKT_SYNC_CREATED, payload, (uint8_t)(5 + name_len))`. -/
def sync_created_call (payload : Nat → UInt8) (name_len : Nat) : FramedCall :=
  ⟨PKT_SYNC_CREATED, payload, UInt8.ofNat (5 + name_len)⟩

/-- The arguments of `telemetry_register_sync`; `payload` is its local array. -/
structure RegisterCall where
  kind : TelemetrySyncKind
  parent_sync_id : UInt16
  name : Option (Nat → UInt8)
  payload : Nat → UInt8

/-- The result, the call that announces the object, and the state. -/
def telemetry_register_sync (X : SyncTelemetry) (args : RegisterCall) :
    UInt16 × FramedCall × SyncTelemetry :=
  let sync_id := X.next_sync_id
  let payload := sync_header args.payload args.kind sync_id args.parent_sync_id
  let (payload, name_len) := copy_name args.name payload 0
  let X := { X with next_sync_id := X.next_sync_id + 1 }
  let X := if X.sync_registry_count.toNat < TELEMETRY_MAX_SYNC_OBJECTS then
      let i := X.sync_registry_count.toNat
      -- a name that is `NULL` has no bytes to copy
      let name := copy_bytes (X.sync_registry i).name 0 (args.name.getD fun _ => 0) name_len
      { X with
        sync_registry := update X.sync_registry i
          ⟨args.kind, sync_id, args.parent_sync_id, name_len, name⟩
        sync_registry_count := X.sync_registry_count + 1 }
    else X
  (sync_id, sync_created_call payload name_len, X)

/-- The call for a stored object. -/
def entry_call (entry : TelemetrySyncRegistryEntry) (payload : Nat → UInt8) : FramedCall :=
  let payload := sync_header payload entry.kind entry.sync_id entry.parent_sync_id
  sync_created_call (copy_bytes payload 5 entry.name entry.name_len) entry.name_len

inductive SyncStep where
  | register (args : RegisterCall)
  | report (core_id : UInt32) (task_id : UInt16) (state : UInt8)
  | drain

namespace SyncTelemetry

/-- All zero. -/
def boot : SyncTelemetry :=
  ⟨0, fun _ => ⟨.SYNC_KIND_MUTEX, 0, 0, 0, fun _ => 0⟩, 0, fun _ => .boot⟩

/-- A step, and the object that it announces. -/
def step (X : SyncTelemetry) : SyncStep → Option (UInt16 × FramedCall) × SyncTelemetry
  | .register args =>
    let r := telemetry_register_sync X args
    (some (r.1, r.2.1), r.2.2)
  | .report core_id task_id state =>
    (none, { X with
      g_tick_rings := telemetry_report_tick_state X.g_tick_rings core_id task_id state })
  | .drain => (none, { X with g_tick_rings := (telemetry_drain_tick_rings X.g_tick_rings).2 })

/-- The objects that the steps announce, and the state after them. -/
def run (X : SyncTelemetry) : List SyncStep → List (UInt16 × FramedCall) × SyncTelemetry
  | [] => ([], X)
  | a :: steps =>
    let r := X.step a
    let rest := run r.2 steps
    (r.1.toList ++ rest.1, rest.2)

end SyncTelemetry

/-- The loop of the rebroadcast, from entry `i` on: what it sends, and the state. Before it reads an
entry, other cores take the steps `others i`. -/
def rebroadcast_loop (others : Nat → List SyncStep) (payload : Nat → Nat → UInt8) :
    Nat → Nat → SyncTelemetry → List FramedCall × SyncTelemetry
  | 0, _, X => ([], X)
  | left + 1, i, X =>
    let X := (X.run (others i)).2
    let call := entry_call (X.sync_registry i) (payload i)
    let drained := telemetry_drain_tick_rings X.g_tick_rings
    let rest := rebroadcast_loop others payload left (i + 1) { X with g_tick_rings := drained.2 }
    (call :: drained.1 ++ rest.1, rest.2)

def telemetry_rebroadcast_sync_roster (X : SyncTelemetry) (others : Nat → List SyncStep)
    (payload : Nat → Nat → UInt8) : List FramedCall × SyncTelemetry :=
  let count := X.sync_registry_count.toNat
  rebroadcast_loop others payload count 0 X

/-! ## Payloads -/

/-- What a call puts on the wire: the type, and the bytes of the payload. -/
def FramedCall.sent (c : FramedCall) : UInt32 × List UInt8 :=
  (c.type, bytes_at c.payload 0 c.len.toNat)

theorem bytes_at_congr {f g : Nat → UInt8} {off n : Nat} (h : ∀ k, k < n → f (off + k) = g (off + k)) :
    bytes_at f off n = bytes_at g off n :=
  List.map_congr_left fun k hk => h k (List.mem_range.mp hk)

/-- The name is behind the header, as many bytes of it as there is room for. -/
theorem copy_name_spec (name : Option (Nat → UInt8)) (payload : Nat → UInt8) {n : Nat}
    (hn : n ≤ TELEMETRY_SYNC_NAME_MAX) :
    n ≤ (copy_name name payload n).2 ∧ (copy_name name payload n).2 ≤ TELEMETRY_SYNC_NAME_MAX ∧
      ∀ k, (copy_name name payload n).1 k =
        if 5 + n ≤ k ∧ k < 5 + (copy_name name payload n).2 then
          (name.getD fun _ => 0) (k - 5) else payload k := by
  fun_induction copy_name name payload n with
  | case1 payload n => exact ⟨Nat.le_refl _, hn, fun k => by rw [if_neg (by omega)]⟩
  | case2 payload n chars hmore ih =>
    obtain ⟨hle, hmax, hbytes⟩ := ih (by omega)
    refine ⟨by omega, hmax, fun k => ?_⟩
    rw [hbytes]
    by_cases hk : k = 5 + n
    · subst hk
      rw [if_neg (by omega), update_self, if_pos (by omega), Nat.add_sub_cancel_left]
      rfl
    · rw [update_of_ne hk]
      exact if_congr (by omega) rfl rfl
  | case3 payload n chars hend =>
    exact ⟨Nat.le_refl _, hn, fun k => by rw [if_neg (by omega)]⟩

theorem sync_header_apply (payload payload' : Nat → UInt8) (kind : TelemetrySyncKind)
    (sync_id parent_sync_id : UInt16) {k : Nat} (hk : k < 5) :
    sync_header payload kind sync_id parent_sync_id k =
      sync_header payload' kind sync_id parent_sync_id k := by
  unfold sync_header
  rw [copy_bytes_apply, copy_bytes_apply, if_pos (by omega), if_pos (by omega)]

section Register

variable {X : SyncTelemetry} {args : RegisterCall}

/-- An object that is stored will be announced with the same payload. -/
theorem entry_call_again (hroom : X.sync_registry_count.toNat < TELEMETRY_MAX_SYNC_OBJECTS)
    (payload : Nat → UInt8) :
    (entry_call ((telemetry_register_sync X args).2.2.sync_registry X.sync_registry_count.toNat)
      payload).sent = (telemetry_register_sync X args).2.1.sent := by
  obtain ⟨-, hmax, hbytes⟩ := copy_name_spec args.name
    (sync_header args.payload args.kind X.next_sync_id args.parent_sync_id) (Nat.zero_le _)
  unfold telemetry_register_sync
  dsimp only
  rw [if_pos hroom]
  dsimp only
  rw [update_self]
  unfold entry_call sync_created_call FramedCall.sent
  dsimp only
  unfold TELEMETRY_SYNC_NAME_MAX at hmax
  refine congrArg _ (bytes_at_congr fun k hk => ?_)
  rw [UInt8.toNat_ofNat', Nat.mod_eq_of_lt (by omega)] at hk
  rw [Nat.zero_add, copy_bytes_apply, hbytes]
  by_cases hk5 : 5 ≤ k
  · rw [if_pos (by omega), if_pos (by omega), copy_bytes_apply, if_pos (by omega), Nat.sub_zero]
  · rw [if_neg (by omega), if_neg (by omega)]
    exact sync_header_apply _ _ _ _ _ (by omega)

theorem register_keeps {i : Nat} (hi : i < X.sync_registry_count.toNat) :
    (telemetry_register_sync X args).2.2.sync_registry i = X.sync_registry i := by
  unfold telemetry_register_sync
  dsimp only
  split
  · exact update_of_ne (by omega) ..
  · rfl

theorem register_count (X : SyncTelemetry) (args : RegisterCall) :
    (telemetry_register_sync X args).2.2.sync_registry_count.toNat =
      if X.sync_registry_count.toNat < TELEMETRY_MAX_SYNC_OBJECTS then
        X.sync_registry_count.toNat + 1 else X.sync_registry_count.toNat := by
  unfold telemetry_register_sync
  dsimp only
  split
  · rename_i hroom
    unfold TELEMETRY_MAX_SYNC_OBJECTS at hroom
    dsimp only
    rw [UInt16.toNat_add]
    show (X.sync_registry_count.toNat + 1) % 65536 = _
    exact Nat.mod_eq_of_lt (by omega)
  · rfl

theorem register_next (X : SyncTelemetry) (args : RegisterCall) :
    (telemetry_register_sync X args).2.2.next_sync_id = X.next_sync_id + 1 := by
  unfold telemetry_register_sync
  dsimp only
  split <;> rfl

end Register

/-! ## Runs -/

/-- The number of registrations. -/
def registers (steps : List SyncStep) : Nat :=
  steps.countP fun | .register _ => true | _ => false

/-- The roster behind what has been announced: the stored objects are the first ones, and the
identifiers count up. -/
structure RosterInv (X : SyncTelemetry) (announced : List (UInt16 × FramedCall)) : Prop where
  count : X.sync_registry_count.toNat = min announced.length TELEMETRY_MAX_SYNC_OBJECTS
  next : X.next_sync_id = UInt16.ofNat announced.length
  ids : announced.map Prod.fst = (List.range announced.length).map UInt16.ofNat
  entries : ∀ i < X.sync_registry_count.toNat, ∀ payload,
    announced[i]?.map (fun a => a.2.sent) = some (entry_call (X.sync_registry i) payload).sent

namespace SyncTelemetry

variable {X : SyncTelemetry} {announced : List (UInt16 × FramedCall)}

theorem boot_inv : RosterInv boot [] := ⟨rfl, rfl, rfl, nofun⟩

theorem register_inv (h : RosterInv X announced) (args : RegisterCall) :
    RosterInv (telemetry_register_sync X args).2.2
      (announced ++ [((telemetry_register_sync X args).1, (telemetry_register_sync X args).2.1)]) := by
  have hcount := h.count
  have hlen : (announced ++ [((telemetry_register_sync X args).1,
      (telemetry_register_sync X args).2.1)]).length = announced.length + 1 := by simp
  refine ⟨?_, ?_, ?_, fun i hi payload => ?_⟩
  · rw [register_count, hlen]
    split <;> omega
  · rw [register_next, h.next, hlen, UInt16.ofNat_add]
    rfl
  · rw [hlen, List.map_append, h.ids, List.range_succ, List.map_append, List.map_singleton,
      List.map_singleton, ← h.next]
    rfl
  · rw [register_count] at hi
    by_cases hold : i < X.sync_registry_count.toNat
    · rw [register_keeps hold, List.getElem?_append_left (by omega)]
      exact h.entries i hold payload
    · -- this is the new entry
      have hroom : X.sync_registry_count.toNat < TELEMETRY_MAX_SYNC_OBJECTS := by
        by_contra hfull
        rw [if_neg hfull] at hi
        exact hold hi
      rw [if_pos hroom] at hi
      obtain rfl : i = X.sync_registry_count.toNat := by omega
      rw [entry_call_again hroom, List.getElem?_append_right (by omega),
        show X.sync_registry_count.toNat - announced.length = 0 by omega]
      rfl

theorem step_inv (h : RosterInv X announced) (a : SyncStep) :
    RosterInv (X.step a).2 (announced ++ (X.step a).1.toList) := by
  cases a with
  | register args => exact register_inv h args
  | report core_id task_id state =>
    rw [show (X.step (.report core_id task_id state)).1.toList = [] from rfl, List.append_nil]
    exact ⟨h.count, h.next, h.ids, h.entries⟩
  | drain =>
    rw [show (X.step .drain).1.toList = [] from rfl, List.append_nil]
    exact ⟨h.count, h.next, h.ids, h.entries⟩

theorem run_inv (steps : List SyncStep) : ∀ {X : SyncTelemetry}
    {announced : List (UInt16 × FramedCall)}, RosterInv X announced →
      RosterInv (X.run steps).2 (announced ++ (X.run steps).1) := by
  induction steps with
  | nil =>
    intro X announced h
    rw [run, List.append_nil]
    exact h
  | cons a steps ih =>
    intro X announced h
    rw [run, ← List.append_assoc]
    exact ih (step_inv h a)

/-- Steps of other cores leave the entries alone. -/
theorem run_keeps (steps : List SyncStep) : ∀ X : SyncTelemetry,
    X.sync_registry_count.toNat ≤ (X.run steps).2.sync_registry_count.toNat ∧
      ∀ i < X.sync_registry_count.toNat, (X.run steps).2.sync_registry i = X.sync_registry i := by
  induction steps with
  | nil => exact fun X => ⟨Nat.le_refl _, fun i _ => rfl⟩
  | cons a steps ih =>
    intro X
    obtain ⟨hle, hkeep⟩ := ih (X.step a).2
    rw [run]
    cases a with
    | register args =>
      have hcount : X.sync_registry_count.toNat ≤
          (X.step (.register args)).2.sync_registry_count.toNat := by
        show _ ≤ (telemetry_register_sync X args).2.2.sync_registry_count.toNat
        rw [register_count]
        split <;> omega
      exact ⟨hcount.trans hle, fun i hi =>
        (hkeep i (Nat.lt_of_lt_of_le hi hcount)).trans (register_keeps hi)⟩
    | report core_id task_id state => exact ⟨hle, hkeep⟩
    | drain => exact ⟨hle, hkeep⟩

theorem run_length (steps : List SyncStep) : ∀ X : SyncTelemetry,
    (X.run steps).1.length = registers steps := by
  induction steps with
  | nil => exact fun X => rfl
  | cons a steps ih =>
    intro X
    rw [run, List.length_append, ih]
    unfold registers
    cases a <;> simp [step, Nat.add_comm]

end SyncTelemetry

/-- The announcements among the calls. -/
def created_calls (calls : List FramedCall) : List FramedCall :=
  calls.filter fun c => c.type = PKT_SYNC_CREATED

/-- The rebroadcast goes through the entries that were there at its start. -/
theorem rebroadcast_loop_eq (others : Nat → List SyncStep) (payload : Nat → Nat → UInt8)
    (left : Nat) : ∀ {i : Nat} {X : SyncTelemetry}, i + left ≤ X.sync_registry_count.toNat →
      created_calls (rebroadcast_loop others payload left i X).1 =
        (List.range' i left).map fun j => entry_call (X.sync_registry j) (payload j) := by
  induction left with
  | zero => exact fun _ => rfl
  | succ left ih =>
    intro i X hle
    obtain ⟨hcount, hkeep⟩ := SyncTelemetry.run_keeps (others i) X
    have hticks : created_calls (telemetry_drain_tick_rings (X.run (others i)).2.g_tick_rings).1 =
        [] := by
      refine List.filter_eq_nil_iff.mpr fun c hc => ?_
      rw [telemetry_drain_type _ c hc]
      decide
    rw [rebroadcast_loop, List.range'_succ, List.map_cons, ← hkeep i (by omega)]
    dsimp only
    unfold created_calls at hticks ih ⊢
    rw [List.cons_append, List.filter_cons_of_pos (by rfl), List.filter_append, hticks,
      List.nil_append, ih (by dsimp only; omega)]
    refine congrArg (List.cons _) (List.map_congr_left fun j hj => ?_)
    rw [List.mem_range'_1] at hj
    dsimp only
    rw [hkeep j (by omega)]

/-- After any registrations, fewer than 65536, with reports and drains between them: the rebroadcast
announces the first of them once more, as many as are stored, with the payloads that were sent when
they were registered; and the identifiers are pairwise different. -/
theorem roster_repeats (steps : List SyncStep) (others : Nat → List SyncStep)
    (payload : Nat → Nat → UInt8) (hn : registers steps < 65536) :
    let r := SyncTelemetry.boot.run steps
    r.1.length = registers steps ∧
      (created_calls (telemetry_rebroadcast_sync_roster r.2 others payload).1).map FramedCall.sent =
        (r.1.take (min (registers steps) TELEMETRY_MAX_SYNC_OBJECTS)).map (fun a => a.2.sent) ∧
      (r.1.map Prod.fst).Nodup := by
  intro r
  have hlen : r.1.length = registers steps := SyncTelemetry.run_length steps .boot
  have h : RosterInv r.2 r.1 := SyncTelemetry.run_inv steps SyncTelemetry.boot_inv
  have hcount := h.count
  refine ⟨hlen, ?_, ?_⟩
  · rw [telemetry_rebroadcast_sync_roster, rebroadcast_loop_eq others payload _ (by omega),
      ← hlen, ← hcount, List.map_map]
    refine List.ext_getElem? fun i => ?_
    rw [List.getElem?_map, List.getElem?_map, List.getElem?_take]
    by_cases hi : i < r.2.sync_registry_count.toNat
    · rw [if_pos hi, h.entries i hi (payload i), List.getElem?_range' hi]
      simp
    · rw [if_neg hi, List.getElem?_eq_none (by simp; omega)]
      rfl
  · rw [h.ids, List.nodup_map_iff_inj_on List.nodup_range]
    intro i hi j hj hij
    rw [List.mem_range] at hi hj
    have heq := congrArg UInt16.toNat hij
    rw [UInt16.toNat_ofNat', UInt16.toNat_ofNat'] at heq
    omega

/-- A queue with a name and the mutex inside it. -/
theorem roster_repeats_two :
    let steps : List SyncStep :=
      [.register ⟨.SYNC_KIND_QUEUE, 0xFFFF, some (buffer_of [113, 49]), fun _ => 0⟩,
        .register ⟨.SYNC_KIND_MUTEX, 0, none, fun _ => 7⟩]
    let r := SyncTelemetry.boot.run steps
    r.1.length = registers steps ∧
      (created_calls
        (telemetry_rebroadcast_sync_roster r.2 (fun _ => []) fun _ _ => 1).1).map FramedCall.sent =
        (r.1.take (min (registers steps) TELEMETRY_MAX_SYNC_OBJECTS)).map (fun a => a.2.sent) ∧
      (r.1.map Prod.fst).Nodup :=
  roster_repeats _ _ _ (by decide)

end Rpitos
