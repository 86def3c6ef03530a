import Rpitos.Telemetry.Reports

/-!
# Telemetry.Publisher

`telemetry_publisher_task` between the other cores: a step is one section under a lock, or one test
of the loop, and before each of them the other cores register objects, report ticks and send reports
of their own. A frame goes out whole, in one step; what a tick does that falls into one is in
`Telemetry.Wire`.

`publisher_stream`: the heartbeats on the wire count up from 0, one for every 100th iteration; the
tick states of a core are the records of its ring; an announced object has been registered.
`roster_heard`: in any 2000 iterations each stored object is announced, in any 100 there is a
heartbeat.
-/

namespace Rpitos

open Function (update update_self update_of_ne)

/-- The next step of the publisher. Where it drains the rings, `back` is the entry of the roster
behind which it does so, with the `count` of the rebroadcast. -/
inductive PublisherPc where
  | drain (core_id : Nat) (back : Option (Nat × Nat))
  /-- A record has been taken from the ring and is to be sent. -/
  | tick_state (record : TickRecord) (overflow : UInt8) (core_id : Nat) (back : Option (Nat × Nat))
  | heartbeat
  | roster
  | entry (i count : Nat)
  | delay
  deriving DecidableEq

/-- `arrived` and `popped` are those of `TickHistory`, `objects` are the packets of the registrations
so far, and `iterations` counts those of the publisher that are over. -/
structure Publisher where
  pc : PublisherPc
  heartbeat_counter : UInt32
  loop_counter : UInt32
  shared : SyncTelemetry
  calls : List FramedCall
  arrived : Nat → List (TickRecord × Nat)
  popped : Nat → List (TickRecord × UInt8)
  objects : List TelemetryPacket
  iterations : Nat

/-- Reports that neither the publisher nor `telemetry_register_sync` makes. -/
def Report.is_hook : Report → Bool
  | heartbeat .. | tick_state .. | register_sync .. => false
  | _ => true

inductive PublisherStep where
  /-- `payload` is the local array. -/
  | publisher (payload : Nat → UInt8)
  | tick (core_id : UInt32) (task_id : UInt16) (state : UInt8)
  | register (args : RegisterCall)
  | hook (r : Report) (h : r.is_hook = true)

namespace Publisher

/-- The publisher has been made, and nothing else. -/
def boot : Publisher :=
  ⟨.drain 0 none, 0, 0, .boot, [], fun _ => [], fun _ => [], [], 0⟩

def goto (P : Publisher) (pc : PublisherPc) : Publisher := { P with pc := pc }

/-- `telemetry_send_framed`. -/
def send (P : Publisher) (c : FramedCall) : Publisher := { P with calls := P.calls ++ [c] }

def ticks (P : Publisher) : TickHistory := ⟨P.shared.g_tick_rings, P.arrived, P.popped⟩

def withTicks (P : Publisher) (T : TickHistory) : Publisher :=
  { P with
    shared := { P.shared with g_tick_rings := T.rings }
    arrived := T.arrived
    popped := T.popped }

/-- A round of the drain at ring `core_id`. -/
def drain_round (P : Publisher) (core_id : CoreId) (back : Option (Nat × Nat)) : Publisher :=
  match (P.shared.g_tick_rings core_id).round with
  | none => P.goto (.drain (core_id + 1) back)
  | some (record, overflow, _) =>
    (P.withTicks (P.ticks.step (.round core_id))).goto (.tick_state record overflow core_id back)

/-- The publisher's own step. -/
def go (P : Publisher) (payload : Nat → UInt8) : Publisher :=
  match P.pc with
  | .drain core_id back =>
    if h : core_id < COMPANION_CORE_MAX_CORES then P.drain_round ⟨core_id, h⟩ back
    else
      match back with
      | none => P.goto .heartbeat
      | some (i, count) => P.goto (.entry (i + 1) count)
  | .tick_state record overflow core_id back =>
    (P.send (tick_state_call record overflow)).goto (.drain core_id back)
  | .heartbeat =>
    if P.loop_counter % 100 = 0 then
      { (P.send (Reports.heartbeat P.heartbeat_counter)).goto .roster with
        heartbeat_counter := P.heartbeat_counter + 1 }
    else P.goto .roster
  | .roster =>
    if P.loop_counter % 2000 = 0 then P.goto (.entry 0 P.shared.sync_registry_count.toNat)
    else P.goto .delay
  | .entry i count =>
    if i < count then
      (P.send (entry_call (P.shared.sync_registry i) payload)).goto (.drain 0 (some (i, count)))
    else P.goto .delay
  | .delay =>
    { P.goto (.drain 0 none) with
      loop_counter := P.loop_counter + 1
      iterations := P.iterations + 1 }

def register (P : Publisher) (args : RegisterCall) : Publisher :=
  let r := telemetry_register_sync P.shared args
  { P.send r.2.1 with
    shared := r.2.2
    objects := P.objects ++ [(Report.register_sync P.shared args).packet] }

def step (P : Publisher) : PublisherStep → Publisher
  | .publisher payload => P.go payload
  | .tick core_id task_id state => P.withTicks (P.ticks.step (.report core_id task_id state))
  | .register args => P.register args
  | .hook r _ => P.send r.call

def run (P : Publisher) (steps : List PublisherStep) : Publisher := steps.foldl step P

end Publisher

/-! ## What a host reads -/

/-- The counters of the heartbeats. -/
def heartbeats (packets : List TelemetryPacket) : List UInt32 :=
  packets.filterMap fun
    | .PKT_HEARTBEAT counter => some counter
    | _ => none

/-- The tick states of a core. -/
def tick_states (core : Nat) (packets : List TelemetryPacket) : List (TickRecord × UInt8) :=
  packets.filterMap fun
    | .PKT_TICK_STATE core_id task_id state overflow_count =>
      if core_id.toNat = core then some (⟨core_id, task_id, state⟩, overflow_count) else none
    | _ => none

def TelemetryPacket.is_created : TelemetryPacket → Bool
  | .PKT_SYNC_CREATED .. => true
  | _ => false

/-- `loop_counter % period == 0` in iteration `t`. -/
def due (period t : Nat) : Bool := t % 2 ^ 32 % period = 0

/-- The heartbeats of the first `n` iterations. -/
def beats (n : Nat) : Nat := (List.range n).countP (due 100)

theorem beats_succ (n : Nat) : beats (n + 1) = beats n + if due 100 n then 1 else 0 := by
  unfold beats
  rw [List.range_succ, List.countP_append, List.countP_singleton]

theorem heartbeats_append (packets packets' : List TelemetryPacket) :
    heartbeats (packets ++ packets') = heartbeats packets ++ heartbeats packets' :=
  List.filterMap_append

theorem tick_states_append (core : Nat) (packets packets' : List TelemetryPacket) :
    tick_states core (packets ++ packets') = tick_states core packets ++ tick_states core packets' :=
  List.filterMap_append

theorem tick_states_tick (core : Nat) (record : TickRecord) (overflow : UInt8) :
    tick_states core [(Report.tick_state record overflow).packet] =
      if record.core_id.toNat = core then [(record, overflow)] else [] := by
  by_cases h : record.core_id.toNat = core <;> simp [tick_states, Report.packet, h]

namespace PublisherPc

/-- 1 when the test for the heartbeat is over. -/
def past_heartbeat : PublisherPc → Nat
  | .drain _ none | .tick_state _ _ _ none | .heartbeat => 0
  | _ => 1

/-- What has been taken from the ring of `core` and not been sent. -/
def taken (core : Nat) : PublisherPc → List (TickRecord × UInt8)
  | .tick_state record overflow core_id _ => if core_id = core then [(record, overflow)] else []
  | _ => []

/-- `count` of the rebroadcast. -/
def limit : PublisherPc → Nat
  | .drain _ (some (_, count)) | .tick_state _ _ _ (some (_, count)) | .entry _ count => count
  | _ => 0

end PublisherPc

namespace Publisher

variable {P : Publisher} {packets : List TelemetryPacket}

structure HeartbeatsInv (P : Publisher) (packets : List TelemetryPacket) : Prop where
  loop : P.loop_counter = UInt32.ofNat P.iterations
  counter : P.heartbeat_counter = UInt32.ofNat (beats (P.iterations + P.pc.past_heartbeat))
  sent : heartbeats packets =
    (List.range (beats (P.iterations + P.pc.past_heartbeat))).map UInt32.ofNat

structure TickStatesInv (P : Publisher) (packets : List TelemetryPacket) : Prop where
  rings : ∀ core < COMPANION_CORE_MAX_CORES, P.ticks.CoreInv core
  cores : ∀ core < COMPANION_CORE_MAX_CORES, ∀ a ∈ P.arrived core, a.1.core_id.toNat = core
  taken : ∀ core, ∀ r ∈ P.pc.taken core, r.1.core_id.toNat = core
  sent : ∀ core, tick_states core packets ++ P.pc.taken core = P.popped core

/-- The entries of the roster are the first registrations. -/
structure ObjectsInv (P : Publisher) (packets : List TelemetryPacket) : Prop where
  count : P.shared.sync_registry_count.toNat = min P.objects.length TELEMETRY_MAX_SYNC_OBJECTS
  entries : ∀ i < P.shared.sync_registry_count.toNat, ∃ p, P.objects[i]? = some p ∧
    p.is_created = true ∧ ∀ payload, (entry_call (P.shared.sync_registry i) payload).Carries p
  limit : P.pc.limit ≤ P.shared.sync_registry_count.toNat
  announced : ∀ p ∈ packets, p.is_created = true → p ∈ P.objects

structure PublisherInv (P : Publisher) (packets : List TelemetryPacket) : Prop where
  carries : List.Forall₂ FramedCall.Carries P.calls packets
  heartbeat : P.HeartbeatsInv packets
  tick_state : P.TickStatesInv packets
  object : P.ObjectsInv packets

theorem PublisherInv.boot : PublisherInv boot [] where
  carries := .nil
  heartbeat := ⟨rfl, rfl, rfl⟩
  tick_state := ⟨fun core _ => TickHistory.CoreInv.boot core, fun _ _ => nofun, fun _ => nofun,
    fun _ => rfl⟩
  object := ⟨rfl, fun _ h => absurd h (Nat.not_lt_zero _), Nat.le_refl _, nofun⟩

theorem HeartbeatsInv.goto (h : HeartbeatsInv P packets) {pc : PublisherPc}
    (hpast : beats (P.iterations + pc.past_heartbeat) =
      beats (P.iterations + P.pc.past_heartbeat)) : HeartbeatsInv (P.goto pc) packets := by
  refine ⟨h.loop, ?_, ?_⟩
  · show P.heartbeat_counter = UInt32.ofNat (beats (P.iterations + pc.past_heartbeat))
    rw [hpast, h.counter]
  · show _ = (List.range (beats (P.iterations + pc.past_heartbeat))).map UInt32.ofNat
    rw [hpast, h.sent]

theorem TickStatesInv.goto (h : TickStatesInv P packets) {pc : PublisherPc}
    (htaken : ∀ core, pc.taken core = P.pc.taken core) : TickStatesInv (P.goto pc) packets := by
  refine ⟨h.rings, h.cores, fun core r hr => ?_, fun core => ?_⟩
  · exact h.taken core r (htaken core ▸ hr)
  · show _ ++ pc.taken core = _
    rw [htaken core]
    exact h.sent core

theorem ObjectsInv.goto (h : ObjectsInv P packets) {pc : PublisherPc}
    (hlimit : pc.limit ≤ P.shared.sync_registry_count.toNat) : ObjectsInv (P.goto pc) packets :=
  ⟨h.count, h.entries, hlimit, h.announced⟩

/-- A move of the publisher that sends nothing. -/
theorem PublisherInv.goto (h : PublisherInv P packets) {pc : PublisherPc}
    (hpast : beats (P.iterations + pc.past_heartbeat) =
      beats (P.iterations + P.pc.past_heartbeat))
    (htaken : ∀ core, pc.taken core = P.pc.taken core)
    (hlimit : pc.limit ≤ P.shared.sync_registry_count.toNat) : PublisherInv (P.goto pc) packets :=
  ⟨h.carries, h.heartbeat.goto hpast, h.tick_state.goto htaken, h.object.goto hlimit⟩

section Send

variable {c : FramedCall} {p : TelemetryPacket}

theorem carries_snoc (h : List.Forall₂ FramedCall.Carries P.calls packets) (hc : c.Carries p) :
    List.Forall₂ FramedCall.Carries (P.send c).calls (packets ++ [p]) :=
  List.rel_append h (.cons hc .nil)

theorem HeartbeatsInv.send (h : HeartbeatsInv P packets) (hp : heartbeats [p] = []) :
    HeartbeatsInv (P.send c) (packets ++ [p]) := by
  refine ⟨h.loop, h.counter, ?_⟩
  rw [heartbeats_append, hp, List.append_nil]
  exact h.sent

theorem TickStatesInv.send (h : TickStatesInv P packets) (hp : ∀ core, tick_states core [p] = []) :
    TickStatesInv (P.send c) (packets ++ [p]) := by
  refine ⟨h.rings, h.cores, h.taken, fun core => ?_⟩
  rw [tick_states_append, hp, List.append_nil]
  exact h.sent core

theorem ObjectsInv.send (h : ObjectsInv P packets) (hp : p.is_created = true → p ∈ P.objects) :
    ObjectsInv (P.send c) (packets ++ [p]) := by
  refine ⟨h.count, h.entries, h.limit, fun q hq hcreated => ?_⟩
  obtain hq | hq := List.mem_append.mp hq
  · exact h.announced q hq hcreated
  · obtain rfl := List.mem_singleton.mp hq
    exact hp hcreated

end Send

/-! ## The other cores -/

theorem PublisherInv.hook (h : PublisherInv P packets) {r : Report} (hr : r.is_hook = true) :
    PublisherInv (P.send r.call) (packets ++ [r.packet]) := by
  refine ⟨carries_snoc h.carries r.carries, h.heartbeat.send ?_, h.tick_state.send fun core => ?_,
    h.object.send fun hcreated => ?_⟩
  · cases r <;> first | rfl | cases hr
  · cases r <;> first | rfl | cases hr
  · cases r <;> first | (cases hr; done) | cases hcreated

theorem carries_congr {c c' : FramedCall} {p : TelemetryPacket} (hsent : c.sent = c'.sent)
    (h : c'.Carries p) : c.Carries p := by
  obtain ⟨htype, hbytes⟩ := Prod.mk.inj hsent
  obtain ⟨hvalid, htype', hbytes'⟩ := h
  refine ⟨?_, htype.trans htype', hbytes.trans hbytes'⟩
  rw [FramedCall.valid, htype]
  exact hvalid

/-- A registration adds an object, and an entry as long as there is room. -/
theorem ObjectsInv.register (h : ObjectsInv P packets) (args : RegisterCall) :
    ObjectsInv (P.register args) (packets ++ [(Report.register_sync P.shared args).packet]) := by
  have hcount := h.count
  have hcount' := register_count P.shared args
  have hlen : (P.register args).objects.length = P.objects.length + 1 := by
    show (P.objects ++ [_]).length = _
    rw [List.length_append, List.length_singleton]
  refine ⟨?_, fun i hi => ?_, ?_, fun p hp hcreated => ?_⟩
  · show (telemetry_register_sync P.shared args).2.2.sync_registry_count.toNat = _
    rw [hcount', hlen]
    split <;> omega
  · have hi' : i < (telemetry_register_sync P.shared args).2.2.sync_registry_count.toNat := hi
    rw [hcount'] at hi'
    by_cases hold : i < P.shared.sync_registry_count.toNat
    · obtain ⟨p, hp, hcreated, hcarries⟩ := h.entries i hold
      refine ⟨p, ?_, hcreated, fun payload => ?_⟩
      · show (P.objects ++ [_])[i]? = _
        rw [List.getElem?_append_left (by omega), hp]
      · show (entry_call ((telemetry_register_sync P.shared args).2.2.sync_registry i) _).Carries p
        rw [register_keeps hold]
        exact hcarries payload
    · -- the new entry
      have hroom : P.shared.sync_registry_count.toNat < TELEMETRY_MAX_SYNC_OBJECTS := by
        by_contra hfull
        rw [if_neg hfull] at hi'
        exact hold hi'
      rw [if_pos hroom] at hi'
      obtain rfl : i = P.shared.sync_registry_count.toNat := by omega
      refine ⟨(Report.register_sync P.shared args).packet, ?_, rfl, fun payload => ?_⟩
      · show (P.objects ++ [_])[_]? = _
        rw [List.getElem?_append_right (by omega),
          show P.shared.sync_registry_count.toNat - P.objects.length = 0 by omega]
        rfl
      · exact carries_congr (entry_call_again hroom payload)
          (Report.register_sync P.shared args).carries
  · have hlimit := h.limit
    show P.pc.limit ≤ (telemetry_register_sync P.shared args).2.2.sync_registry_count.toNat
    rw [hcount']
    split <;> omega
  · show p ∈ P.objects ++ [_]
    obtain hp | hp := List.mem_append.mp hp
    · exact List.mem_append_left _ (h.announced p hp hcreated)
    · exact List.mem_append_right _ hp

theorem register_rings (X : SyncTelemetry) (args : RegisterCall) :
    (telemetry_register_sync X args).2.2.g_tick_rings = X.g_tick_rings := by
  unfold telemetry_register_sync
  dsimp only
  split <;> rfl

theorem PublisherInv.register (h : PublisherInv P packets) (args : RegisterCall) :
    PublisherInv (P.register args) (packets ++ [(Report.register_sync P.shared args).packet]) where
  carries := carries_snoc h.carries (Report.register_sync P.shared args).carries
  heartbeat := by
    have hsend := h.heartbeat.send (c := (Report.register_sync P.shared args).call)
      (p := (Report.register_sync P.shared args).packet) rfl
    exact ⟨hsend.loop, hsend.counter, hsend.sent⟩
  tick_state := by
    have hsend := h.tick_state.send (c := (Report.register_sync P.shared args).call)
      (p := (Report.register_sync P.shared args).packet) fun _ => rfl
    refine ⟨fun core hcore => ?_, hsend.cores, hsend.taken, hsend.sent⟩
    refine (hsend.rings core hcore).congr ?_ rfl rfl
    exact congrFun (register_rings P.shared args) core
  object := h.object.register args

theorem PublisherInv.tick (h : PublisherInv P packets) (core_id : UInt32) (task_id : UInt16)
    (state : UInt8) :
    PublisherInv (P.withTicks (P.ticks.step (.report core_id task_id state))) packets where
  carries := h.carries
  heartbeat := ⟨h.heartbeat.loop, h.heartbeat.counter, h.heartbeat.sent⟩
  tick_state := by
    refine ⟨fun core hcore => (h.tick_state.rings core hcore).report hcore core_id task_id state,
      fun core hcore a ha => ?_, h.tick_state.taken, h.tick_state.sent⟩
    have ha' : a ∈ update P.arrived core_id.toNat (P.arrived core_id.toNat ++ [_]) core := ha
    by_cases hne : core = core_id.toNat
    · subst hne
      rw [update_self] at ha'
      obtain hold | hnew := List.mem_append.mp ha'
      · exact h.tick_state.cores _ hcore a hold
      · obtain rfl := List.mem_singleton.mp hnew
        show core_id.toUInt8.toNat = core_id.toNat
        have hlt : core_id.toNat < 4 := hcore
        rw [UInt32.toNat_toUInt8]
        omega
    · rw [update_of_ne hne] at ha'
      exact h.tick_state.cores core hcore a ha'
  object := ⟨h.object.count, h.object.entries, h.object.limit, h.object.announced⟩

/-! ## The publisher -/

/-- The tests of the loop are about the number of the iteration. -/
theorem HeartbeatsInv.due_iff (h : HeartbeatsInv P packets) (period : UInt32) :
    P.loop_counter % period = 0 ↔ due period.toNat P.iterations = true := by
  rw [h.loop, ← UInt32.toNat_inj, UInt32.toNat_mod, UInt32.toNat_ofNat', due, decide_eq_true_iff]
  exact Iff.rfl

theorem TickStatesInv.round (h : TickStatesInv P packets) {core_id : CoreId}
    {back : Option (Nat × Nat)} (hpc : P.pc = .drain core_id back) {record : TickRecord}
    {overflow : UInt8} {ring : TickRing}
    (hround : (P.shared.g_tick_rings core_id).round = some (record, overflow, ring)) :
    TickStatesInv ((P.withTicks (P.ticks.step (.round core_id))).goto
      (.tick_state record overflow core_id back)) packets := by
  have hstep : P.ticks.step (.round core_id) =
      ⟨update P.shared.g_tick_rings core_id ring, P.arrived,
        update P.popped core_id (P.popped core_id ++ [(record, overflow)])⟩ := by
    have hround' : (P.ticks.rings core_id).round = some (record, overflow, ring) := hround
    rw [TickHistory.step, hround']
    rfl
  have hrings : ∀ core < COMPANION_CORE_MAX_CORES,
      (P.ticks.step (.round core_id)).CoreInv core := fun core hcore =>
    (h.rings core hcore).round core_id
  have hrecord : record.core_id.toNat = core_id := by
    obtain ⟨-, hpopped⟩ := hrings core_id core_id.isLt
    have hmem : record ∈ ((P.ticks.step (.round core_id)).popped core_id).map Prod.fst := by
      rw [hstep]
      dsimp only
      rw [update_self, List.map_append]
      exact List.mem_append_right _ (List.mem_singleton.mpr rfl)
    rw [hpopped] at hmem
    have hkept := List.mem_of_mem_take hmem
    rw [hstep] at hkept
    obtain ⟨a, ha, rfl⟩ := List.mem_map.mp hkept
    exact h.cores core_id core_id.isLt a (List.mem_filter.mp ha).1
  have hsent : ∀ core, tick_states core packets = P.popped core := fun core => by
    have hcore := h.sent core
    rw [hpc] at hcore
    exact (List.append_nil _).symm.trans hcore
  refine ⟨hrings, ?_, fun core r hr => ?_, fun core => ?_⟩
  · show ∀ core < COMPANION_CORE_MAX_CORES, ∀ a ∈ (P.ticks.step _).arrived core, _
    rw [hstep]
    exact h.cores
  · have hr' : r ∈ if core_id.val = core then [(record, overflow)] else [] := hr
    split at hr'
    case isTrue hcore =>
      obtain rfl := List.mem_singleton.mp hr'
      exact hrecord.trans hcore
    case isFalse => cases hr'
  · show tick_states core packets ++ (if core_id.val = core then [(record, overflow)] else []) =
      (P.ticks.step _).popped core
    rw [hstep, hsent]
    dsimp only
    by_cases hcore : core_id.val = core
    · subst hcore
      rw [if_pos rfl, update_self]
    · rw [if_neg hcore, update_of_ne (Ne.symm hcore), List.append_nil]

/-- The record that has been taken goes out. -/
theorem TickStatesInv.send_taken (h : TickStatesInv P packets) {record : TickRecord}
    {overflow : UInt8} {core_id : Nat} {back : Option (Nat × Nat)}
    (hpc : P.pc = .tick_state record overflow core_id back) (c : FramedCall) :
    TickStatesInv ((P.send c).goto (.drain core_id back))
      (packets ++ [(Report.tick_state record overflow).packet]) := by
  have hid : record.core_id.toNat = core_id := by
    refine h.taken core_id (record, overflow) ?_
    rw [hpc, PublisherPc.taken, if_pos rfl]
    exact List.mem_singleton.mpr rfl
  refine ⟨h.rings, h.cores, fun _ _ => nofun, fun core => ?_⟩
  have hcore := h.sent core
  rw [hpc, PublisherPc.taken, ← hid] at hcore
  show _ ++ [] = P.popped core
  rw [List.append_nil, tick_states_append, tick_states_tick]
  exact hcore

theorem PublisherInv.drain (h : PublisherInv P packets) {core_id : CoreId}
    {back : Option (Nat × Nat)} (hpc : P.pc = .drain core_id back) :
    PublisherInv (P.drain_round core_id back) packets := by
  have hlimit := h.object.limit
  rw [hpc] at hlimit
  have hpast : (PublisherPc.drain core_id back).past_heartbeat = P.pc.past_heartbeat := by rw [hpc]
  unfold drain_round
  split
  case h_1 hround =>
    refine h.goto ?_ (fun core => ?_) ?_
    · rw [← hpast]
      cases back <;> rfl
    · rw [hpc]
      rfl
    · cases back <;> exact hlimit
  case h_2 record overflow ring hround =>
    have hbeats : (PublisherPc.tick_state record overflow core_id back).past_heartbeat =
        P.pc.past_heartbeat := by
      rw [← hpast]
      cases back <;> rfl
    refine ⟨h.carries, ?_, h.tick_state.round hpc hround, ?_⟩
    · have hgoto := h.heartbeat.goto (congrArg (fun n => beats (P.iterations + n)) hbeats)
      exact ⟨hgoto.loop, hgoto.counter, hgoto.sent⟩
    · refine ⟨h.object.count, h.object.entries, ?_, h.object.announced⟩
      cases back <;> exact hlimit

/-- A heartbeat in an iteration in which it is due. -/
theorem HeartbeatsInv.beat (h : HeartbeatsInv P packets) (hpc : P.pc = .heartbeat)
    (hdue : P.loop_counter % 100 = 0) (c : FramedCall) :
    HeartbeatsInv { (P.send c).goto .roster with heartbeat_counter := P.heartbeat_counter + 1 }
      (packets ++ [.PKT_HEARTBEAT P.heartbeat_counter]) := by
  have hdue' : due 100 P.iterations = true := (h.due_iff 100).mp hdue
  have hbeats : beats (P.iterations + 1) = beats P.iterations + 1 := by
    rw [beats_succ, if_pos hdue']
  have hcounter := h.counter
  have hsent := h.sent
  rw [hpc] at hcounter hsent
  refine ⟨h.loop, ?_, ?_⟩
  · show P.heartbeat_counter + 1 = UInt32.ofNat (beats (P.iterations + 1))
    rw [hbeats, hcounter, UInt32.ofNat_add]
    rfl
  · show _ = (List.range (beats (P.iterations + 1))).map UInt32.ofNat
    rw [heartbeats_append, hsent, hbeats, List.range_succ, List.map_append, hcounter]
    rfl

/-- Every step of the publisher keeps the invariant, with what it sends. -/
theorem PublisherInv.go (h : PublisherInv P packets) (payload : Nat → UInt8) :
    ∃ sent, PublisherInv (P.go payload) (packets ++ sent) := by
  have hlimit := h.object.limit
  unfold Publisher.go
  split
  case h_1 core_id back hpc =>
    rw [hpc] at hlimit
    refine ⟨[], ?_⟩
    rw [List.append_nil]
    split
    case isTrue hcore => exact h.drain hpc
    case isFalse =>
      cases back with
      | none => exact h.goto (by rw [hpc]; rfl) (fun core => by rw [hpc]; rfl) (Nat.zero_le _)
      | some b => exact h.goto (by rw [hpc]; rfl) (fun core => by rw [hpc]; rfl) hlimit
  case h_2 record overflow core_id back hpc =>
    rw [hpc] at hlimit
    have hcarries := (Report.tick_state record overflow).carries
    have hsend := h.heartbeat.send (c := (Report.tick_state record overflow).call)
      (p := (Report.tick_state record overflow).packet) rfl
    have hobjects := h.object.send (c := (Report.tick_state record overflow).call)
      (p := (Report.tick_state record overflow).packet) nofun
    refine ⟨[(Report.tick_state record overflow).packet], carries_snoc h.carries hcarries,
      hsend.goto ?_, ?_, hobjects.goto ?_⟩
    · show _ = beats (P.iterations + P.pc.past_heartbeat)
      rw [hpc]
      cases back <;> rfl
    · exact h.tick_state.send_taken hpc _
    · cases back <;> exact hlimit
  case h_3 hpc =>
    split
    case isTrue hdue =>
      have hsend := h.tick_state.send (c := (Report.heartbeat P.heartbeat_counter).call)
        (p := (Report.heartbeat P.heartbeat_counter).packet) fun _ => rfl
      have hroster : ∀ core, PublisherPc.roster.taken core = P.pc.taken core := fun core => by
        rw [hpc]
        rfl
      have hgoto := hsend.goto hroster
      have hobjects := h.object.send (c := (Report.heartbeat P.heartbeat_counter).call)
        (p := (Report.heartbeat P.heartbeat_counter).packet) nofun
      refine ⟨[(Report.heartbeat P.heartbeat_counter).packet],
        carries_snoc h.carries (Report.heartbeat P.heartbeat_counter).carries,
        h.heartbeat.beat hpc hdue _, ⟨hgoto.rings, hgoto.cores, hgoto.taken, hgoto.sent⟩,
        ⟨hobjects.count, hobjects.entries, Nat.zero_le _, hobjects.announced⟩⟩
    case isFalse hdue =>
      refine ⟨[], ?_⟩
      rw [List.append_nil]
      refine h.goto ?_ (fun core => by rw [hpc]; rfl) (Nat.zero_le _)
      have hdue' : due 100 P.iterations ≠ true := fun hd => hdue ((h.heartbeat.due_iff 100).mpr hd)
      rw [hpc]
      show beats (P.iterations + 1) = beats P.iterations
      rw [beats_succ, if_neg hdue']
      rfl
  case h_4 hpc =>
    refine ⟨[], ?_⟩
    rw [List.append_nil]
    split
    case isTrue => exact h.goto (by rw [hpc]; rfl) (fun core => by rw [hpc]; rfl) (Nat.le_refl _)
    case isFalse => exact h.goto (by rw [hpc]; rfl) (fun core => by rw [hpc]; rfl) (Nat.zero_le _)
  case h_5 i count hpc =>
    rw [hpc] at hlimit
    split
    case isTrue hi =>
      obtain ⟨p, hp, hcreated, hcarries⟩ := h.object.entries i (Nat.lt_of_lt_of_le hi hlimit)
      have hp_heartbeat : heartbeats [p] = [] := by cases p <;> first | rfl | cases hcreated
      have hp_tick : ∀ core, tick_states core [p] = [] := fun core => by
        cases p <;> first | rfl | cases hcreated
      refine ⟨[p], carries_snoc h.carries (hcarries payload),
        (h.heartbeat.send hp_heartbeat).goto ?_, (h.tick_state.send hp_tick).goto fun core => ?_,
        (h.object.send fun _ => List.mem_of_getElem? hp).goto hlimit⟩
      · show _ = beats (P.iterations + P.pc.past_heartbeat)
        rw [hpc]
        rfl
      · show _ = P.pc.taken core
        rw [hpc]
        rfl
    case isFalse =>
      refine ⟨[], ?_⟩
      rw [List.append_nil]
      exact h.goto (by rw [hpc]; rfl) (fun core => by rw [hpc]; rfl) (Nat.zero_le _)
  case h_6 hpc =>
    refine ⟨[], ?_⟩
    rw [List.append_nil]
    have hcounter := h.heartbeat.counter
    have hsent := h.heartbeat.sent
    have hdrain : ∀ core, (PublisherPc.drain 0 none).taken core = P.pc.taken core := fun core => by
      rw [hpc]
      rfl
    have hgoto := h.tick_state.goto hdrain
    rw [hpc] at hcounter hsent
    refine ⟨h.carries, ⟨?_, hcounter, hsent⟩, ⟨hgoto.rings, hgoto.cores, hgoto.taken, hgoto.sent⟩,
      ⟨h.object.count, h.object.entries, Nat.zero_le _, h.object.announced⟩⟩
    show P.loop_counter + 1 = UInt32.ofNat (P.iterations + 1)
    rw [h.heartbeat.loop, UInt32.ofNat_add]
    rfl

/-- Every step keeps the invariant, with what it sends. -/
theorem PublisherInv.step (h : PublisherInv P packets) (a : PublisherStep) :
    ∃ sent, PublisherInv (P.step a) (packets ++ sent) := by
  cases a with
  | publisher payload => exact h.go payload
  | tick core_id task_id state =>
    refine ⟨[], ?_⟩
    rw [List.append_nil]
    exact h.tick core_id task_id state
  | register args => exact ⟨_, h.register args⟩
  | hook r hr => exact ⟨_, h.hook hr⟩

theorem PublisherInv.run (steps : List PublisherStep) : ∀ {P : Publisher}
    {packets : List TelemetryPacket}, PublisherInv P packets →
      ∃ sent, PublisherInv (P.run steps) (packets ++ sent) := by
  induction steps with
  | nil =>
    intro P packets h
    refine ⟨[], ?_⟩
    rw [List.append_nil]
    exact h
  | cons a steps ih =>
    intro P packets h
    obtain ⟨sent, hstep⟩ := h.step a
    obtain ⟨sent', hrun⟩ := ih hstep
    rw [List.append_assoc] at hrun
    exact ⟨sent ++ sent', hrun⟩

end Publisher

theorem beats_mono {n m : Nat} (h : n ≤ m) : beats n ≤ beats m := by
  induction h with
  | refl => exact Nat.le_refl _
  | step _ ih =>
    rw [beats_succ]
    exact ih.trans (Nat.le_add_right _ _)

/-- A multiple of a period is near, also where the counter wraps. -/
theorem exists_due (period : Nat) (hpos : 0 < period) (hle : period ≤ 2 ^ 32) (m : Nat) :
    ∃ t, m < t ∧ t ≤ m + period ∧ due period t = true := by
  -- the next multiple of the period, or the wrap if this comes first
  let r := (m + 1) % 2 ^ 32
  let q := (r + (period - 1)) / period * period
  have hr : r < 2 ^ 32 := Nat.mod_lt _ (by decide)
  have hq : q ≤ r + (period - 1) := Nat.div_mul_le_self _ _
  have hqr : r ≤ q := by
    have hdiv := Nat.lt_div_mul_add hpos (a := r + (period - 1))
    show r ≤ (r + (period - 1)) / period * period
    omega
  have hdvd : q % period = 0 := Nat.mul_mod_left _ _
  have hm : (m + 1) % 2 ^ 32 = r := rfl
  by_cases hwrap : q < 2 ^ 32
  · refine ⟨m + 1 + (q - r), by omega, by omega, decide_eq_true ?_⟩
    rw [show (m + 1 + (q - r)) % 2 ^ 32 = q by omega, hdvd]
  · refine ⟨m + 1 + (2 ^ 32 - r), by omega, by omega, decide_eq_true ?_⟩
    rw [show (m + 1 + (2 ^ 32 - r)) % 2 ^ 32 = 0 by omega, Nat.zero_mod]

theorem carries_unique {c : FramedCall} {p q : TelemetryPacket} (hp : c.Carries p)
    (hq : c.Carries q) : p = q := by
  obtain ⟨-, htype, hbytes⟩ := hp
  obtain ⟨-, htype', hbytes'⟩ := hq
  have hdecode := p.decode_payload
  rw [← UInt8.toUInt32_inj.mp (htype'.symm.trans htype), ← hbytes, hbytes', q.decode_payload]
    at hdecode
  exact (Option.some.inj hdecode).symm

theorem carries_all_unique {calls : List FramedCall} {packets packets' : List TelemetryPacket}
    (h : List.Forall₂ FramedCall.Carries calls packets)
    (h' : List.Forall₂ FramedCall.Carries calls packets') : packets = packets' := by
  have hunique : Relator.RightUnique FramedCall.Carries := fun _ _ _ => carries_unique
  exact hunique.forall₂ h h'

/-- A call among new ones brings its packet. -/
theorem carries_new {calls : List FramedCall} {packets sent : List TelemetryPacket}
    {c : FramedCall} {p : TelemetryPacket} (hold : List.Forall₂ FramedCall.Carries calls packets)
    (h : List.Forall₂ FramedCall.Carries (calls ++ [c]) (packets ++ sent)) (hc : c.Carries p) :
    p ∈ sent := by
  have hdrop := List.forall₂_drop_append _ _ _ h
  rw [← hold.length_eq, List.drop_left] at hdrop
  cases hdrop with
  | cons hq hnil =>
    cases hnil
    rw [carries_unique hc hq]
    exact List.mem_singleton.mpr rfl

namespace Publisher

/-- Entry `j` is still to come in this rebroadcast, or there will be one. -/
def Before (j : Nat) : PublisherPc → Prop
  | .drain _ (some (i, count)) | .tick_state _ _ _ (some (i, count)) => i < j ∧ j < count
  | .entry i count => i ≤ j ∧ j < count
  | .delay => False
  | _ => True

/-- Object `j` has been stored, and since iteration `m` it has not been announced: no iteration with
a rebroadcast is over. -/
structure Pending (m j : Nat) (p : TelemetryPacket) (P : Publisher) : Prop where
  object : P.objects[j]? = some p
  passed : ∀ t, m < t → t < P.iterations → due 2000 t = false
  now : m < P.iterations → due 2000 P.iterations = true → Before j P.pc

variable {P : Publisher} {packets sent : List TelemetryPacket} {m j : Nat} {p : TelemetryPacket}

theorem Pending.goto (h : Pending m j p P) {pc : PublisherPc}
    (hpc : m < P.iterations → due 2000 P.iterations = true → Before j pc) :
    Pending m j p (P.goto pc) :=
  ⟨h.object, h.passed, hpc⟩

theorem Pending.go (h : Pending m j p P) (hj : j < TELEMETRY_MAX_SYNC_OBJECTS)
    (hinv : PublisherInv P packets) {payload : Nat → UInt8}
    (hinv' : PublisherInv (P.go payload) (packets ++ sent)) :
    p ∈ sent ∨ Pending m j p (P.go payload) := by
  have hnow := h.now
  have hcount : j < P.shared.sync_registry_count.toNat := by
    have hlen := (List.getElem?_eq_some_iff.mp h.object).1
    rw [hinv.object.count]
    exact Nat.lt_min.mpr ⟨hlen, hj⟩
  unfold Publisher.go at hinv' ⊢
  split
  case h_1 core_id back hpc =>
    rw [hpc] at hnow
    right
    split
    case isTrue hcore =>
      unfold drain_round
      split
      case h_1 => exact h.goto fun hm hdue => by cases back <;> exact hnow hm hdue
      case h_2 =>
        exact ⟨h.object, h.passed, fun hm hdue => by cases back <;> exact hnow hm hdue⟩
    case isFalse =>
      cases back with
      | none => exact h.goto fun _ _ => trivial
      | some b => exact h.goto hnow
  case h_2 record overflow core_id back hpc =>
    rw [hpc] at hnow
    right
    exact ⟨h.object, h.passed, fun hm hdue => by cases back <;> exact hnow hm hdue⟩
  case h_3 hpc =>
    right
    split
    · exact ⟨h.object, h.passed, fun _ _ => trivial⟩
    · exact h.goto fun _ _ => trivial
  case h_4 hpc =>
    right
    split
    case isTrue => exact h.goto fun _ _ => ⟨Nat.zero_le _, hcount⟩
    case isFalse hnone =>
      exact h.goto fun _ hdue => hnone ((hinv.heartbeat.due_iff 2000).mpr hdue)
  case h_5 i count hpc =>
    rw [hpc] at hnow hinv'
    dsimp only at hinv'
    split
    case isTrue hi =>
      rw [if_pos hi] at hinv'
      by_cases hij : i = j
      · left
        obtain ⟨q, hq, -, hcarries⟩ := hinv.object.entries j hcount
        rw [h.object] at hq
        obtain rfl := Option.some.inj hq
        subst hij
        exact carries_new hinv.carries hinv'.carries (hcarries payload)
      · right
        refine ⟨h.object, h.passed, fun hm hdue => ?_⟩
        obtain ⟨hle, hlt⟩ := hnow hm hdue
        exact ⟨Nat.lt_of_le_of_ne hle hij, hlt⟩
    case isFalse hi =>
      right
      refine h.goto fun hm hdue => ?_
      obtain ⟨hle, hlt⟩ := hnow hm hdue
      omega
  case h_6 hpc =>
    rw [hpc] at hnow
    right
    refine ⟨h.object, fun t hm ht => ?_, fun _ _ => trivial⟩
    have ht' : t < P.iterations + 1 := ht
    by_cases hlt : t < P.iterations
    · exact h.passed t hm hlt
    · obtain rfl : t = P.iterations := by omega
      exact Bool.eq_false_iff.mpr fun hdue => hnow hm hdue

theorem Pending.step (h : Pending m j p P) (hj : j < TELEMETRY_MAX_SYNC_OBJECTS)
    (hinv : PublisherInv P packets) {a : PublisherStep}
    (hinv' : PublisherInv (P.step a) (packets ++ sent)) :
    p ∈ sent ∨ Pending m j p (P.step a) := by
  cases a with
  | publisher payload => exact h.go hj hinv hinv'
  | tick core_id task_id state => exact .inr ⟨h.object, h.passed, h.now⟩
  | register args =>
    right
    refine ⟨?_, h.passed, h.now⟩
    show (P.objects ++ [_])[j]? = _
    rw [List.getElem?_append_left (List.getElem?_eq_some_iff.mp h.object).1, h.object]
  | hook r hr => exact .inr ⟨h.object, h.passed, h.now⟩

theorem Pending.run (hj : j < TELEMETRY_MAX_SYNC_OBJECTS) (steps : List PublisherStep) :
    ∀ {P : Publisher} {packets : List TelemetryPacket}, Pending m j p P → PublisherInv P packets →
      ∃ sent, PublisherInv (P.run steps) (packets ++ sent) ∧
        (p ∈ sent ∨ Pending m j p (P.run steps)) := by
  induction steps with
  | nil =>
    intro P packets h hinv
    refine ⟨[], ?_, .inr h⟩
    rw [List.append_nil]
    exact hinv
  | cons a steps ih =>
    intro P packets h hinv
    obtain ⟨sent, hinv'⟩ := hinv.step a
    obtain hmem | h' := h.step hj hinv hinv'
    · obtain ⟨sent', hrun⟩ := hinv'.run steps
      rw [List.append_assoc] at hrun
      exact ⟨sent ++ sent', hrun, .inl (List.mem_append_left _ hmem)⟩
    · obtain ⟨sent', hrun, h''⟩ := ih h' hinv'
      rw [List.append_assoc] at hrun
      exact ⟨sent ++ sent', hrun, h''.imp_left (List.mem_append_right _)⟩

end Publisher

/-- A host that begins to listen at any time: after 2000 whole iterations of the publisher it has been
told of every object that was stored when it began, with its name and identifiers, and after 100 it
has got a heartbeat; whatever the other cores do, and also where the counter of the loop wraps. -/
theorem roster_heard (steps more : List PublisherStep) :
    let P := Publisher.boot.run steps
    let Q := P.run more
    ∃ packets sent, read_packets (send_all P.calls).tx = some packets ∧
      read_packets (send_all Q.calls).tx = some (packets ++ sent) ∧
      (P.iterations + 2000 < Q.iterations →
        ∀ j < TELEMETRY_MAX_SYNC_OBJECTS, ∀ p, P.objects[j]? = some p → p ∈ sent) ∧
      (P.iterations + 100 < Q.iterations → ∃ counter, .PKT_HEARTBEAT counter ∈ sent) := by
  intro P Q
  obtain ⟨packets, h⟩ := Publisher.PublisherInv.boot.run steps
  rw [List.nil_append] at h
  obtain ⟨sent, h'⟩ := h.run more
  refine ⟨packets, sent, read_packets_calls h.carries, read_packets_calls h'.carries,
    fun hlong j hj p hp => ?_, fun hlong => ?_⟩
  · have hpending : Publisher.Pending P.iterations j p P :=
      ⟨hp, fun t hm ht => absurd hm (Nat.lt_asymm ht), fun hm => absurd hm (Nat.lt_irrefl _)⟩
    obtain ⟨sent', hinv, hsent | hleft⟩ := hpending.run hj more h
    · rw [List.append_cancel_left (carries_all_unique h'.carries hinv.carries)]
      exact hsent
    · obtain ⟨t, hm, hle, hdue⟩ := exists_due 2000 (by decide) (by decide) P.iterations
      rw [hleft.passed t hm (Nat.lt_of_le_of_lt hle hlong)] at hdue
      cases hdue
  · have hpast : P.pc.past_heartbeat ≤ 1 := by
      unfold PublisherPc.past_heartbeat
      split <;> decide
    obtain ⟨t, hm, hle, hdue⟩ := exists_due 100 (by decide) (by decide) P.iterations
    have hbefore : beats (P.iterations + P.pc.past_heartbeat) ≤ beats t :=
      beats_mono ((Nat.add_le_add_left hpast _).trans hm)
    have hafter : beats (t + 1) ≤ beats (Q.iterations + Q.pc.past_heartbeat) :=
      beats_mono ((Nat.succ_le_of_lt (Nat.lt_of_le_of_lt hle hlong)).trans (Nat.le_add_right _ _))
    have hcount := congrArg List.length h.heartbeat.sent
    have hcount' := congrArg List.length h'.heartbeat.sent
    rw [List.length_map, List.length_range] at hcount hcount'
    rw [heartbeats_append, List.length_append] at hcount'
    rw [beats_succ, if_pos hdue] at hafter
    have hpos : 0 < (heartbeats sent).length := by
      change (heartbeats packets).length = beats (P.iterations + P.pc.past_heartbeat) at hcount
      change _ = beats (Q.iterations + Q.pc.past_heartbeat) at hcount'
      omega
    obtain ⟨counter, hcounter⟩ := List.exists_mem_of_length_pos hpos
    obtain ⟨p, hp, hp'⟩ := List.mem_filterMap.mp hcounter
    cases p with
    | PKT_HEARTBEAT c => exact ⟨c, hp⟩
    | _ => cases hp'

end Rpitos
