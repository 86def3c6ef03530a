import Rpitos.Boot.Emmc
import Rpitos.Kernel.QueueRuns

/-!
# Samples.MessageQueue

`queue_send_task` and `queue_recv_task` of `multicore_full_demo`, over a queue of words that only they
use. The sender numbers its messages, and offers a message again when the queue was full for 200 ms.

`messages_in_order`: the messages sent are 0, 1, 2 and so on, and those received are the same ones.
-/

namespace Rpitos

open Function StatusCode

inductive QueueSendPc where
  | send
  /-- In `queue_send`. -/
  | sending
  | sent
  | next
  | full
  | delay
  /-- In `task_delay_ms`. -/
  | delaying
  deriving DecidableEq, Repr

inductive QueueRecvPc where
  | recv
  /-- In `queue_recv`. -/
  | receiving
  | received
  deriving DecidableEq, Repr

/-- The queue and the two tasks, with what they printed. -/
structure MessageTasks where
  queue : QueueSystem
  send_pc : QueueSendPc
  /-- `msg` of `queue_send_task`. -/
  msg : UInt32
  recv_pc : QueueRecvPc
  /-- `msg` of `queue_recv_task`. -/
  recv_msg : UInt32
  sent : List UInt32
  timed_out : Nat
  received : List UInt32

inductive MessageAction where
  | sender
  | receiver
  /-- A step of the rest of the program. -/
  | other (a : QueueAction)

/-- The bytes of `&msg`. -/
def message_bytes (msg : UInt32) : Memory := buffer_of (word_bytes msg)

/-- `msg`, when these are its bytes. -/
def message_of (item : Memory) : UInt32 := word (item 0) (item 1) (item 2) (item 3)

/-- The tasks that run `queue_send_task` and `queue_recv_task`. -/
structure Correspondents where
  sender : Tcb
  receiver : Tcb

namespace Correspondents

variable (C : Correspondents)

/-- A statement of the task's own. -/
def own (T : MessageTasks) (t : Tcb) (T' : MessageTasks) : Option MessageTasks :=
  if T.queue.system.kernel.runs t = true then some T' else none

def queue_send_task (T : MessageTasks) : Option MessageTasks :=
  match T.send_pc with
  | .send => (T.queue.step (.queue_send C.sender (message_bytes T.msg) 200)).map fun Q =>
    { T with queue := Q, send_pc := .sending }
  | .sending => (T.queue.step (.proceed C.sender)).map fun Q =>
    { T with
      queue := Q
      send_pc := if Q.pc C.sender = .idle then
          if Q.result C.sender = some E_OK then .sent else .full
        else .sending }
  | .sent => own T C.sender { T with sent := T.sent ++ [T.msg], send_pc := .next }
  | .next => own T C.sender { T with msg := T.msg + 1, send_pc := .delay }
  | .full => own T C.sender { T with timed_out := T.timed_out + 1, send_pc := .delay }
  | .delay => (T.queue.step (.kernel (.task_delay_ms C.sender 150))).map fun Q =>
    { T with queue := Q, send_pc := .delaying }
  | .delaying => (T.queue.step (.kernel (.proceed C.sender))).map fun Q =>
    { T with
      queue := Q
      send_pc := if Q.system.call C.sender = .own then .send else .delaying }

/-- The copy of `queue_recv` goes to `msg`. -/
def queue_recv_task (T : MessageTasks) : Option MessageTasks :=
  match T.recv_pc with
  | .recv => (T.queue.step (.queue_recv C.receiver (-1))).map fun Q =>
    { T with queue := Q, recv_pc := .receiving }
  | .receiving => (T.queue.step (.proceed C.receiver)).map fun Q =>
    { T with
      queue := Q
      recv_msg := if T.queue.pc C.receiver = .recv_copy then
          message_of (T.queue.queue.item_at T.queue.memory T.queue.queue.tail)
        else T.recv_msg
      recv_pc := if Q.pc C.receiver = .idle then
          if Q.result C.receiver = some E_OK then .received else .recv
        else .receiving }
  | .received => own T C.receiver { T with received := T.received ++ [T.recv_msg], recv_pc := .recv }

/-- Nobody else uses the queue. -/
def foreign : QueueAction → Prop
  | .kernel a => a.caller ≠ some C.sender ∧ a.caller ≠ some C.receiver
  | .store _ _ => True
  | _ => False

instance (a : QueueAction) : Decidable (C.foreign a) := by
  cases a <;> unfold foreign <;> infer_instance

def step (T : MessageTasks) : MessageAction → Option MessageTasks
  | .sender => C.queue_send_task T
  | .receiver => C.queue_recv_task T
  | .other a =>
    if C.foreign a then (T.queue.step a).map fun Q => { T with queue := Q } else none

end Correspondents

/-- Before the scheduler starts. -/
def MessageTasks.boot (Q : QueueSystem) : MessageTasks where
  queue := Q
  send_pc := .send
  msg := 0
  recv_pc := .recv
  recv_msg := 0
  sent := []
  timed_out := 0
  received := []

/-! ## What a step of the queue does -/

namespace QueueSystem

variable {X Y : QueueSystem} {t : Tcb}

theorem send_call {src : Memory} {timeout_ms : Int}
    (hstep : X.step (.queue_send t src timeout_ms) = some Y) :
    ∃ S r, Y = { X with
      system := S, pc := update X.pc t .send_take, result := r, src := update X.src t src } := by
  unfold step call at hstep
  dsimp only at hstep
  by_cases hpc : X.pc t = .idle
  case neg => rw [if_neg hpc] at hstep; cases hstep
  rw [if_pos hpc] at hstep
  cases hs : X.system.step (.semaphore_take t X.queue.space_available timeout_ms) with
  | none => rw [hs] at hstep; cases hstep
  | some r => rw [hs] at hstep; cases hstep; exact ⟨_, _, rfl⟩

theorem recv_call {timeout_ms : Int} (hstep : X.step (.queue_recv t timeout_ms) = some Y) :
    ∃ S r, Y = { X with system := S, pc := update X.pc t .recv_take, result := r } := by
  unfold step call at hstep
  dsimp only at hstep
  by_cases hpc : X.pc t = .idle
  case neg => rw [if_neg hpc] at hstep; cases hstep
  rw [if_pos hpc] at hstep
  cases hs : X.system.step (.semaphore_take t X.queue.data_available timeout_ms) with
  | none => rw [hs] at hstep; cases hstep
  | some r => rw [hs] at hstep; cases hstep; exact ⟨_, _, rfl⟩

theorem kernel_step {a : Action} (hstep : X.step (.kernel a) = some Y) :
    ∃ S, Y = { X with system := S } := by
  obtain ⟨-, hstep⟩ := Option.ite_none_right_eq_some.mp hstep
  cases hs : X.system.step a with
  | none => rw [hs] at hstep; cases hstep
  | some r => rw [hs] at hstep; cases hstep; exact ⟨_, rfl⟩

/-- The take of a call: it waits, times out, or goes on to the copy. -/
theorem take_cases {copy : QueuePc} (hstep : X.take t copy = some Y) : ∃ S,
    Y = { X with system := S } ∨
    Y = { X with
      system := S, pc := update X.pc t .idle, result := update X.result t (some E_TIMED_OUT) } ∨
    Y = { X with system := S, pc := update X.pc t copy } := by
  unfold take at hstep
  split at hstep
  · split at hstep
    · cases hstep; exact ⟨_, .inr (.inr rfl)⟩
    · cases hstep; exact ⟨_, .inr (.inl rfl)⟩
  · cases hstep; exact ⟨_, .inl rfl⟩
  · cases hstep

end QueueSystem

/-! ## What the two tasks have done -/

/-- Whether the sender's message is in the queue already. -/
def QueueSendPc.placed : QueueSendPc → QueuePc → Nat
  | .sent, _ | .next, _ | .sending, .send_give => 1
  | _, _ => 0

/-- Whether it has printed the message. -/
def QueueSendPc.printed : QueueSendPc → Nat
  | .next => 1
  | _ => 0

/-- Whether the receiver holds a message that it has not printed. -/
def QueueRecvPc.holds : QueueRecvPc → QueuePc → Nat
  | .received, _ | .receiving, .recv_give => 1
  | _, _ => 0

/-- The item of message `i`. -/
def Queue.message (q : Queue) (i : Nat) : Memory := q.item_of (message_bytes (UInt32.ofNat i))

/-- The sender is at message `n`. -/
structure SenderInv (C : Correspondents) (q : Queue) (T : MessageTasks) (n : Nat) : Prop where
  busy : T.send_pc = .sending → T.queue.pc C.sender = .send_take ∨
    T.queue.pc C.sender = .send_copy ∨ T.queue.pc C.sender = .send_give
  src : T.send_pc = .sending → T.queue.src C.sender = message_bytes T.msg
  msg : T.msg = UInt32.ofNat n
  items : T.queue.sent =
    (List.range (n + T.send_pc.placed (T.queue.pc C.sender))).map q.message
  printed : T.sent = (List.range (n + T.send_pc.printed)).map UInt32.ofNat

/-- The receiver has printed `k` messages. -/
structure ReceiverInv (C : Correspondents) (T : MessageTasks) (k : Nat) : Prop where
  busy : T.recv_pc = .receiving → T.queue.pc C.receiver = .recv_take ∨
    T.queue.pc C.receiver = .recv_copy ∨ T.queue.pc C.receiver = .recv_give
  count : T.queue.received.length = k + T.recv_pc.holds (T.queue.pc C.receiver)
  msg : T.recv_pc.holds (T.queue.pc C.receiver) = 1 → T.recv_msg = UInt32.ofNat k
  printed : T.received = (List.range k).map UInt32.ofNat

/-- The items of a step that is not the sender's are as before. -/
theorem SenderInv.frame {C : Correspondents} {q : Queue} {T T' : MessageTasks} {n : Nat}
    (hi : SenderInv C q T n) (hpc : T'.send_pc = T.send_pc)
    (hqpc : T'.queue.pc C.sender = T.queue.pc C.sender)
    (hsrc : T'.queue.src C.sender = T.queue.src C.sender) (hmsg : T'.msg = T.msg)
    (hitems : T'.queue.sent = T.queue.sent) (hsent : T'.sent = T.sent) : SenderInv C q T' n :=
  ⟨by rw [hpc, hqpc]; exact hi.busy, by rw [hpc, hsrc, hmsg]; exact hi.src, by rw [hmsg]; exact hi.msg,
    by rw [hitems, hpc, hqpc]; exact hi.items, by rw [hsent, hpc]; exact hi.printed⟩

theorem ReceiverInv.frame {C : Correspondents} {T T' : MessageTasks} {k : Nat}
    (hi : ReceiverInv C T k) (hpc : T'.recv_pc = T.recv_pc)
    (hqpc : T'.queue.pc C.receiver = T.queue.pc C.receiver) (hmsg : T'.recv_msg = T.recv_msg)
    (hcount : T'.queue.received = T.queue.received) (hreceived : T'.received = T.received) :
    ReceiverInv C T' k :=
  ⟨by rw [hpc, hqpc]; exact hi.busy, by rw [hcount, hpc, hqpc]; exact hi.count,
    by rw [hpc, hqpc, hmsg]; exact hi.msg, by rw [hreceived]; exact hi.printed⟩

/-- The next number. -/
theorem range_succ_map {α : Type} (f : Nat → α) (n : Nat) :
    (List.range (n + 1)).map f = (List.range n).map f ++ [f n] := by
  rw [List.range_succ, List.map_append, List.map_singleton]

namespace SenderInv

variable {C : Correspondents} {q : Queue} {T T' : MessageTasks} {n : Nat}

/-- Inside `queue_send`. -/
theorem proceed {Q : QueueSystem} (hi : SenderInv C q T n) (hpc : T.send_pc = .sending)
    (hitem : ∀ src, T.queue.queue.item_of src = q.item_of src)
    (hstep : T.queue.step (.proceed C.sender) = some Q) :
    SenderInv C q { T with
      queue := Q
      send_pc := if Q.pc C.sender = .idle then
          if Q.result C.sender = some E_OK then .sent else .full
        else .sending } n := by
  obtain ⟨hbusy, hsrc, hmsg, hitems, hprinted⟩ := hi
  have hsrc := hsrc hpc
  obtain ⟨-, hstep⟩ := Option.ite_none_right_eq_some.mp hstep
  unfold QueueSystem.proceed at hstep
  rw [hpc] at hitems hprinted
  rcases hbusy hpc with hq | hq | hq <;> rw [hq] at hstep hitems
  · obtain ⟨S, rfl | rfl | rfl⟩ := QueueSystem.take_cases hstep
    · simp only [hq, reduceCtorEq, if_false]
      exact ⟨fun _ => .inl hq, fun _ => hsrc, hmsg, by simpa [hq] using hitems, hprinted⟩
    · simp only [update_self, if_true, Option.some.injEq, reduceCtorEq, if_false]
      exact ⟨(fun h => by cases h), (fun h => by cases h), hmsg, hitems, hprinted⟩
    · simp only [update_self, reduceCtorEq, if_false]
      exact ⟨fun _ => .inr (.inl (update_self ..)), fun _ => hsrc, hmsg,
        by simpa [QueueSendPc.placed] using hitems, hprinted⟩
  · cases hstep
    simp only [QueueSystem.send, update_self, reduceCtorEq, if_false]
    refine ⟨fun _ => .inr (.inr (update_self ..)), fun _ => hsrc, hmsg, ?_, hprinted⟩
    dsimp only
    rw [update_self, hitem, hsrc, hmsg, hitems]
    exact (range_succ_map q.message n).symm
  · cases hstep
    simp only [QueueSystem.give, update_self, if_true]
    exact ⟨(fun h => by cases h), (fun h => by cases h), hmsg, hitems, hprinted⟩

/-- A step of `queue_send_task`. -/
theorem step (hi : SenderInv C q T n) (hitem : ∀ src, T.queue.queue.item_of src = q.item_of src)
    (hstep : C.queue_send_task T = some T') : ∃ n', SenderInv C q T' n' := by
  unfold Correspondents.queue_send_task Correspondents.own at hstep
  cases hpc : T.send_pc with
  | send =>
    rw [hpc] at hstep
    obtain ⟨Q, hQ, rfl⟩ := Option.map_eq_some_iff.mp hstep
    obtain ⟨S, r, rfl⟩ := QueueSystem.send_call hQ
    have hitems := hi.items
    have hprinted := hi.printed
    rw [hpc] at hitems hprinted
    exact ⟨n, fun _ => .inl (update_self ..), fun _ => update_self .., hi.msg,
      by simpa [QueueSendPc.placed] using hitems, hprinted⟩
  | sending =>
    rw [hpc] at hstep
    obtain ⟨Q, hQ, rfl⟩ := Option.map_eq_some_iff.mp hstep
    exact ⟨n, hi.proceed hpc hitem hQ⟩
  | sent =>
    obtain ⟨-, -, hmsg, hitems, hprinted⟩ := hi
    rw [hpc] at hstep hitems hprinted
    obtain ⟨-, hstep⟩ := Option.ite_none_right_eq_some.mp hstep
    cases hstep
    refine ⟨n, (fun h => by cases h), (fun h => by cases h), hmsg, hitems, ?_⟩
    dsimp only
    rw [hprinted, hmsg]
    exact (range_succ_map _ n).symm
  | next =>
    obtain ⟨-, -, hmsg, hitems, hprinted⟩ := hi
    rw [hpc] at hstep hitems hprinted
    obtain ⟨-, hstep⟩ := Option.ite_none_right_eq_some.mp hstep
    cases hstep
    refine ⟨n + 1, (fun h => by cases h), (fun h => by cases h), ?_, hitems, hprinted⟩
    dsimp only
    rw [hmsg, UInt32.ofNat_add]
    rfl
  | full =>
    obtain ⟨-, -, hmsg, hitems, hprinted⟩ := hi
    rw [hpc] at hstep hitems hprinted
    obtain ⟨-, hstep⟩ := Option.ite_none_right_eq_some.mp hstep
    cases hstep
    exact ⟨n, (fun h => by cases h), (fun h => by cases h), hmsg, hitems, hprinted⟩
  | delay =>
    obtain ⟨-, -, hmsg, hitems, hprinted⟩ := hi
    rw [hpc] at hstep hitems hprinted
    obtain ⟨Q, hQ, rfl⟩ := Option.map_eq_some_iff.mp hstep
    obtain ⟨S, rfl⟩ := QueueSystem.kernel_step hQ
    exact ⟨n, (fun h => by cases h), (fun h => by cases h), hmsg, hitems, hprinted⟩
  | delaying =>
    obtain ⟨-, -, hmsg, hitems, hprinted⟩ := hi
    rw [hpc] at hstep hitems hprinted
    obtain ⟨Q, hQ, rfl⟩ := Option.map_eq_some_iff.mp hstep
    obtain ⟨S, rfl⟩ := QueueSystem.kernel_step hQ
    by_cases hown : S.call C.sender = .own
    · simp only [hown, if_true]
      exact ⟨n, (fun h => by cases h), (fun h => by cases h), hmsg, hitems, hprinted⟩
    · simp only [hown, if_false]
      exact ⟨n, (fun h => by cases h), (fun h => by cases h), hmsg, hitems, hprinted⟩

end SenderInv

namespace ReceiverInv

variable {C : Correspondents} {q : Queue} {T T' : MessageTasks} {k : Nat}

/-- Inside `queue_recv`, when the item at the tail is message `k`. -/
theorem proceed {Q : QueueSystem} (hi : ReceiverInv C T k) (hpc : T.recv_pc = .receiving)
    (hitem : T.queue.pc C.receiver = .recv_copy →
      message_of (T.queue.queue.item_at T.queue.memory T.queue.queue.tail) = UInt32.ofNat k)
    (hstep : T.queue.step (.proceed C.receiver) = some Q) :
    ReceiverInv C { T with
      queue := Q
      recv_msg := if T.queue.pc C.receiver = .recv_copy then
          message_of (T.queue.queue.item_at T.queue.memory T.queue.queue.tail)
        else T.recv_msg
      recv_pc := if Q.pc C.receiver = .idle then
          if Q.result C.receiver = some E_OK then .received else .recv
        else .receiving } k := by
  obtain ⟨hbusy, hcount, hmsg, hprinted⟩ := hi
  obtain ⟨-, hstep⟩ := Option.ite_none_right_eq_some.mp hstep
  unfold QueueSystem.proceed at hstep
  rw [hpc] at hcount hmsg
  rcases hbusy hpc with hq | hq | hq <;> rw [hq] at hstep hcount hmsg
  · obtain ⟨S, rfl | rfl | rfl⟩ := QueueSystem.take_cases hstep
    · simp only [hq, reduceCtorEq, if_false]
      exact ⟨fun _ => .inl hq, by simpa [hq] using hcount, by simp [hq, QueueRecvPc.holds], hprinted⟩
    · simp only [update_self, if_true, Option.some.injEq, reduceCtorEq, if_false]
      exact ⟨(fun h => by cases h), hcount, (fun h => by cases h), hprinted⟩
    · simp only [update_self, reduceCtorEq, if_false]
      exact ⟨fun _ => .inr (.inl (update_self ..)), by simpa [QueueRecvPc.holds] using hcount,
        by simp [QueueRecvPc.holds], hprinted⟩
  · cases hstep
    simp only [QueueSystem.recv, update_self, reduceCtorEq, if_false, hq, if_true]
    refine ⟨fun _ => .inr (.inr (update_self ..)), ?_, fun _ => hitem hq, hprinted⟩
    dsimp only
    rw [update_self, List.length_append, List.length_singleton, hcount]
    rfl
  · cases hstep
    simp only [QueueSystem.give, update_self, if_true, hq, reduceCtorEq, if_false]
    exact ⟨(fun h => by cases h), hcount, hmsg, hprinted⟩

/-- A step of `queue_recv_task`. -/
theorem step (hi : ReceiverInv C T k)
    (hitem : T.recv_pc = .receiving → T.queue.pc C.receiver = .recv_copy →
      message_of (T.queue.queue.item_at T.queue.memory T.queue.queue.tail) = UInt32.ofNat k)
    (hstep : C.queue_recv_task T = some T') : ∃ k', ReceiverInv C T' k' := by
  unfold Correspondents.queue_recv_task Correspondents.own at hstep
  cases hpc : T.recv_pc with
  | recv =>
    obtain ⟨-, hcount, hmsg, hprinted⟩ := hi
    rw [hpc] at hstep hcount
    obtain ⟨Q, hQ, rfl⟩ := Option.map_eq_some_iff.mp hstep
    obtain ⟨S, r, rfl⟩ := QueueSystem.recv_call hQ
    exact ⟨k, fun _ => .inl (update_self ..), by simpa [QueueRecvPc.holds] using hcount,
      by simp [QueueRecvPc.holds], hprinted⟩
  | receiving =>
    rw [hpc] at hstep
    obtain ⟨Q, hQ, rfl⟩ := Option.map_eq_some_iff.mp hstep
    exact ⟨k, hi.proceed hpc (hitem hpc) hQ⟩
  | received =>
    obtain ⟨-, hcount, hmsg, hprinted⟩ := hi
    rw [hpc] at hstep hcount hmsg
    obtain ⟨-, hstep⟩ := Option.ite_none_right_eq_some.mp hstep
    cases hstep
    refine ⟨k + 1, (fun h => by cases h), hcount, (fun h => by cases h), ?_⟩
    dsimp only
    rw [hprinted, hmsg rfl]
    exact (range_succ_map _ k).symm

end ReceiverInv

/-! ## The queue between them -/

/-- A message is read back from its item. -/
theorem message_of_item {q : Queue} (hsize : q.item_size = 4) (i : Nat) :
    message_of (q.message i) = UInt32.ofNat i := by
  unfold message_of Queue.message Queue.item_of message_bytes buffer_of
  rw [hsize]
  exact word_of_bytes _

/-- The queue, and what the two tasks have done with it. -/
structure MessageInv (max_count initial_count : SemaphoreId → Nat) (C : Correspondents) (q : Queue)
    (T : MessageTasks) : Prop where
  queue : ∃ h, QueueInv max_count initial_count q T.queue h
  sender : ∃ n, SenderInv C q T n
  receiver : ∃ k, ReceiverInv C T k

/-- The queue's part of a step. -/
inductive MessageTasks.Moves (T T' : MessageTasks) : Prop
  | own (h : T'.queue = T.queue)
  | queue {a : QueueAction} (h : T.queue.step a = some T'.queue)

namespace MessageInv

variable {max_count initial_count : SemaphoreId → Nat} {C : Correspondents} {q : Queue}
  {T T' : MessageTasks} {n k : Nat}

/-- The sender leaves the receiver alone. -/
theorem sender_frame (hne : C.sender ≠ C.receiver) (hi : SenderInv C q T n)
    (hk : ReceiverInv C T k) (hstep : C.queue_send_task T = some T') :
    ReceiverInv C T' k ∧ T.Moves T' := by
  unfold Correspondents.queue_send_task Correspondents.own at hstep
  cases hpc : T.send_pc <;> rw [hpc] at hstep
  case send =>
    obtain ⟨Q, hQ, rfl⟩ := Option.map_eq_some_iff.mp hstep
    refine ⟨?_, .queue hQ⟩
    obtain ⟨S, r, rfl⟩ := QueueSystem.send_call hQ
    exact hk.frame rfl (update_of_ne (Ne.symm hne) _ _) rfl rfl rfl
  case sending =>
    obtain ⟨Q, hQ, rfl⟩ := Option.map_eq_some_iff.mp hstep
    refine ⟨?_, .queue hQ⟩
    obtain ⟨-, hQ⟩ := Option.ite_none_right_eq_some.mp hQ
    unfold QueueSystem.proceed at hQ
    rcases hi.busy hpc with hq | hq | hq <;> rw [hq] at hQ
    · obtain ⟨S, rfl | rfl | rfl⟩ := QueueSystem.take_cases hQ
      · exact hk.frame rfl rfl rfl rfl rfl
      · exact hk.frame rfl (update_of_ne (Ne.symm hne) _ _) rfl rfl rfl
      · exact hk.frame rfl (update_of_ne (Ne.symm hne) _ _) rfl rfl rfl
    · cases hQ
      exact hk.frame rfl (update_of_ne (Ne.symm hne) _ _) rfl rfl rfl
    · cases hQ
      exact hk.frame rfl (update_of_ne (Ne.symm hne) _ _) rfl rfl rfl
  case delay =>
    obtain ⟨Q, hQ, rfl⟩ := Option.map_eq_some_iff.mp hstep
    refine ⟨?_, .queue hQ⟩
    obtain ⟨S, rfl⟩ := QueueSystem.kernel_step hQ
    exact hk.frame rfl rfl rfl rfl rfl
  case delaying =>
    obtain ⟨Q, hQ, rfl⟩ := Option.map_eq_some_iff.mp hstep
    refine ⟨?_, .queue hQ⟩
    obtain ⟨S, rfl⟩ := QueueSystem.kernel_step hQ
    exact hk.frame rfl rfl rfl rfl rfl
  all_goals
    obtain ⟨-, hstep⟩ := Option.ite_none_right_eq_some.mp hstep
    cases hstep
    exact ⟨hk.frame rfl rfl rfl rfl rfl, .own rfl⟩

/-- The receiver leaves the sender alone. -/
theorem receiver_frame (hne : C.sender ≠ C.receiver) (hi : SenderInv C q T n)
    (hk : ReceiverInv C T k) (hstep : C.queue_recv_task T = some T') :
    SenderInv C q T' n ∧ T.Moves T' := by
  unfold Correspondents.queue_recv_task Correspondents.own at hstep
  cases hpc : T.recv_pc <;> rw [hpc] at hstep
  case recv =>
    obtain ⟨Q, hQ, rfl⟩ := Option.map_eq_some_iff.mp hstep
    refine ⟨?_, .queue hQ⟩
    obtain ⟨S, r, rfl⟩ := QueueSystem.recv_call hQ
    exact hi.frame rfl (update_of_ne hne _ _) rfl rfl rfl rfl
  case receiving =>
    obtain ⟨Q, hQ, rfl⟩ := Option.map_eq_some_iff.mp hstep
    refine ⟨?_, .queue hQ⟩
    obtain ⟨-, hQ⟩ := Option.ite_none_right_eq_some.mp hQ
    unfold QueueSystem.proceed at hQ
    rcases hk.busy hpc with hq | hq | hq <;> rw [hq] at hQ
    · obtain ⟨S, rfl | rfl | rfl⟩ := QueueSystem.take_cases hQ
      · exact hi.frame rfl rfl rfl rfl rfl rfl
      · exact hi.frame rfl (update_of_ne hne _ _) rfl rfl rfl rfl
      · exact hi.frame rfl (update_of_ne hne _ _) rfl rfl rfl rfl
    · cases hQ
      exact hi.frame rfl (update_of_ne hne _ _) rfl rfl rfl rfl
    · cases hQ
      exact hi.frame rfl (update_of_ne hne _ _) rfl rfl rfl rfl
  case received =>
    obtain ⟨-, hstep⟩ := Option.ite_none_right_eq_some.mp hstep
    cases hstep
    exact ⟨hi.frame rfl rfl rfl rfl rfl rfl, .own rfl⟩

/-- The item that the receiver copies is the next message. -/
theorem next_item {h : List Event} (hq : q.Ready max_count initial_count)
    (hsize : q.item_size = 4) (hqueue : QueueInv max_count initial_count q T.queue h)
    (hi : SenderInv C q T n) (hk : ReceiverInv C T k) (hpc : T.recv_pc = .receiving)
    (hqpc : T.queue.pc C.receiver = .recv_copy) :
    message_of (T.queue.queue.item_at T.queue.memory T.queue.queue.tail) = UInt32.ofNat k := by
  obtain ⟨-, -, -, -, m, hm⟩ := hqueue.account.tokens hq.counted
  have hpos := count_at_pos hqpc
  have hlt : T.queue.received.length < T.queue.sent.length := by omega
  have hcount : T.queue.received.length = k := by
    have := hk.count
    rwa [hpc, hqpc] at this
  have hitem : T.queue.queue.item_at T.queue.memory T.queue.queue.tail =
      T.queue.sent[T.queue.received.length] := by
    rw [← hqueue.ring.front hlt, hqueue.queue]
    rfl
  rw [hitem]
  simp only [hi.items, hcount, List.getElem_map, List.getElem_range]
  exact message_of_item hsize k

theorem moves_queue {h : List Event} (hq : q.Ready max_count initial_count)
    (hqueue : QueueInv max_count initial_count q T.queue h) (hm : T.Moves T') :
    ∃ h, QueueInv max_count initial_count q T'.queue h := by
  cases hm with
  | own he => exact ⟨h, he ▸ hqueue⟩
  | queue hstep => exact hqueue.step hq hstep

/-- Each step keeps it. -/
theorem step {a : MessageAction} (hi : MessageInv max_count initial_count C q T)
    (hq : q.Ready max_count initial_count) (hsize : q.item_size = 4) (hne : C.sender ≠ C.receiver)
    (hstep : C.step T a = some T') : MessageInv max_count initial_count C q T' := by
  obtain ⟨⟨h, hqueue⟩, ⟨n, hs⟩, ⟨k, hr⟩⟩ := hi
  cases a with
  | sender =>
    obtain ⟨hr', hm⟩ := sender_frame hne hs hr hstep
    refine ⟨moves_queue hq hqueue hm, hs.step (fun src => ?_) hstep, k, hr'⟩
    rw [hqueue.queue]
    rfl
  | receiver =>
    obtain ⟨hs', hm⟩ := receiver_frame hne hs hr hstep
    exact ⟨moves_queue hq hqueue hm, ⟨n, hs'⟩, hr.step (next_item hq hsize hqueue hs hr) hstep⟩
  | other b =>
    obtain ⟨hf, hstep⟩ := Option.ite_none_right_eq_some.mp hstep
    obtain ⟨Q, hQ, rfl⟩ := Option.map_eq_some_iff.mp hstep
    have hqueue' := hqueue.step hq hQ
    cases b with
    | kernel b =>
      obtain ⟨S, rfl⟩ := QueueSystem.kernel_step hQ
      exact ⟨hqueue', ⟨n, hs.frame rfl rfl rfl rfl rfl rfl⟩, ⟨k, hr.frame rfl rfl rfl rfl rfl⟩⟩
    | store address byte =>
      obtain ⟨-, hQ⟩ := Option.ite_none_left_eq_some.mp hQ
      cases hQ
      exact ⟨hqueue', ⟨n, hs.frame rfl rfl rfl rfl rfl rfl⟩, ⟨k, hr.frame rfl rfl rfl rfl rfl⟩⟩
    | queue_send t src timeout_ms => exact hf.elim
    | queue_recv t timeout_ms => exact hf.elim
    | proceed t => exact hf.elim

end MessageInv

/-! ## Runs -/

/-- What a user of `multicore_full_demo` sees of the messages. -/
structure MessagesSafe (T : MessageTasks) (capacity : Nat) : Prop where
  sent : T.sent = (List.range T.sent.length).map UInt32.ofNat
  /-- Each message once and in order, however often it was offered. -/
  received : T.received = (List.range T.received.length).map UInt32.ofNat
  /-- A message may be received before its sender says that it was sent. -/
  not_before : T.received.length ≤ T.sent.length + 1
  bound : T.sent.length ≤ T.received.length + capacity + 1

/-- In every run, whatever the rest of the system does, the receiver gets what the sender sent. -/
theorem messages_in_order {K K' : Kernel Links} {space data : SemaphoreId} {capacity : Nat}
    {q : Queue} {memory : Memory} {C : Correspondents} {T : MessageTasks}
    (hinit : queue_init K space data capacity 4 = (E_OK, some q, K'))
    (hsem : space ≠ data) (hpos : 1 ≤ capacity) (hcap : capacity < 2 ^ 32)
    (hfit : K.heap_offset + capacity * 4 ≤ HEAP_SIZE_BYTES) (hne : C.sender ≠ C.receiver)
    (hr : Reach C.step anything
      (.boot (QueueSystem.boot K'.max_count K'.count q memory)) T) : MessagesSafe T capacity := by
  obtain ⟨hq, hh, ht⟩ := queue_init_ready hinit hsem hpos hcap hfit
  have hq4 : q.item_size = 4 ∧ q.capacity = capacity := by
    unfold queue_init at hinit
    split at hinit
    · cases hinit
    · cases hinit
      exact ⟨rfl, rfl⟩
  have hi : MessageInv K'.max_count K'.count C q T := by
    refine hr.invariant (P := MessageInv K'.max_count K'.count C q) ?_
      fun T T' a hi _ hstep => hi.step hq hq4.1 hne hstep
    exact ⟨⟨_, QueueInv.boot hh ht⟩,
      ⟨0, (fun h => by cases h), (fun h => by cases h), rfl, rfl, rfl⟩,
      ⟨0, (fun h => by cases h), rfl, (fun h => by cases h), rfl⟩⟩
  obtain ⟨⟨h, hqueue⟩, ⟨n, hs⟩, ⟨k, hk⟩⟩ := hi
  have hsent := congrArg List.length hs.printed
  have hreceived := congrArg List.length hk.printed
  have hitems := congrArg List.length hs.items
  rw [List.length_map, List.length_range] at hsent hreceived hitems
  have hcount := hk.count
  have hle := hqueue.ring.le
  have hroom := hqueue.ring.room
  have hplaced : T.send_pc.printed ≤ T.send_pc.placed (T.queue.pc C.sender) ∧
      T.send_pc.placed (T.queue.pc C.sender) ≤ 1 := by
    cases T.send_pc <;> cases T.queue.pc C.sender <;> decide
  have hholds : T.recv_pc.holds (T.queue.pc C.receiver) ≤ 1 := by
    cases T.recv_pc <;> cases T.queue.pc C.receiver <;> decide
  refine ⟨by rw [hsent]; exact hs.printed, by rw [hreceived]; exact hk.printed, by omega, ?_⟩
  rw [← hq4.2]
  omega

/-- Two cores: the sender's first message goes through, and is printed. -/
def first_message : List MessageAction :=
  [.other (.kernel (.scheduler_init 0)), .other (.kernel (.task_create 0 100 2)),
   .other (.kernel (.scheduler_start 0)), .other (.kernel (.scheduler_init 1)),
   .other (.kernel (.task_create 1 100 2)), .other (.kernel (.scheduler_start 1)),
   .sender, .sender, .sender, .sender, .receiver, .receiver, .receiver, .receiver, .receiver]

def mail_two_cores : Correspondents := ⟨.pool 0 0, .pool 1 0⟩

def mail_queue : Queue := ⟨0, 0, 0, 4, 4, 0, 1⟩

theorem first_message_run : (execute mail_two_cores.step anything
    (.boot (QueueSystem.boot (queue_init queue_kernel 0 1 4 4).2.2.max_count
      (queue_init queue_kernel 0 1 4 4).2.2.count mail_queue (fun _ => 0)))
    first_message).isSome = true := by rfl

theorem messages_in_order_first_message : MessagesSafe ((execute mail_two_cores.step anything
    (.boot (QueueSystem.boot (queue_init queue_kernel 0 1 4 4).2.2.max_count
      (queue_init queue_kernel 0 1 4 4).2.2.count mail_queue (fun _ => 0)))
    first_message).get first_message_run) 4 :=
  messages_in_order (C := mail_two_cores) (show queue_init queue_kernel 0 1 4 4 =
      (E_OK, some mail_queue, (queue_init queue_kernel 0 1 4 4).2.2) from rfl) (by decide)
    (by decide) (by decide) (by decide) (by decide)
    (Reach.of_exec first_message .start (Option.some_get first_message_run).symm)

end Rpitos
