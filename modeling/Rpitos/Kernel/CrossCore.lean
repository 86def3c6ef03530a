import Rpitos.Lib.Reach
import Rpitos.Kernel.SystemSim

/-!
# Kernel.CrossCore

Several cores, where a step is one region under one lock. `semaphore_give` and `mutex_unlock` take a
waiter off the wait list under the lock of the object, and make it ready later, under the scheduler
lock of the waiter's core: between the two the waiter is in flight, and a tick of its core can
expire it.

A tick that expires a task in flight breaks the lists (`cross_core_expiry`). As long as no tick
does, they stay well formed (`cross_core_lists`).
-/

namespace Rpitos

open Function ListOps StatusCode

/-- What a core is in the middle of: nothing, or a wake-up, with the task it has unlinked. -/
inductive Waker where
  | none
  /-- In `semaphore_give`: the waiter is off the wait list. -/
  | semaphore_give (smph : SemaphoreId) (p_next_tcb : Tcb)
  /-- In `mutex_unlock`: the next owner is off the wait list. -/
  | mutex_unlock (mtx : MutexId) (next_owner : Tcb)
  /-- In `mutex_unlock`: the priority of the holder is restored too. -/
  | mutex_transfer (mtx : MutexId) (next_owner : Tcb)
  deriving DecidableEq, Repr

/-- What an object lock protects. -/
inductive Lock where
  | mutex (mtx : MutexId)
  | semaphore (smph : SemaphoreId)
  deriving DecidableEq, Repr

/-- The object lock the core holds. -/
def Waker.lock : Waker → Option Lock
  | .none => Option.none
  | .semaphore_give smph _ => some (.semaphore smph)
  | .mutex_unlock mtx _ => some (.mutex mtx)
  | .mutex_transfer mtx _ => some (.mutex mtx)

/-- The task in flight. -/
def Waker.target : Waker → Option Tcb
  | .none => Option.none
  | .semaphore_give _ t => some t
  | .mutex_unlock _ t => some t
  | .mutex_transfer _ t => some t

/-- How the task is in flight. -/
def Waker.flight : Waker → Flight
  | .none => .no
  | .semaphore_give _ _ => .popped
  | .mutex_unlock _ _ => .unlinked
  | .mutex_transfer _ _ => .unlinked

/-- The kernel, and the wake-ups in progress. A core in a wake-up has its interrupts masked. -/
structure Cross where
  system : System Links
  waker : CoreId → Waker

inductive CrossAction where
  /-- A step of `System` that takes no waiter off a wait list. -/
  | section (a : Action)
  /-- `semaphore_give` on a core, up to the release of the waiter. -/
  | semaphore_give (core : CoreId) (smph : SemaphoreId)
  /-- `mutex_unlock` by a task, up to the restoration of its priority. -/
  | mutex_unlock (tcb : Tcb) (mtx : MutexId)
  /-- The next region of the wake-up the core is in the middle of. -/
  | proceed (core : CoreId)
  deriving DecidableEq, Repr

/-- The object lock the step takes. -/
def System.lock_needed {L : Type} (S : System L) : Action → Option Lock
  | .mutex_set_inheritance mtx _ => some (.mutex mtx)
  | .mutex_lock _ mtx _ => some (.mutex mtx)
  | .mutex_unlock _ mtx => some (.mutex mtx)
  | .semaphore_give smph => some (.semaphore smph)
  | .proceed t =>
    match S.call t with
    | .mutex_lock mtx _ => some (.mutex mtx)
    | .semaphore_take smph _ _ => some (.semaphore smph)
    | .semaphore_wait smph _ _ => some (.semaphore smph)
    | _ => none
  | _ => none

/-- Whether the step takes a waiter off a wait list: then it is not one region. A tick of core 0
makes the gives of `software_timer_tick` as gives of that core. -/
def Action.wakes : Action → Bool
  | .tick _ timer_gives => !timer_gives.isEmpty
  | .mutex_unlock _ _ => true
  | .semaphore_give _ => true
  | _ => false

namespace Cross

/-- No core is in a wake-up with this lock. -/
def unlocked (X : Cross) (o : Option Lock) : Prop := ∀ c, o ≠ none → (X.waker c).lock ≠ o

/-- The core is not in a wake-up. -/
def unmasked (X : Cross) (o : Option CoreId) : Prop := ∀ c, o = some c → X.waker c = .none

instance (X : Cross) (o : Option Lock) : Decidable (X.unlocked o) :=
  inferInstanceAs (Decidable (∀ _, _))

instance (X : Cross) (o : Option CoreId) : Decidable (X.unmasked o) :=
  inferInstanceAs (Decidable (∀ _, _))

def set (X : Cross) (K : Kernel Links) (c : CoreId) (w : Waker) : Cross :=
  ⟨X.system.withKernel K, update X.waker c w⟩

/-- The next region of the wake-up on core `c`. -/
def proceed (X : Cross) (c : CoreId) : Option Cross :=
  match X.waker c with
  | .none => none
  | .semaphore_give _ t => some (X.set (semaphore_wake X.system.kernel t) c .none)
  | .mutex_unlock mtx t =>
    -- the mutex's lock has kept the owner: it is the holder `mutex_unlock` read first
    some (X.set (mutex_restore_holder X.system.kernel mtx (X.system.kernel.mutex_owner mtx)) c
      (.mutex_transfer mtx t))
  | .mutex_transfer mtx t => some (X.set (mutex_transfer X.system.kernel mtx t) c .none)

/-- One region, `none` where it is not possible. -/
def step (X : Cross) : CrossAction → Option Cross
  | .section a =>
    if a.wakes = false ∧ X.unmasked a.core ∧ X.unlocked (X.system.lock_needed a) then
      match X.system.step a with
      | some r => some { X with system := r.2 }
      | none => none
    else none
  | .semaphore_give c smph =>
    if X.waker c = .none ∧ X.unlocked (some (.semaphore smph)) then
      if 0 < num_items X.system.kernel.lists (ListRef.semaphore_blocked_list smph) then
        match semaphore_pop_waiter X.system.kernel smph with
        | (some t, K) => some (X.set K c (.semaphore_give smph t))
        | (none, _) => none
      else some { X with system := X.system.withKernel (semaphore_count_up X.system.kernel smph).2 }
    else none
  | .mutex_unlock t mtx =>
    if (X.system.free t ∧ X.system.kernel.mutex_owner mtx = some t) ∧ X.waker t.home = .none ∧
        X.unlocked (some (.mutex mtx)) then
      if X.system.kernel.mutex_state mtx = .LOCKED ∧
          num_items X.system.kernel.lists (ListRef.mutex_blocked_list mtx) ≠ 0 then
        match mutex_pop_best X.system.kernel mtx with
        | (some w, K) => some (X.set K t.home (.mutex_unlock mtx w))
        | (none, _) => none
      else some { X with system := X.system.withKernel (Rpitos.mutex_unlock X.system.kernel mtx).2 }
    else none
  | .proceed c => X.proceed c

/-- The kernel at boot, with no wake-up in progress. -/
def boot (max_count initial_count : SemaphoreId → Nat) : Cross :=
  ⟨Rpitos.boot max_count initial_count, fun _ => .none⟩

end Cross

/-- Every list is a list: no cycle, no task twice, and the counter is the number of its tasks. -/
def ListsSound (K : Kernel Links) : Prop :=
  ∀ l, ∃ xs, K.lists.IsList l xs ∧ K.lists.num_items l = xs.length

/-- No tick expires a task in flight: whatever wait of such a task ends at a time, ends after
the tick. -/
def noExpiryInFlight (X : Cross) : CrossAction → Prop
  | .section (.tick c _) => ∀ d, ∀ t ∈ (X.waker d).target, t.home = c →
    (X.system.call t).timed = true →
      u64 (X.system.kernel.tick_count c + 1) < X.system.kernel.wakeup_time t
  | _ => True

instance (X : Cross) (a : CrossAction) : Decidable (noExpiryInFlight X a) := by
  unfold noExpiryInFlight; split <;> infer_instance

/-! ## The invariant -/

/-- The flights of the kernel's invariant are those of the wake-ups in progress. -/
structure CrossInv (X : Cross) (A : System Sequences) (fl : Tcb → Flight) : Prop where
  sim : SSim X.system A fl
  flying : ∀ c t, (X.waker c).target = some t → fl t = (X.waker c).flight
  one : ∀ c d t, (X.waker c).target = some t → (X.waker d).target = some t → c = d
  owned : ∀ t, fl t ≠ .no → ∃ c, (X.waker c).target = some t

namespace CrossInv

variable {X X' : Cross} {A : System Sequences} {fl : Tcb → Flight} {c : CoreId} {t : Tcb}

theorem boot (max_count initial_count : SemaphoreId → Nat) :
    CrossInv (Cross.boot max_count initial_count) (bootSeqs max_count initial_count) grounded :=
  ⟨SSim.boot _ _, (fun c t h => by cases h), (fun c d t h => by cases h),
    fun t h => absurd rfl h⟩

/-- No core is in a `semaphore_take`: the tasks in flight are blocked. -/
theorem no_entered (hi : CrossInv X A fl) (t : Tcb) : (fl t).entered = none := by
  by_cases hf : fl t = .no
  · rw [hf]; rfl
  · obtain ⟨c, hc⟩ := hi.owned t hf
    rw [hi.flying c t hc]
    cases X.waker c <;> rfl

theorem not_left (hi : CrossInv X A fl) (t : Tcb) : (fl t).left = none :=
  Flight.left_of_entered (hi.no_entered t)

theorem entered_ne (hi : CrossInv X A fl) (l : ListRef) (u : Tcb) : (fl u).entered ≠ some l := by
  rw [hi.no_entered u]; exact Option.some_ne_none l ∘ Eq.symm

theorem flight_ne {w : Waker} (h : w.target = some t) : w.flight ≠ .no := by
  cases w <;> simp_all [Waker.flight, Waker.target]

theorem apart (hi : CrossInv X A fl) (a : Action) : Apart X.system fl a :=
  ⟨fun t h => absurd (hi.no_entered t) h, fun u _ _ => hi.entered_ne _ u,
    fun t h => absurd (hi.not_left t) h, fun t h => absurd (hi.not_left t) h⟩

/-- A wake-up begins. -/
theorem begins {K : Kernel Links} {KA : Kernel Sequences} {w : Waker} (hi : CrossInv X A fl)
    (hc : X.waker c = .none) (hw : w.target = some t) (ht : fl t = .no)
    (hK : Sim K KA X.system.call (update fl t w.flight)) :
    CrossInv (X.set K c w) (A.withKernel KA) (update fl t w.flight) := by
  have hother : ∀ d u, d ≠ c → (X.waker d).target = some u → u ≠ t := by
    rintro d u - hu rfl
    exact flight_ne hu ((hi.flying d u hu).symm.trans ht)
  refine ⟨⟨hi.sim.call, hK⟩, fun d u hu => ?_, fun d e u hu hv => ?_, fun u hu => ?_⟩
  · by_cases hd : d = c
    · subst hd
      simp only [Cross.set, update_self] at hu ⊢
      rw [hw] at hu; cases hu; simp
    · simp only [Cross.set, update_of_ne hd] at hu ⊢
      rw [update_of_ne (hother d u hd hu)]
      exact hi.flying d u hu
  · by_cases hd : d = c
    · by_cases he : e = c
      · rw [hd, he]
      · subst hd
        simp only [Cross.set, update_self, update_of_ne he] at hu hv
        rw [hw] at hu; cases hu
        exact absurd rfl (hother e t he hv)
    · by_cases he : e = c
      · subst he
        simp only [Cross.set, update_self, update_of_ne hd] at hu hv
        rw [hw] at hv; cases hv
        exact absurd rfl (hother d t hd hu)
      · simp only [Cross.set, update_of_ne hd, update_of_ne he] at hu hv
        exact hi.one d e u hu hv
  · by_cases hut : u = t
    · subst hut; exact ⟨c, by simp [Cross.set, hw]⟩
    · obtain ⟨d, hd⟩ := hi.owned u (by simpa [hut] using hu)
      refine ⟨d, ?_⟩
      have hdc : d ≠ c := by rintro rfl; rw [hc] at hd; cases hd
      simpa [Cross.set, hdc] using hd

/-- A wake-up goes on, with its task still in flight. -/
theorem goes_on {K : Kernel Links} {KA : Kernel Sequences} {w : Waker} (hi : CrossInv X A fl)
    (hw : w.target = (X.waker c).target) (hf : w.flight = (X.waker c).flight)
    (hK : Sim K KA X.system.call fl) : CrossInv (X.set K c w) (A.withKernel KA) fl := by
  have htarget : ∀ d, ((X.set K c w).waker d).target = (X.waker d).target := fun d => by
    by_cases hd : d = c
    · subst hd; simp [Cross.set, hw]
    · simp [Cross.set, hd]
  refine ⟨⟨hi.sim.call, hK⟩, fun d u hu => ?_, fun d e u hu hv => ?_, fun u hu => ?_⟩
  · rw [htarget] at hu
    rw [hi.flying d u hu]
    by_cases hd : d = c
    · subst hd; simp [Cross.set, hf]
    · simp [Cross.set, hd]
  · rw [htarget] at hu hv; exact hi.one d e u hu hv
  · obtain ⟨d, hd⟩ := hi.owned u hu
    exact ⟨d, by rw [htarget]; exact hd⟩

/-- A wake-up ends: its task is ready. -/
theorem ends {K : Kernel Links} {KA : Kernel Sequences} (hi : CrossInv X A fl)
    (ht : (X.waker c).target = some t) (hK : Sim K KA X.system.call (update fl t .no)) :
    CrossInv (X.set K c .none) (A.withKernel KA) (update fl t .no) := by
  have hsub : ∀ d u, ((X.set K c .none).waker d).target = some u →
      d ≠ c ∧ (X.waker d).target = some u := by
    intro d u hu
    by_cases hd : d = c
    · subst hd; simp [Cross.set, Waker.target] at hu
    · exact ⟨hd, by simpa [Cross.set, hd] using hu⟩
  refine ⟨⟨hi.sim.call, hK⟩, fun d u hu => ?_, fun d e u hu hv => ?_, fun u hu => ?_⟩
  · obtain ⟨hd, hu⟩ := hsub d u hu
    have hut : u ≠ t := by rintro rfl; exact hd (hi.one d c u hu ht)
    rw [update_of_ne hut, hi.flying d u hu]
    simp [Cross.set, hd]
  · exact hi.one d e u (hsub d u hu).2 (hsub e u hv).2
  · have hut : u ≠ t := by rintro rfl; simp at hu
    obtain ⟨d, hd⟩ := hi.owned u (by simpa [hut] using hu)
    have hdc : d ≠ c := by
      rintro rfl
      rw [ht] at hd; exact hut (Option.some.inj hd).symm
    exact ⟨d, by simpa [Cross.set, hdc] using hd⟩

/-- A section of the kernel, with any tasks in flight. -/
theorem section_step {a : Action} {es : List Event} {S' : System Links} (hi : CrossInv X A fl)
    (ha : TickOk X.system fl a) (hstep : X.system.step a = some (es, S')) :
    ∃ A', CrossInv { X with system := S' } A' fl := by
  have hs := hi.sim.step a ha (hi.apart a)
  rw [hstep] at hs
  cases hA : A.step a with
  | none => rw [hA] at hs; exact hs.elim
  | some r =>
    rw [hA] at hs
    exact ⟨r.2, hs.2, hi.flying, hi.one, hi.owned⟩

/-- Each allowed step keeps the invariant. -/
theorem step {a : CrossAction} (hi : CrossInv X A fl) (ha : noExpiryInFlight X a)
    (hstep : X.step a = some X') : ∃ A' fl', CrossInv X' A' fl' := by
  have hK := hi.sim.kernel
  unfold Cross.step at hstep
  cases a with
  | «section» a =>
    obtain ⟨-, hstep⟩ := Option.ite_none_right_eq_some.mp hstep
    cases hs : X.system.step a with
    | none => rw [hs] at hstep; cases hstep
    | some r =>
      rw [hs] at hstep; cases hstep
      have hok : TickOk X.system fl a := by
        cases a with
        | tick c timer_gives =>
          intro t ht hh
          obtain ⟨d, hd⟩ := hi.owned t ht
          exact ⟨hi.not_left t, ha d t hd hh⟩
        | _ => trivial
      obtain ⟨A', h⟩ := hi.section_step hok hs
      exact ⟨A', fl, h⟩
  | semaphore_give c smph =>
    obtain ⟨⟨hc, -⟩, hstep⟩ := Option.ite_none_right_eq_some.mp hstep
    by_cases hn : 0 < num_items X.system.kernel.lists (ListRef.semaphore_blocked_list smph)
    · rw [if_pos hn] at hstep
      rw [hK.num_items_eq, hK.num_items_pos] at hn
      obtain ⟨t, xs, h1, -, hlist, hsim⟩ := hK.pop_waiter (hi.entered_ne _) hn
      have hf : fl t = .no :=
        (hK.wait_mem rfl (hi.entered_ne _) (x := .event_list_item t) (by rw [hlist]; simp)).2.2.2.1
      rw [show semaphore_pop_waiter X.system.kernel smph =
        (some t, (semaphore_pop_waiter X.system.kernel smph).2) from Prod.ext h1 rfl] at hstep
      cases hstep
      exact ⟨_, _, hi.begins hc (w := .semaphore_give smph t) rfl hf hsim⟩
    · rw [if_neg hn] at hstep
      cases hstep
      have hsim := (hK.semaphore_give smph (hi.entered_ne _)).2.2
      have hn' : ¬ 0 < num_items A.kernel.lists (ListRef.semaphore_blocked_list smph) := by
        rwa [← hK.num_items_eq]
      unfold semaphore_give at hsim
      rw [if_neg hn, if_neg hn'] at hsim
      exact ⟨A.withKernel (semaphore_count_up A.kernel smph).2, fl, ⟨hi.sim.call, hsim⟩,
        hi.flying, hi.one, hi.owned⟩
  | mutex_unlock t mtx =>
    obtain ⟨⟨-, hc, -⟩, hstep⟩ := Option.ite_none_right_eq_some.mp hstep
    by_cases hn : X.system.kernel.mutex_state mtx = .LOCKED ∧
        num_items X.system.kernel.lists (ListRef.mutex_blocked_list mtx) ≠ 0
    · rw [if_pos hn] at hstep
      have hne : A.kernel.lists.list (.mutex_blocked_list mtx) ≠ [] := by
        have := hn.2
        rwa [hK.num_items_eq, Ne, hK.num_items_zero] at this
      obtain ⟨w, h1, -, hm, hsim⟩ := hK.pop_best hne
      have hf : fl w = .no := (hK.wait_mem rfl (hi.entered_ne _) hm).2.2.2.1
      rw [show mutex_pop_best X.system.kernel mtx =
        (some w, (mutex_pop_best X.system.kernel mtx).2) from Prod.ext h1 rfl] at hstep
      cases hstep
      exact ⟨_, _, hi.begins hc (w := .mutex_unlock mtx w) rfl hf hsim⟩
    · rw [if_neg hn] at hstep
      cases hstep
      exact ⟨A.withKernel (Rpitos.mutex_unlock A.kernel mtx).2, fl,
        ⟨hi.sim.call, (hK.mutex_unlock mtx fun o _ => hi.not_left o).2⟩, hi.flying, hi.one, hi.owned⟩
  | proceed c =>
    have hstep : X.proceed c = some X' := hstep
    unfold Cross.proceed at hstep
    cases hw : X.waker c with
    | none => rw [hw] at hstep; cases hstep
    | semaphore_give smph t =>
      rw [hw] at hstep; cases hstep
      have ht : (X.waker c).target = some t := by rw [hw]; rfl
      have hf : fl t = .popped := by rw [hi.flying c t ht, hw]; rfl
      exact ⟨_, _, hi.ends ht (hK.semaphore_wake hf)⟩
    | mutex_unlock mtx t =>
      rw [hw] at hstep; cases hstep
      exact ⟨_, _, hi.goes_on (by rw [hw]; rfl) (by rw [hw]; rfl)
        (hK.restore_holder mtx (X.system.kernel.mutex_owner mtx)
          (fun u hu => hK.owners mtx u hu) (fun u _ => hi.not_left u))⟩
    | mutex_transfer mtx t =>
      rw [hw] at hstep; cases hstep
      have ht : (X.waker c).target = some t := by rw [hw]; rfl
      have hf : fl t = .unlinked := by rw [hi.flying c t ht, hw]; rfl
      exact ⟨_, _, hi.ends ht (hK.transfer mtx hf)⟩

theorem sound (hi : CrossInv X A fl) : ListsSound X.system.kernel := fun l =>
  ⟨_, hi.sim.kernel.linked.refines.rep l, hi.sim.kernel.linked.num_items_eq l⟩

end CrossInv

/-! ## Runs -/

/-- As long as no tick expires a task in flight, every list stays a list. -/
theorem cross_core_lists {max_count initial_count : SemaphoreId → Nat} {X : Cross}
    (hr : Reach Cross.step noExpiryInFlight (Cross.boot max_count initial_count) X) :
    ListsSound X.system.kernel := by
  have hi : ∃ A fl, CrossInv X A fl := by
    refine hr.invariant (P := fun X => ∃ A fl, CrossInv X A fl)
      ⟨_, _, CrossInv.boot max_count initial_count⟩ ?_
    rintro X X' a ⟨A, fl, hi⟩ ha hstep
    exact hi.step ha hstep
  obtain ⟨A, fl, hi⟩ := hi
  exact hi.sound

/-- A task of core 1 waits for a semaphore with a time-out, and core 0 gives. -/
def wait_and_give : List CrossAction :=
  [.section (.scheduler_init 0), .section (.scheduler_init 1),
   .section (.task_create 1 100 2), .section (.scheduler_start 1),
   .section (.semaphore_take (.pool 1 0) 0 2), .section (.proceed (.pool 1 0)),
   .section (.tick 1 []), .semaphore_give 0 0, .proceed 0, .section (.tick 1 [])]

theorem wait_and_give_run : (execute Cross.step noExpiryInFlight
    (Cross.boot (fun _ => 1) (fun _ => 0)) wait_and_give).isSome = true := by rfl

theorem cross_core_lists_wait_and_give : ListsSound ((execute Cross.step noExpiryInFlight
    (Cross.boot (fun _ => 1) (fun _ => 0)) wait_and_give).get wait_and_give_run).system.kernel :=
  cross_core_lists (Reach.of_exec wait_and_give .start (Option.some_get wait_and_give_run).symm)

/-- The same, but the wait ends while core 0 is in `semaphore_give`. -/
def expire_in_flight : List CrossAction :=
  [.section (.scheduler_init 0), .section (.scheduler_init 1),
   .section (.task_create 1 100 2), .section (.scheduler_start 1),
   .section (.semaphore_take (.pool 1 0) 0 1), .section (.proceed (.pool 1 0)),
   .semaphore_give 0 0, .section (.tick 1 [])]

theorem expire_in_flight_run : (execute Cross.step anything
    (Cross.boot (fun _ => 1) (fun _ => 0)) expire_in_flight).isSome = true := by rfl

/-- The tick takes the task off the wait list a second time: the counter wraps. -/
theorem cross_core_expiry : ¬ ∀ X, Reach Cross.step anything
    (Cross.boot (fun _ => 1) (fun _ => 0)) X → ListsSound X.system.kernel := by
  intro h
  obtain ⟨xs, hl, hn⟩ := h _ (Reach.of_exec expire_in_flight .start
    (Option.some_get expire_in_flight_run).symm) (.semaphore_blocked_list 0)
  have hhead : ((execute Cross.step anything (Cross.boot (fun _ => 1) (fun _ => 0))
      expire_in_flight).get expire_in_flight_run).system.kernel.lists.head
        (.semaphore_blocked_list 0) = none := by rfl
  have hnum : ((execute Cross.step anything (Cross.boot (fun _ => 1) (fun _ => 0))
      expire_in_flight).get expire_in_flight_run).system.kernel.lists.num_items
        (.semaphore_blocked_list 0) = 65535 := by rfl
  rw [hl.head_eq] at hhead
  cases xs with
  | nil => rw [hnum] at hn; cases hn
  | cons x xs => cases hhead

end Rpitos
