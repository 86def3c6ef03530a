import Rpitos.Kernel.SoftwareTimer
import Mathlib.Data.Fin.VecNotation
import Mathlib.Data.Fintype.Card

/-!
# Kernel.TimerTick

What one `software_timer_tick` does, on any sorted blocked list and any active list apart from it.
The loop takes the head as long as it is due; on a sorted list these are all the due timers.
`tick_expires_due`: the loop ends, and it moves these and no others.
-/

namespace Rpitos

open Function TimerListId

namespace Timers

variable {n : Nat} {X Y : Timers n} {bs as : List (Fin n)} {t : Fin n} {now_tick : Nat}

namespace Lists

theorem length_blocked (h : X.Lists bs as) : bs.length < n + 1 := by
  have := h.blocked.nodup.length_le_card
  rw [Fintype.card_fin] at this
  omega

theorem length_active (h : X.Lists bs as) : as.length < n + 1 := by
  have := h.active.nodup.length_le_card
  rw [Fintype.card_fin] at this
  omega

theorem disjoint (h : X.Lists bs as) (hb : t ∈ bs) : t ∉ as := fun ha =>
  (List.nodup_append.mp h.nodup).2.2 t hb t ha rfl

/-- Fields of timers that are in no list, and the service task, do not matter to the lists. -/
theorem congr (h : X.Lists bs as) (hbh : Y.blocked_list_head = X.blocked_list_head)
    (hah : Y.active_list_head = X.active_list_head)
    (hnext : ∀ a, a ∈ bs ∨ a ∈ as → Y.next a = X.next a)
    (hexp : ∀ a ∈ bs, Y.expiry_tick a = X.expiry_tick a) : Y.Lists bs as := by
  refine ⟨?_, ?_, h.nodup, h.sorted.imp_of_mem fun ha hb hle => ?_⟩
  · rw [hbh]; exact h.blocked.congr fun a ha => hnext a (.inl ha)
  · rw [hah]; exact h.active.congr fun a ha => hnext a (.inr ha)
  · rw [hexp _ ha, hexp _ hb]; exact hle

end Lists

/-! ## One round -/

/-- The state after `software_timer_pop_to_active` has moved the head. -/
def popped (X : Timers n) (t : Fin n) : Timers n := { X with
  next := update X.next t X.active_list_head
  blocked_list_head := X.next t
  active_list_head := some t
  list_id := update X.list_id t TIMER_LIST_ACTIVE }

theorem pop_to_active_head (h : X.blocked_list_head = some t) :
    software_timer_pop_to_active X t = some (X.popped t) := by
  unfold software_timer_pop_to_active software_timer_unlink_blocked unlinkNode
  rw [if_pos h]
  dsimp only
  rw [update_idem]
  rfl

theorem Lists.popped (h : X.Lists (t :: bs) as) : (X.popped t).Lists bs (t :: as) := by
  obtain ⟨htb, -⟩ := List.nodup_cons.mp h.blocked.nodup
  have hta := h.disjoint (List.mem_cons_self ..)
  refine ⟨?_, ⟨rfl, ?_⟩, ?_, h.sorted.of_cons⟩
  · exact h.blocked.2.congr fun a ha => update_of_ne (ne_of_mem_of_not_mem ha htb) ..
  · dsimp only [Timers.popped]
    rw [update_self]
    exact h.active.congr fun a ha => update_of_ne (ne_of_mem_of_not_mem ha hta) ..
  · exact List.perm_middle.nodup_iff.mpr h.nodup

/-! ## Giving units -/

/-- `k` calls of `semaphore_give`, one after the other. -/
def gives (X : Timers n) (k : Nat) : Timers n := software_timer_give^[k] X

/-- A give changes the counter and the service task only. -/
theorem give_eq (X : Timers n) : software_timer_give X =
    { X with count := (software_timer_give X).count, service := (software_timer_give X).service } := by
  unfold software_timer_give
  split
  · rfl
  · split <;> rfl

theorem give_congr (hcount : Y.count = X.count) (hservice : Y.service = X.service) :
    (software_timer_give Y).count = (software_timer_give X).count ∧
      (software_timer_give Y).service = (software_timer_give X).service := by
  unfold software_timer_give
  rw [hcount, hservice]
  split
  · exact ⟨rfl, rfl⟩
  · split
    · exact ⟨rfl, rfl⟩
    · exact ⟨hcount, hservice⟩

theorem gives_succ (X : Timers n) (k : Nat) : X.gives (k + 1) = (software_timer_give X).gives k :=
  rfl

theorem gives_congr (k : Nat) : ∀ {X Y : Timers n}, Y.count = X.count → Y.service = X.service →
    (Y.gives k).count = (X.gives k).count ∧ (Y.gives k).service = (X.gives k).service := by
  induction k with
  | zero => exact fun hcount hservice => ⟨hcount, hservice⟩
  | succ k ih =>
    intro X Y hcount hservice
    obtain ⟨h1, h2⟩ := give_congr hcount hservice
    rw [gives_succ, gives_succ]
    exact ih h1 h2

/-! ## The loop -/

/-- The timers of `bs` that are due at `now_tick`. -/
def due (X : Timers n) (now_tick : Nat) (bs : List (Fin n)) : List (Fin n) :=
  bs.filter fun t => X.expiry_tick t ≤ now_tick

/-- The timers of `bs` that are not. -/
def pending (X : Timers n) (now_tick : Nat) (bs : List (Fin n)) : List (Fin n) :=
  bs.filter fun t => now_tick < X.expiry_tick t

theorem mem_due : t ∈ X.due now_tick bs ↔ t ∈ bs ∧ X.expiry_tick t ≤ now_tick := by
  simp [due]

/-- Nothing of a sorted list is due when its head is not. -/
theorem due_of_head (hsorted : (t :: bs).Pairwise fun a b => X.expiry_tick a ≤ X.expiry_tick b)
    (ht : ¬ X.expiry_tick t ≤ now_tick) :
    X.due now_tick (t :: bs) = [] ∧ X.pending now_tick (t :: bs) = t :: bs := by
  have hall : ∀ u ∈ t :: bs, ¬ X.expiry_tick u ≤ now_tick := by
    intro u hu
    rcases List.mem_cons.mp hu with rfl | hu
    · exact ht
    · have := (List.pairwise_cons.mp hsorted).1 u hu
      omega
  constructor
  · exact List.filter_eq_nil_iff.mpr fun u hu => by simpa using hall u hu
  · exact List.filter_eq_self.mpr fun u hu => by simpa using hall u hu

/-- What `software_timer_tick` has made of `X`, whose lists were `bs` and `as`. -/
structure Ticked (now_tick : Nat) (X Y : Timers n) (bs as : List (Fin n)) : Prop where
  /-- The due timers are in front of the active list, the other timers where they were. -/
  lists : Y.Lists (X.pending now_tick bs) ((X.due now_tick bs).reverse ++ as)
  list_id : ∀ t, Y.list_id t =
    if t ∈ X.due now_tick bs then TIMER_LIST_ACTIVE else X.list_id t
  /-- One give for each of them. -/
  count : Y.count = (X.gives (X.due now_tick bs).length).count
  service : Y.service = (X.gives (X.due now_tick bs).length).service
  next : ∀ t, t ∉ X.due now_tick bs → Y.next t = X.next t
  expiry_tick : Y.expiry_tick = X.expiry_tick
  period : Y.period = X.period
  timer_mode : Y.timer_mode = X.timer_mode
  callback : Y.callback = X.callback

/-- A round of the loop, and what the rest of the loop does. -/
theorem Ticked.round (hdue : X.expiry_tick t ≤ now_tick)
    (h : Ticked now_tick (software_timer_give (X.popped t)) Y bs (t :: as)) :
    Ticked now_tick X Y (t :: bs) as := by
  have hgive := give_eq (X.popped t)
  have hexp : (software_timer_give (X.popped t)).expiry_tick = X.expiry_tick := by
    rw [hgive]; rfl
  have hds : (software_timer_give (X.popped t)).due now_tick bs = X.due now_tick bs := by
    unfold due; rw [hexp]
  have hps : (software_timer_give (X.popped t)).pending now_tick bs = X.pending now_tick bs := by
    unfold pending; rw [hexp]
  have hdcons : X.due now_tick (t :: bs) = t :: X.due now_tick bs :=
    List.filter_cons_of_pos (by simpa using hdue)
  have hpcons : X.pending now_tick (t :: bs) = X.pending now_tick bs :=
    List.filter_cons_of_neg (by simpa using hdue)
  have hcs := gives_congr (X.due now_tick bs).length
    (give_congr (X := X) (Y := X.popped t) rfl rfl).1 (give_congr (X := X) (Y := X.popped t) rfl rfl).2
  have hlists := h.lists
  have hlist_id := h.list_id
  have hnext := h.next
  have hcount := h.count
  have hservice := h.service
  rw [hds] at hlists hlist_id hnext hcount hservice
  rw [hps] at hlists
  refine ⟨?_, fun u => ?_, ?_, ?_, fun u hu => ?_, ?_, ?_, ?_, ?_⟩
  · rw [hdcons, hpcons, List.reverse_cons, List.append_assoc]
    exact hlists
  · rw [hlist_id u, hdcons, hgive]
    dsimp only [Timers.popped]
    by_cases hut : u = t
    · subst hut; simp
    · simp [hut]
  · rw [hdcons, List.length_cons, gives_succ, hcount]
    exact hcs.1
  · rw [hdcons, List.length_cons, gives_succ, hservice]
    exact hcs.2
  · rw [hdcons] at hu
    rw [hnext u (fun hmem => hu (List.mem_cons_of_mem _ hmem)), hgive]
    exact update_of_ne (List.ne_of_not_mem_cons hu) ..
  · rw [h.expiry_tick, hexp]
  · rw [h.period, hgive]; rfl
  · rw [h.timer_mode, hgive]; rfl
  · rw [h.callback, hgive]; rfl

/-- The loop ends, and each round takes the head. -/
theorem Lists.tick_loop (now_tick : Nat) : ∀ (fuel : Nat) {X : Timers n} {bs as : List (Fin n)},
    X.Lists bs as → bs.length < fuel →
    ∃ Y, software_timer_tick_loop now_tick fuel X = some Y ∧ Ticked now_tick X Y bs as := by
  intro fuel
  induction fuel with
  | zero => intro X bs as _ h; cases h
  | succ fuel ih =>
    intro X bs as hl hlen
    unfold software_timer_tick_loop
    cases bs with
    | nil =>
      rw [show X.blocked_list_head = none from hl.blocked]
      exact ⟨X, rfl, hl, fun _ => rfl, rfl, rfl, fun _ _ => rfl, rfl, rfl, rfl, rfl⟩
    | cons t bs =>
      have hhead : X.blocked_list_head = some t := hl.blocked.1
      rw [hhead]
      dsimp only
      split
      · rename_i hdue
        rw [pop_to_active_head hhead]
        have hl' : (software_timer_give (X.popped t)).Lists bs (t :: as) := by
          rw [give_eq]
          exact hl.popped.congr rfl rfl (fun _ _ => rfl) fun _ _ => rfl
        obtain ⟨Y, hY, ht⟩ := ih hl' (by rw [List.length_cons] at hlen; omega)
        exact ⟨Y, hY, ht.round hdue⟩
      · rename_i hnot
        obtain ⟨hd, hp⟩ := due_of_head hl.sorted hnot
        refine ⟨X, rfl, ?_, fun u => ?_, ?_, ?_, fun _ _ => rfl, rfl, rfl, rfl, rfl⟩
        · rw [hd, hp]; exact hl
        · rw [hd]; rfl
        · rw [hd]; rfl
        · rw [hd]; rfl

theorem Lists.tick (h : X.Lists bs as) (now_tick : Nat) :
    ∃ Y, software_timer_tick X now_tick = some Y ∧ Ticked now_tick X Y bs as :=
  Lists.tick_loop now_tick (n + 1) h h.length_blocked

end Timers

/-- `software_timer_tick` ends and moves exactly the due timers. -/
theorem tick_expires_due {n : Nat} {X : Timers n} {bs as : List (Fin n)} (h : X.Lists bs as)
    (now_tick : Nat) : ∃ Y, software_timer_tick X now_tick = some Y ∧
      Timers.Ticked now_tick X Y bs as ∧
      ∀ t ∈ X.pending now_tick bs, now_tick < Y.expiry_tick t := by
  obtain ⟨Y, hY, ht⟩ := h.tick now_tick
  refine ⟨Y, hY, ht, fun t hmem => ?_⟩
  rw [ht.expiry_tick]
  simpa using (List.mem_filter.mp hmem).2

/-- Two armed timers, one of them due at tick 4, and one that has expired before. -/
def one_due : Timers 3 where
  expiry_tick := ![3, 5, 2]
  period _ := 9
  timer_mode _ := .TIMER_MODE_PERIODIC
  callback _ := some 0
  list_id := ![TIMER_LIST_BLOCKED, TIMER_LIST_BLOCKED, TIMER_LIST_ACTIVE]
  next := ![some 1, none, none]
  blocked_list_head := some 0
  active_list_head := some 2
  count := 0
  service := .pull

theorem one_due_lists : one_due.Lists [0, 1] [2] :=
  ⟨⟨rfl, rfl, rfl⟩, ⟨rfl, rfl⟩, by decide, by decide⟩

theorem tick_expires_due_one : ∃ Y, software_timer_tick one_due 4 = some Y ∧
    Timers.Ticked 4 one_due Y [0, 1] [2] ∧
    ∀ t ∈ one_due.pending 4 [0, 1], 4 < Y.expiry_tick t :=
  tick_expires_due one_due_lists 4

end Rpitos
