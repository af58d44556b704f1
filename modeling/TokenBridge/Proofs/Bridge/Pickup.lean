import TokenBridge.Proofs.Bridge.Numbering

namespace TokenBridge

/-- Where a list is numbered without gaps, what has a greater number is what comes later. -/
theorem filter_eq_drop {α : Type} {f : α → Nat} {l : List α} {s : Nat}
    (h : l.map f = List.range' (s + 1) l.length) (k : Nat) :
    l.filter (fun a ↦ k < f a) = l.drop (k - s) := by
  induction l generalizing s with
  | nil => simp
  | cons a rest ih =>
    rw [List.map_cons, List.length_cons, List.range'_succ, List.cons.injEq] at h
    obtain ⟨ha, hrest⟩ := h
    have hlater := ih hrest
    by_cases hk : k < f a
    · have hall : k - s = 0 := by omega
      have hall' : k - (s + 1) = 0 := by omega
      rw [List.filter_cons_of_pos (by simpa using hk), hlater, hall, hall', List.drop_zero,
        List.drop_zero]
    · have hnext : k - s = k - (s + 1) + 1 := by omega
      rw [List.filter_cons_of_neg (by simpa using hk), hlater, hnext, List.drop_succ_cons]

namespace Event

def records (events : List Event) : List Deposit := events.filterMap record?

def Numbered (events : List Event) : Prop :=
  (records events).map (·.nonce.toNat) = List.range' 1 (records events).length

variable {events : List Event}

theorem records_append (first second : List Event) :
    records (first ++ second) = records first ++ records second := List.filterMap_append

theorem records_take_of_le {m n : Nat} (h : m ≤ n) (events : List Event) :
    records (events.take n) = records (events.take m) ++ records ((events.take n).drop m) := by
  have hm : (events.take n).take m = events.take m := by rw [List.take_take, Nat.min_eq_left h]
  rw [← hm, ← records_append, List.take_append_drop]

theorem depositsAfter_append (lastSeen : UInt64) (first second : List Event) :
    depositsAfter lastSeen (first ++ second) =
      depositsAfter lastSeen first ++ depositsAfter lastSeen second :=
  List.filterMap_append

theorem depositsAfter_eq_filter (lastSeen : UInt64) (events : List Event) :
    depositsAfter lastSeen events =
      (records events).filter fun record ↦ lastSeen.toNat < record.nonce.toNat := by
  induction events with
  | nil => rfl
  | cons event rest ih =>
    cases event with
    | deposit record =>
      have hrecords : records (.deposit record :: rest) = record :: records rest := rfl
      by_cases h : lastSeen < record.nonce
      · have hfound : depositsAfter lastSeen (.deposit record :: rest) =
            record :: depositsAfter lastSeen rest := List.filterMap_cons_some (if_pos h)
        rw [hfound, ih, hrecords,
          List.filter_cons_of_pos (by simpa using UInt64.lt_iff_toNat_lt.1 h)]
      · have hskipped : depositsAfter lastSeen (.deposit record :: rest) =
            depositsAfter lastSeen rest := List.filterMap_cons_none (if_neg h)
        rw [hskipped, ih, hrecords,
          List.filter_cons_of_neg (by simpa using UInt64.lt_iff_toNat_lt.not.1 h)]
    | _ => exact ih

theorem Numbered.take (h : Numbered events) (n : Nat) : Numbered (events.take n) := by
  have hsplit : records events = records (events.take n) ++ records (events.drop n) := by
    rw [← records_append, List.take_append_drop]
  rw [Numbered, hsplit, List.map_append, List.length_append, ← List.range'_append] at h
  exact (List.append_inj h (by rw [List.length_map, List.length_range'])).1

theorem Numbered.depositsAfter_eq (h : Numbered events) (lastSeen : UInt64) :
    depositsAfter lastSeen events = (records events).drop lastSeen.toNat := by
  rw [depositsAfter_eq_filter, filter_eq_drop h, Nat.sub_zero]

/-- A window that starts no later than a consumer has read holds what the consumer lacks of the
events up to its end. -/
theorem Numbered.depositsAfter_window (h : Numbered events) {lastSeen : UInt64} {start : Nat}
    (hstart : (records (events.take start)).length ≤ lastSeen.toNat) (stop : Nat) :
    depositsAfter lastSeen ((events.take stop).drop start) =
      (records (events.take stop)).drop lastSeen.toNat := by
  have hseen : depositsAfter lastSeen ((events.take stop).take start) = [] := by
    have hshort : records (events.take start) = records ((events.take stop).take start) ++
        records ((events.take start).drop (min start stop)) := by
      rw [List.take_take, records_take_of_le (Nat.min_le_left start stop)]
    rw [((h.take stop).take start).depositsAfter_eq]
    rw [hshort, List.length_append] at hstart
    exact List.drop_eq_nil_of_le (by omega)
  have hsplit : depositsAfter lastSeen (events.take stop) =
      depositsAfter lastSeen ((events.take stop).take start) ++
        depositsAfter lastSeen ((events.take stop).drop start) := by
    rw [← depositsAfter_append, List.take_append_drop]
  rw [← (h.take stop).depositsAfter_eq, hsplit, hseen, List.nil_append]

theorem Numbered.nonce_of_getLast? (h : Numbered events) {record : Deposit}
    (hlast : (records events).getLast? = some record) :
    record.nonce.toNat = (records events).length := by
  have hnumber := congrArg List.getLast? h
  rw [List.getLast?_map, hlast, List.getLast?_range'] at hnumber
  split at hnumber
  · cases hnumber
  · have hnonce : record.nonce.toNat = 1 + (records events).length - 1 := Option.some.inj hnumber
    omega

end Event

structure Window where
  start : Nat
  stop : Nat

def Window.of (w : Window) (events : List Event) : List Event := (events.take w.stop).drop w.start

/-- No window starts beyond what was read before it. -/
def Gapless (read : Nat) : List Window → Prop
  | [] => True
  | w :: rest => w.start ≤ read ∧ Gapless (max read w.stop) rest

def furthest (read : Nat) (windows : List Window) : Nat :=
  windows.foldl (fun read w ↦ max read w.stop) read

structure Consumer where
  lastSeen : UInt64
  applied : List Deposit

namespace Consumer

def new : Consumer := ⟨0, []⟩

def poll (consumer : Consumer) (window : List Event) : Consumer :=
  let fresh := Event.depositsAfter consumer.lastSeen window
  { lastSeen := (fresh.getLast?.map (·.nonce)).getD consumer.lastSeen
    applied := consumer.applied ++ fresh }

def follow (events : List Event) (consumer : Consumer) (windows : List Window) : Consumer :=
  windows.foldl (fun consumer w ↦ consumer.poll (w.of events)) consumer

/-- A consumer has applied exactly the deposits up to a position. -/
structure UpTo (events : List Event) (position : Nat) (consumer : Consumer) : Prop where
  applied_eq : consumer.applied = Event.records (events.take position)
  lastSeen_eq : consumer.lastSeen.toNat = consumer.applied.length

variable {events : List Event} {consumer : Consumer} {read : Nat}

section

variable (h : consumer.UpTo events read) (hnumbered : Event.Numbered events) {w : Window}
include h hnumbered

theorem UpTo.depositsAfter_eq (hw : w.start ≤ read) :
    Event.depositsAfter consumer.lastSeen (w.of events) =
      (Event.records (events.take w.stop)).drop consumer.applied.length := by
  rw [← h.lastSeen_eq]
  refine hnumbered.depositsAfter_window ?_ w.stop
  rw [h.lastSeen_eq, h.applied_eq, Event.records_take_of_le hw, List.length_append]
  omega

theorem UpTo.poll_of_le (hw : w.start ≤ read) (hstop : w.stop ≤ read) :
    consumer.poll (w.of events) = consumer := by
  have hnone : Event.depositsAfter consumer.lastSeen (w.of events) = [] := by
    rw [h.depositsAfter_eq hnumbered hw, h.applied_eq, Event.records_take_of_le hstop,
      List.length_append]
    exact List.drop_eq_nil_of_le (by omega)
  rw [Consumer.poll, hnone, List.append_nil]
  rfl

theorem UpTo.poll_of_ge (hw : w.start ≤ read) (hstop : read ≤ w.stop) :
    (consumer.poll (w.of events)).UpTo events w.stop := by
  have hgrown := Event.records_take_of_le hstop events
  have hfresh : Event.depositsAfter consumer.lastSeen (w.of events) =
      Event.records ((events.take w.stop).drop read) := by
    rw [h.depositsAfter_eq hnumbered hw, hgrown, List.drop_left' (congrArg _ h.applied_eq.symm)]
  have happlied : (consumer.poll (w.of events)).applied = Event.records (events.take w.stop) := by
    rw [Consumer.poll, hfresh, h.applied_eq, hgrown]
  refine ⟨happlied, ?_⟩
  rw [happlied]
  cases hend : (Event.records ((events.take w.stop).drop read)).getLast? with
  | none =>
    have hempty := List.getLast?_eq_none_iff.1 hend
    rw [hempty, List.append_nil] at hgrown
    simp only [Consumer.poll, hfresh, hend, Option.map_none, Option.getD_none]
    rw [h.lastSeen_eq, h.applied_eq, hgrown]
  | some record =>
    have hlatest : (Event.records (events.take w.stop)).getLast? = some record := by
      rw [hgrown, List.getLast?_append, hend, Option.some_or]
    simp only [Consumer.poll, hfresh, hend, Option.map_some, Option.getD_some]
    exact (hnumbered.take w.stop).nonce_of_getLast? hlatest

theorem UpTo.poll (hw : w.start ≤ read) :
    (consumer.poll (w.of events)).UpTo events (max read w.stop) := by
  rcases Nat.le_total w.stop read with hstop | hstop
  · rw [h.poll_of_le hnumbered hw hstop, Nat.max_eq_left hstop]
    exact h
  · rw [Nat.max_eq_right hstop]
    exact h.poll_of_ge hnumbered hw hstop

end

theorem UpTo.follow (h : consumer.UpTo events read) (hnumbered : Event.Numbered events)
    {windows : List Window} (hwindows : Gapless read windows) :
    (consumer.follow events windows).UpTo events (furthest read windows) := by
  induction windows generalizing read consumer with
  | nil => exact h
  | cons w rest ih => exact ih (h.poll hnumbered hwindows.1) hwindows.2

end Consumer

namespace Bridge

variable {C ε : Type} [Custody C]

theorem numbered_history {world : ε → C → C} {b : Bridge C} (hnumber : b.lastNumber = 0)
    (hjournal : b.journal = []) (steps : List (Step ε)) :
    Event.Numbered (b.history world steps) := by
  have hnumbers : ((b.deposits world steps).filterMap (·.2.record?)).map (·.nonce.toNat) =
      List.range' 1 (b.deposits world steps).length := numbers_of_deposits hnumber steps
  have hlength := congrArg List.length hnumbers
  rw [List.length_map, List.length_range'] at hlength
  rw [Event.Numbered, Event.records, records_history hjournal, hnumbers, hlength]

/-- Whatever gapless windows a consumer reads of the history of a bridge, however they overlap, it
applies each deposit that it reads of once, in their order. -/
theorem deposits_picked_up_once (account admin : Address) (custody : C) (world : ε → C → C)
    (steps : List (Step ε)) :
    let events := (new account admin custody).history world steps
    let deposits := Event.records events
    deposits.map (·.nonce.toNat) = List.range' 1 deposits.length ∧
      (∀ lastSeen : UInt64,
        Event.depositsAfter lastSeen events = deposits.drop lastSeen.toNat ∧
          (Event.depositsAfter lastSeen events).map (·.nonce.toNat) =
            List.range' (lastSeen.toNat + 1) (deposits.length - lastSeen.toNat)) ∧
      ∀ windows, Gapless 0 windows →
        (Consumer.new.follow events windows).applied =
          Event.records (events.take (furthest 0 windows)) := by
  intro events deposits
  have hnumbered : Event.Numbered events := numbered_history rfl rfl steps
  have horigin : Consumer.new.UpTo events 0 := ⟨rfl, rfl⟩
  refine ⟨hnumbered, ?_, ?_⟩
  · intro lastSeen
    have hlater := hnumbered.depositsAfter_eq lastSeen
    refine ⟨hlater, ?_⟩
    rw [hlater, List.map_drop, hnumbered, List.drop_range', Nat.mul_one, Nat.add_comm]
  · intro windows hwindows
    exact (horigin.follow hnumbered hwindows).applied_eq

def ferryHalf : UInt256 := ⟨50, by decide⟩

def ferryTrips : List (Step Balances) :=
  ferryWaiting ++ [.call (.deposit ferryPassenger ferryToken [7] ferryHalf), .takeEvents,
    .call (.deposit ferryPassenger ferryToken [8] ferryHalf)]

def ferryWindows : List Window := [⟨0, 2⟩, ⟨1, 3⟩, ⟨0, 3⟩]

theorem deposits_picked_up_once_ferry :
    Gapless 0 ferryWindows ∧
      (Consumer.new.follow (ferry.history (fun funds _ ↦ funds) ferryTrips)
        ferryWindows).applied.map (·.nonce) = [1, 2] := by
  have hgapless : Gapless 0 ferryWindows :=
    ⟨Nat.le_refl 0, by decide, by decide, trivial⟩
  obtain ⟨-, -, hwindows⟩ := deposits_picked_up_once (FixedBytes.ofNat 20 0xbb)
    (FixedBytes.ofNat 20 0xad) Balances.empty (fun funds _ ↦ funds) ferryTrips
  refine ⟨hgapless, ?_⟩
  have happlied := hwindows ferryWindows hgapless
  unfold ferry
  rw [happlied]
  decide +kernel

end Bridge

end TokenBridge
