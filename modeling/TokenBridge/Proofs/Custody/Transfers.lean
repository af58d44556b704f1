import TokenBridge.Custody.Balances
import Mathlib.Algebra.Ring.Nat

namespace TokenBridge

namespace UInt256

theorem ofNat?_eq_some_iff {n : Nat} {a : UInt256} : ofNat? n = some a ↔ a.toNat = n := by
  unfold ofNat?
  constructor
  · intro h
    split at h
    · obtain rfl := Option.some.inj h
      rfl
    · cases h
  · rintro rfl
    rw [dif_pos a.toNat_lt]

theorem add?_eq_some_iff {a b c : UInt256} : a.add? b = some c ↔ c.toNat = a.toNat + b.toNat :=
  ofNat?_eq_some_iff

theorem sub?_eq_some_iff {a b c : UInt256} : a.sub? b = some c ↔ c.toNat + b.toNat = a.toNat := by
  unfold sub?
  split
  · rw [ofNat?_eq_some_iff]
    omega
  · simp only [reduceCtorEq, false_iff]
    omega

theorem exists_add?_iff {a b : UInt256} : (∃ c, a.add? b = some c) ↔ a.toNat + b.toNat < size := by
  simp only [add?_eq_some_iff]
  constructor
  · rintro ⟨c, h⟩
    exact h ▸ c.toNat_lt
  · intro h
    exact ⟨⟨_, h⟩, rfl⟩

theorem exists_sub?_iff {a b : UInt256} : (∃ c, a.sub? b = some c) ↔ b.toNat ≤ a.toNat := by
  simp only [sub?_eq_some_iff]
  constructor
  · rintro ⟨c, h⟩
    omega
  · intro h
    have := a.toNat_lt
    exact ⟨⟨a.toNat - b.toNat, by omega⟩, Nat.sub_add_cancel h⟩

theorem foldlM_add?_eq_some_iff {values : List UInt256} {start total : UInt256} :
    values.foldlM add? start = some total ↔
      total.toNat = start.toNat + (values.map toNat).sum := by
  induction values generalizing start with
  | nil =>
    constructor
    · intro h
      cases h
      rfl
    · intro h
      exact congrArg some (UInt256.ext h.symm)
  | cons a rest ih =>
    rw [List.foldlM_cons, List.map_cons, List.sum_cons]
    cases h : start.add? a with
    | some sum =>
      have hsum := add?_eq_some_iff.1 h
      have hrest : rest.foldlM add? sum = some total ↔
          total.toNat = sum.toNat + (rest.map toNat).sum := ih
      rw [hsum, Nat.add_assoc] at hrest
      exact hrest
    | none =>
      have hlarge : ¬ start.toNat + a.toNat < size := by
        intro hlt
        simp [add?, ofNat?, hlt] at h
      have := total.toNat_lt
      constructor
      · intro h
        cases h
      · intro h
        omega

/-- A sum is given just when it fits, for what does not fit in between does not fit in the end. -/
theorem sum?_eq_some_iff {values : List UInt256} {total : UInt256} :
    sum? values = some total ↔ total.toNat = (values.map toNat).sum := by
  have h : values.foldlM add? zero = some total ↔
      total.toNat = zero.toNat + (values.map toNat).sum := foldlM_add?_eq_some_iff
  rwa [show zero.toNat = 0 from rfl, Nat.zero_add] at h

end UInt256

namespace Balances

variable {b b' : Balances} {token token' holder holder' sender recipient : Address}
  {amount : UInt256}

theorem balance_set_self (b : Balances) (token holder : Address) (amount : UInt256) :
    (b.set token holder amount).balance token holder = amount := by
  simp [balance, set]

theorem balance_set_of_ne (b : Balances) (h : (token', holder') ≠ (token, holder))
    (amount : UInt256) : (b.set token holder amount).balance token' holder' = b.balance token' holder' := by
  simp [balance, set, Table.get?_insert_of_ne _ h]

theorem balance_opened (b : Balances) (token holder token' holder' : Address) :
    (b.opened token holder).balance token' holder' = b.balance token' holder' := by
  by_cases h : (token', holder') = (token, holder)
  · cases h
    exact balance_set_self b token holder _
  · exact balance_set_of_ne b h _

theorem balance_mint_of_error {e : CustodyError} (h : b.mint token holder amount = (.error e, b'))
    (token' holder' : Address) : b'.balance token' holder' = b.balance token' holder' := by
  simp only [mint] at h
  split at h
  · cases h
    exact balance_opened b token holder token' holder'
  · cases h

theorem balance_mint_of_ok (h : b.mint token holder amount = (.ok (), b'))
    (token' holder' : Address) :
    (b'.balance token' holder').toNat = (b.balance token' holder').toNat +
      if (token', holder') = (token, holder) then amount.toNat else 0 := by
  simp only [mint] at h
  split at h
  · cases h
  · rename_i sum hsum
    cases h
    have hnat := UInt256.add?_eq_some_iff.1 hsum
    rw [balance_opened] at hnat
    by_cases he : (token', holder') = (token, holder)
    · cases he
      rw [balance_set_self, hnat, if_pos rfl]
    · rw [balance_set_of_ne _ he, balance_opened, if_neg he, Nat.add_zero]

theorem custody_transfer (b : Balances) (token sender recipient : Address) (amount : UInt256) :
    Custody.transfer b token sender recipient amount = b.transfer token sender recipient amount :=
  rfl

theorem transfer_eq_ok_iff :
    b.transfer token sender recipient amount = (.ok (), b') ↔
      recipient.isZero = false ∧
        ∃ remaining, (b.balance token sender).sub? amount = some remaining ∧
          ((sender = recipient ∧ b' = b) ∨
            (sender ≠ recipient ∧
              ∃ credited, (b.balance token recipient).add? amount = some credited ∧
                b' = (b.set token sender remaining).set token recipient credited)) := by
  unfold transfer
  cases recipient.isZero with
  | true => simp
  | false =>
    cases hs : (b.balance token sender).sub? amount with
    | none => simp [hs]
    | some remaining =>
      by_cases he : sender = recipient
      · subst he
        simp [hs, eq_comm]
      · cases ha : (b.balance token recipient).add? amount with
        | none => simp [hs, he]
        | some credited => simp [hs, he, eq_comm]

theorem exists_transfer_iff :
    (∃ b', b.transfer token sender recipient amount = (.ok (), b')) ↔
      recipient.isZero = false ∧ amount.toNat ≤ (b.balance token sender).toNat ∧
        (sender ≠ recipient →
          (b.balance token recipient).toNat + amount.toNat < UInt256.size) := by
  constructor
  · rintro ⟨b', h⟩
    obtain ⟨hrecipient, remaining, hsub, outcome⟩ := transfer_eq_ok_iff.1 h
    refine ⟨hrecipient, UInt256.exists_sub?_iff.1 ⟨remaining, hsub⟩, ?_⟩
    intro hne
    obtain ⟨he, _⟩ | ⟨_, credited, hadd, _⟩ := outcome
    · exact absurd he hne
    · exact UInt256.exists_add?_iff.1 ⟨credited, hadd⟩
  · rintro ⟨hrecipient, hfunds, hroom⟩
    obtain ⟨remaining, hsub⟩ := UInt256.exists_sub?_iff.2 hfunds
    by_cases hself : sender = recipient
    · exact ⟨b, transfer_eq_ok_iff.2 ⟨hrecipient, remaining, hsub, .inl ⟨hself, rfl⟩⟩⟩
    · obtain ⟨credited, hadd⟩ := UInt256.exists_add?_iff.2 (hroom hself)
      exact ⟨_, transfer_eq_ok_iff.2
        ⟨hrecipient, remaining, hsub, .inr ⟨hself, credited, hadd, rfl⟩⟩⟩

/-- What a transfer leaves a holder with: the amount is taken from the sender and given to the
recipient, who may be the sender. -/
theorem balance_transfer (h : b.transfer token sender recipient amount = (.ok (), b'))
    (holder : Address) :
    (b'.balance token holder).toNat + (if holder = sender then amount.toNat else 0) =
      (b.balance token holder).toNat + (if holder = recipient then amount.toNat else 0) := by
  obtain ⟨_, remaining, hsub, ⟨rfl, rfl⟩ | ⟨hne, credited, hadd, rfl⟩⟩ := transfer_eq_ok_iff.1 h
  · rfl
  · have hremaining := UInt256.sub?_eq_some_iff.1 hsub
    have hcredited := UInt256.add?_eq_some_iff.1 hadd
    by_cases hr : holder = recipient
    · subst hr
      rw [balance_set_self, if_neg (Ne.symm hne), if_pos rfl, hcredited, Nat.add_zero]
    · rw [balance_set_of_ne _ (by simp [hr]), if_neg hr]
      by_cases hs : holder = sender
      · subst hs
        rw [balance_set_self, if_pos rfl, hremaining, Nat.add_zero]
      · rw [balance_set_of_ne _ (by simp [hs]), if_neg hs]

theorem balance_transfer_of_ne (h : b.transfer token sender recipient amount = (.ok (), b'))
    (ht : token' ≠ token) (holder : Address) :
    b'.balance token' holder = b.balance token' holder := by
  obtain ⟨_, remaining, _, ⟨_, rfl⟩ | ⟨_, credited, _, rfl⟩⟩ := transfer_eq_ok_iff.1 h
  · rfl
  · rw [balance_set_of_ne _ (by simp [ht]), balance_set_of_ne _ (by simp [ht])]

end Balances

def sent : List (Address × UInt256) → Nat
  | [] => 0
  | (_, amount) :: rest => amount.toNat + sent rest

def received (holder : Address) : List (Address × UInt256) → Nat
  | [] => 0
  | (recipient, amount) :: rest =>
    (if holder = recipient then amount.toNat else 0) + received holder rest

theorem sent_append (first second : List (Address × UInt256)) :
    sent (first ++ second) = sent first + sent second := by
  induction first with
  | nil => rw [List.nil_append, sent, Nat.zero_add]
  | cons transfer rest ih => rw [List.cons_append, sent, sent, ih, Nat.add_assoc]

theorem received_append (holder : Address) (first second : List (Address × UInt256)) :
    received holder (first ++ second) = received holder first + received holder second := by
  induction first with
  | nil => rw [List.nil_append, received, Nat.zero_add]
  | cons transfer rest ih => rw [List.cons_append, received, received, ih, Nat.add_assoc]

namespace Balances

variable {b b' : Balances} {token token' sender : Address} {transfers : List (Address × UInt256)}

theorem transferAll_cons {recipient : Address} {amount : UInt256} :
    Custody.transferAll b token sender ((recipient, amount) :: transfers) = (.ok (), b') ↔
      ∃ between, b.transfer token sender recipient amount = (.ok (), between) ∧
        Custody.transferAll between token sender transfers = (.ok (), b') := by
  rw [Custody.transferAll, custody_transfer]
  rcases b.transfer token sender recipient amount with ⟨_ | _, between⟩ <;> simp

theorem balance_transferAll (h : Custody.transferAll b token sender transfers = (.ok (), b'))
    (holder : Address) :
    (b'.balance token holder).toNat + (if holder = sender then sent transfers else 0) =
      (b.balance token holder).toNat + received holder transfers := by
  induction transfers generalizing b with
  | nil =>
    cases h
    simp [sent, received]
  | cons transfer rest ih =>
    obtain ⟨recipient, amount⟩ := transfer
    obtain ⟨between, hfirst, hrest⟩ := transferAll_cons.1 h
    have first := balance_transfer hfirst holder
    have later := ih hrest
    rw [sent, received]
    by_cases hs : holder = sender
    · rw [if_pos hs] at first later ⊢
      omega
    · rw [if_neg hs] at first later ⊢
      omega

theorem balance_transferAll_of_ne (h : Custody.transferAll b token sender transfers = (.ok (), b'))
    (ht : token' ≠ token) (holder : Address) :
    b'.balance token' holder = b.balance token' holder := by
  induction transfers generalizing b with
  | nil =>
    cases h
    rfl
  | cons transfer rest ih =>
    obtain ⟨between, hfirst, hrest⟩ := transferAll_cons.1 h
    rw [ih hrest, balance_transfer_of_ne hfirst ht]

/-- Transfers are paid just if their sender has all that they send, as long as only the last of them
can pay the sender: what it gives itself on the way would be there to be spent once more. -/
theorem exists_transferAll_iff (others : ∀ t ∈ transfers.dropLast, t.1 ≠ sender) :
    (∃ b', Custody.transferAll b token sender transfers = (.ok (), b')) ↔
      (∀ t ∈ transfers, t.1.isZero = false) ∧
        sent transfers ≤ (b.balance token sender).toNat ∧
        ∀ holder, holder ≠ sender →
          (b.balance token holder).toNat + received holder transfers < UInt256.size := by
  induction transfers generalizing b with
  | nil =>
    have empty : ∃ b', Custody.transferAll b token sender [] = (.ok (), b') := ⟨b, rfl⟩
    simpa [empty, sent, received] using fun holder _ ↦ (b.balance token holder).toNat_lt
  | cons transfer rest ih =>
    obtain ⟨recipient, amount⟩ := transfer
    -- what the sender gives itself stays, but then there is nothing more to be sent
    have last : sender = recipient → sent rest = 0 := by
      intro he
      cases rest with
      | nil => rfl
      | cons next rest => exact absurd he.symm (others _ List.mem_cons_self)
    have others' : ∀ t ∈ rest.dropLast, t.1 ≠ sender := by
      cases rest with
      | nil => simp
      | cons next rest => exact fun t ht ↦ others t (List.mem_cons_of_mem _ ht)
    rw [List.forall_mem_cons, sent]
    simp only [received]
    constructor
    · rintro ⟨after, h⟩
      obtain ⟨between, hfirst, hrest⟩ := transferAll_cons.1 h
      obtain ⟨hrecipient, hfunds, hroom⟩ := exists_transfer_iff.1 ⟨between, hfirst⟩
      obtain ⟨recipients, covered, room⟩ := (ih others').1 ⟨after, hrest⟩
      refine ⟨⟨hrecipient, recipients⟩, ?_, ?_⟩
      · have debit := balance_transfer hfirst sender
        rw [if_pos rfl] at debit
        by_cases hself : sender = recipient
        · rw [last hself]
          exact hfunds
        · rw [if_neg hself] at debit
          omega
      · intro holder hne
        have credit := balance_transfer hfirst holder
        have left := room holder hne
        rw [if_neg hne] at credit
        omega
    · rintro ⟨⟨hrecipient, recipients⟩, covered, room⟩
      obtain ⟨between, hfirst⟩ : ∃ between,
          b.transfer token sender recipient amount = (.ok (), between) := by
        refine exists_transfer_iff.2 ⟨hrecipient, by omega, ?_⟩
        intro hne
        have enough := room recipient hne.symm
        rw [if_pos rfl] at enough
        omega
      have moved := balance_transfer hfirst
      obtain ⟨after, hrest⟩ := (ih (b := between) others').2 <| by
        refine ⟨recipients, ?_, ?_⟩
        · have debit := moved sender
          rw [if_pos rfl] at debit
          omega
        · intro holder hne
          have credit := moved holder
          have enough := room holder hne
          rw [if_neg hne] at credit
          omega
      exact ⟨after, transferAll_cons.2 ⟨between, hfirst, hrest⟩⟩

end Balances

end TokenBridge
