import TokenBridge.Proofs.Admission.Basic
import TokenBridge.Proofs.Borsh.Values

namespace TokenBridge.Borsh.Format

variable {α β ρ σ : Type} {f : Format α} {g : Format β} {loose : Format ρ} {looseNext : Format σ}
  {raw : α → ρ} {rawNext : β → σ}

/-- Values are read exactly where their raw forms stand. -/
def Screens (f : Format α) (loose : Format ρ) (raw : α → ρ) : Prop :=
  ∀ input a rest, f.decode input = .ok (a, rest) ↔ loose.decode input = .ok (raw a, rest)

theorem screens_self (f : Format α) : f.Screens f id := fun _ _ _ ↦ Iff.rfl

theorem Screens.pair (hf : f.Screens loose raw) (hg : g.Screens looseNext rawNext) :
    (f.pair g).Screens (loose.pair looseNext) (Prod.map raw rawNext) := by
  intro input p rest
  rw [pair_eq_ok_iff, pair_eq_ok_iff]
  simp only [hf _ _ _, hg _ _ _, Prod.map]

theorem Screens.via {build : α → β} {fields : β → α} (h : f.Screens loose raw)
    (hb : ∀ b, build (fields b) = b) (ha : ∀ a, fields (build a) = a) :
    (f.via build fields).Screens loose (raw ∘ fields) := by
  intro input b rest
  have hiff : (f.via build fields).decode input = .ok (b, rest) ↔
      f.decode input = .ok (fields b, rest) := by
    rw [Format.via, decodeAs_eq_ok_iff]
    constructor
    · rintro ⟨a, hdecode, rfl⟩
      rwa [ha]
    · exact fun hdecode ↦ ⟨fields b, hdecode, hb b⟩
  rw [hiff, h]
  rfl

theorem screens_checked {ε : Type} {check : α → Except ε β} {fields : β → α} {message : ε → String}
    (h : ∀ {a b}, check a = .ok b ↔ fields b = a) :
    (f.checked check fields message).Screens f fields := by
  intro input b rest
  rw [checked_eq_ok_iff]
  constructor
  · rintro ⟨a, hdecode, hb⟩
    rwa [h.1 hb]
  · exact fun hdecode ↦ ⟨fields b, hdecode, h.2 rfl⟩

/-- The same for values that are told apart by a tag. -/
theorem Screens.decodeAs {γ τ : Type} {build : α → γ} {buildRaw : ρ → τ} {rawAll : γ → τ}
    (h : f.Screens loose raw) (hraw : ∀ r c, buildRaw r = rawAll c ↔ ∃ a, build a = c ∧ raw a = r)
    (input : Bytes) (c : γ) (rest : Bytes) :
    f.decodeAs build input = .ok (c, rest) ↔
      loose.decodeAs buildRaw input = .ok (rawAll c, rest) := by
  rw [decodeAs_eq_ok_iff, decodeAs_eq_ok_iff]
  constructor
  · rintro ⟨a, hdecode, hc⟩
    exact ⟨raw a, (h _ _ _).1 hdecode, (hraw _ _).2 ⟨a, hc, rfl⟩⟩
  · rintro ⟨r, hdecode, hc⟩
    obtain ⟨a, ha, rfl⟩ := (hraw _ _).1 hc
    exact ⟨a, (h _ _ _).2 hdecode, ha⟩

theorem read_eq_ok_iff {input : Bytes} {a : α} :
    f.read input = .ok a ↔ f.decode input = .ok (a, []) := by
  refine ⟨decode_of_read, fun h ↦ ?_⟩
  rw [read, h]

def read? (f : Format α) (input : Bytes) : Option α := (f.read input).toOption

theorem Screens.admits {Admissible : ρ → Prop} (h : f.Screens loose raw)
    (hraw : ∀ r, Admissible r ↔ ∃ a, raw a = r) : Admits f.read? loose.read? raw Admissible := by
  refine .of_iff (fun input a ↦ ?_) hraw
  rw [read?, read?, toOption_eq_some_iff, toOption_eq_some_iff, read_eq_ok_iff, read_eq_ok_iff, h]

def looseCheckpoint : Format Checkpoint.Fields := pair word (pair uint64 word)

def looseDeposit : Format Deposit.Fields :=
  pair address (pair address (pair (list byte) (pair uint256 uint64)))

def looseRegistry : Format Registry.Fields := pair looseCheckpoint (pair (list validator) uint32)

def looseState : Format BridgeState.Fields := pair looseRegistry (pair ledger executor)

def looseEvent : Format Event.Fields := eventOf looseDeposit

theorem bridgeId_screens : bridgeId.Screens word (·.word) :=
  screens_checked BridgeId.ofWord_eq_ok_iff

theorem threshold_screens : threshold.Screens uint32 (·.basisPoints) :=
  screens_checked PowerThreshold.ofBasisPoints_eq_ok_iff

theorem validatorSet_screens : validatorSet.Screens (list validator) (·.members) :=
  screens_checked ValidatorSet.ofList_eq_ok_iff

theorem destination_screens : destination.Screens (list byte) (·.bytes) :=
  screens_checked Destination.ofBytes_eq_ok_iff

theorem checkpoint_screens : checkpoint.Screens looseCheckpoint Checkpoint.fields :=
  (bridgeId_screens.pair (screens_self _)).via (fun _ ↦ rfl) fun _ ↦ rfl

theorem deposit_screens : deposit.Screens looseDeposit Deposit.fields :=
  ((screens_self _).pair ((screens_self _).pair (destination_screens.pair (screens_self _)))).via
    (fun _ ↦ rfl) fun _ ↦ rfl

theorem registry_screens : registry.Screens looseRegistry Registry.fields :=
  (checkpoint_screens.pair (validatorSet_screens.pair threshold_screens)).via (fun _ ↦ rfl)
    fun _ ↦ rfl

theorem state_screens : state.Screens looseState BridgeState.fields :=
  (registry_screens.pair (screens_self _)).via (fun _ ↦ rfl) fun _ ↦ rfl

theorem eventOf_screens (h : f.Screens loose raw) :
    (eventOf f).Screens (eventOf loose) (Event.map raw) := by
  rintro (_ | ⟨tag, input⟩) e rest
  · constructor <;> intro h <;> cases h
  · simp only [eventOf]
    split_ifs
    · refine h.decodeAs (fun r e ↦ ?_) input e rest
      cases e <;> simp [Event.map, eq_comm]
    · refine (screens_self (pair word uint64)).decodeAs (fun p e ↦ ?_) input e rest
      cases e <;> simp [Event.map, eq_comm]
    · refine (screens_self (pair address uint64)).decodeAs (fun p e ↦ ?_) input e rest
      cases e <;> simp [Event.map, eq_comm]
    · refine (screens_self (pair address address)).decodeAs (fun p e ↦ ?_) input e rest
      cases e <;> simp [Event.map, eq_comm]
    · refine (screens_self uint64).decodeAs (fun version e ↦ ?_) input e rest
      cases e <;> simp [Event.map, eq_comm]
    · constructor <;> intro h <;> cases h

theorem event_screens : event.Screens looseEvent Event.fields :=
  eventOf_screens deposit_screens

end TokenBridge.Borsh.Format
