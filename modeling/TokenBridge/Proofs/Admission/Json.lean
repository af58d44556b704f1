import TokenBridge.Json.Values
import TokenBridge.Proofs.Admission.Borsh
import TokenBridge.Proofs.Json.Format

namespace TokenBridge.Json

variable {α β ρ σ : Type} {raw : α → ρ} {rawNext : β → σ}

namespace Fields

structure Screens (f : Fields α) (loose : Fields ρ) (raw : α → ρ) : Prop where
  shapes_eq : f.shapes = loose.shapes
  ofValues?_iff : ∀ values a, f.ofValues? values = some a ↔ loose.ofValues? values = some (raw a)

theorem Screens.names_eq {f : Fields α} {loose : Fields ρ} (h : f.Screens loose raw) :
    f.names = loose.names := congrArg (·.map Prod.fst) h.shapes_eq

theorem Screens.append {f : Fields α} {g : Fields β} {loose : Fields ρ} {looseNext : Fields σ}
    (hf : f.Screens loose raw) (hg : g.Screens looseNext rawNext) :
    (f ++ g).Screens (loose ++ looseNext) (Prod.map raw rawNext) where
  shapes_eq := congrArg₂ (· ++ ·) hf.shapes_eq hg.shapes_eq
  ofValues?_iff values p := by
    rw [append_eq_some_iff, append_eq_some_iff, hf.names_eq, hf.ofValues?_iff, hg.ofValues?_iff]
    rfl

end Fields

namespace Format

/-- Values are read exactly where their raw forms stand. -/
structure Screens (f : Format α) (loose : Format ρ) (raw : α → ρ) : Prop where
  shape_eq : f.shape = loose.shape
  ofJson?_iff : ∀ j a, f.ofJson? j = some a ↔ loose.ofJson? j = some (raw a)

variable {f : Format α} {loose : Format ρ}

theorem screens_self (f : Format α) : f.Screens f id := ⟨rfl, fun _ _ ↦ Iff.rfl⟩

theorem Screens.single (h : f.Screens loose raw) (name : String) :
    (Fields.single name f).Screens (Fields.single name loose) raw where
  shapes_eq := by rw [Fields.single, Fields.single, h.shape_eq]
  ofValues?_iff values a := by
    rcases values with _ | ⟨j, _ | ⟨j', rest⟩⟩
    · exact iff_of_false nofun nofun
    · exact h.ofJson?_iff j a
    · exact iff_of_false nofun nofun

theorem Screens.via {build : α → β} {fields : β → α} (h : f.Screens loose raw)
    (hb : ∀ b, build (fields b) = b) (ha : ∀ a, fields (build a) = a) :
    (f.via build fields).Screens loose (raw ∘ fields) where
  shape_eq := h.shape_eq
  ofJson?_iff j b := by
    have hiff : (f.via build fields).ofJson? j = some b ↔ f.ofJson? j = some (fields b) := by
      rw [Format.via, Option.map_eq_some_iff]
      constructor
      · rintro ⟨a, hj, rfl⟩
        rwa [ha]
      · exact fun hj ↦ ⟨fields b, hj, hb b⟩
    rw [hiff, h.ofJson?_iff]
    rfl

theorem screens_checked {ε : Type} {check : α → Except ε β} {fields : β → α}
    (h : ∀ {a b}, check a = .ok b ↔ fields b = a) : (f.checked check fields).Screens f fields where
  shape_eq := rfl
  ofJson?_iff j b := by
    rw [checked, Option.bind_eq_some_iff]
    simp only [toOption_eq_some_iff, h]
    constructor
    · rintro ⟨a, hj, rfl⟩
      exact hj
    · exact fun hj ↦ ⟨fields b, hj, rfl⟩

theorem screens_record {f : Fields α} {loose : Fields ρ} (h : f.Screens loose raw) :
    (record f).Screens (record loose) raw where
  shape_eq := congrArg Shape.record h.shapes_eq
  ofJson?_iff j a := by
    simp only [Format.record, h.names_eq, Option.bind_eq_some_iff, h.ofValues?_iff]

theorem Screens.tagged (h : f.Screens loose raw) (name : String) :
    (tagged name f).Screens (tagged name loose) raw where
  shape_eq := by rw [Format.tagged, Format.tagged, h.shape_eq]
  ofJson?_iff j a := by
    simp only [Format.tagged]
    split
    · split
      · exact h.ofJson?_iff _ a
      · exact iff_of_false nofun nofun
    · exact iff_of_false nofun nofun

theorem Screens.admits {Admissible : ρ → Prop} (h : f.Screens loose raw)
    (hraw : ∀ r, Admissible r ↔ ∃ a, raw a = r) :
    Admits f.ofText? loose.ofText? raw Admissible := by
  refine .of_iff (fun s a ↦ ?_) hraw
  rw [ofText?, ofText?, h.shape_eq, Option.bind_eq_some_iff, Option.bind_eq_some_iff]
  simp only [h.ofJson?_iff]

open Fields (single)

def looseCheckpoint : Format Checkpoint.Fields :=
  record (single "bridge_id" word ++ (single "nonce" uint64 ++ single "commitment" word))

def looseDeposit : Format Deposit.Fields :=
  record (single "token" address ++ (single "sender" address
    ++ (single "destination" (list byte) ++ (single "amount" uint256
    ++ single "event_nonce" uint64))))

def looseEvent : Format Event.Fields := eventOf looseDeposit

theorem bridgeId_screens : bridgeId.Screens word (·.word) :=
  screens_checked BridgeId.ofWord_eq_ok_iff

theorem threshold_screens : threshold.Screens uint32 (·.basisPoints) :=
  screens_checked PowerThreshold.ofBasisPoints_eq_ok_iff

theorem validatorSet_screens : validatorSet.Screens (list validator) (·.members) :=
  screens_checked ValidatorSet.ofList_eq_ok_iff

theorem destination_screens : destination.Screens (list byte) (·.bytes) :=
  screens_checked Destination.ofBytes_eq_ok_iff

theorem checkpoint_screens : checkpoint.Screens looseCheckpoint Checkpoint.fields := by
  have hfields := (bridgeId_screens.single "bridge_id").append
    (((screens_self uint64).single "nonce").append ((screens_self word).single "commitment"))
  exact (screens_record hfields).via (fun _ ↦ rfl) fun _ ↦ rfl

theorem deposit_screens : deposit.Screens looseDeposit Deposit.fields := by
  have hfields := ((screens_self address).single "token").append
    (((screens_self address).single "sender").append
      ((destination_screens.single "destination").append
        (((screens_self uint256).single "amount").append
          ((screens_self uint64).single "event_nonce"))))
  exact (screens_record hfields).via (fun _ ↦ rfl) fun _ ↦ rfl

theorem tagged_of_ne {name : String} {j : Json} (h : ∀ x, j ≠ object [(some name, x)]) :
    (tagged name f).ofJson? j = none := by
  simp only [tagged]
  split
  · split
    · rename_i name' x heq
      exact absurd (heq ▸ rfl) (h x)
    · rfl
  · rfl

theorem eventOf_screens (h : f.Screens loose raw) :
    (eventOf f).Screens (eventOf loose) (Event.map raw) where
  shape_eq := congrArg (fun s ↦ Shape.join [s, _, _, _, _]) (h.tagged "Deposit").shape_eq
  ofJson?_iff j e := by
    simp only [eventOf]
    by_cases hj : ∃ x, j = object [(some "Deposit", x)]
    · obtain ⟨x, rfl⟩ := hj
      have hother {γ : Type} {name : String} {g : Format γ} (hname : "Deposit" ≠ name) :
          (tagged name g).ofJson? (object [(some "Deposit", x)]) = none :=
        tagged_of_ne fun y hy ↦ hname (by cases hy; rfl)
      rw [validatorSetUpdated, batchExecuted, adminChanged, upgraded, hother (by decide),
        hother (by decide), hother (by decide), hother (by decide)]
      simp only [Option.map_none, Option.orElse_eq_orElse, Option.orElse_eq_or, Option.or_none,
        Option.map_eq_some_iff]
      constructor
      · rintro ⟨d, hd, rfl⟩
        exact ⟨raw d, ((h.tagged _).ofJson?_iff _ d).1 hd, rfl⟩
      · rintro ⟨r, hr, he⟩
        cases e with
        | deposit d =>
          cases he
          exact ⟨d, ((h.tagged _).ofJson?_iff _ d).2 hr, rfl⟩
        | _ => cases he
    · have hdeposit {γ : Type} {g : Format γ} : (tagged "Deposit" g).ofJson? j = none :=
        tagged_of_ne fun x hx ↦ hj ⟨x, hx⟩
      rw [depositEvent, depositEvent, hdeposit, hdeposit]
      simp only [Option.map_none, Option.orElse_eq_orElse, Option.orElse_eq_or, Option.none_or]
      -- the first reading that succeeds is the same on both sides
      rcases validatorSetUpdated.ofJson? j with _ | p
      · rcases batchExecuted.ofJson? j with _ | p
        · rcases adminChanged.ofJson? j with _ | p
          · rcases upgraded.ofJson? j with _ | version
            · simp
            · cases e <;> simp [Event.map]
          · cases e <;> simp [Event.map]
        · cases e <;> simp [Event.map]
      · cases e <;> simp [Event.map]

theorem event_screens : event.Screens looseEvent Event.fields :=
  eventOf_screens deposit_screens

end Format

end TokenBridge.Json

namespace TokenBridge

/-- Whatever is decoded was admitted by the same rules as what is built, and what breaks one of them
is refused, in bytes and in texts and wherever it stands in a record. -/
theorem decoders_admit :
    ((∀ word, (∃ id, BridgeId.ofWord word = .ok id) ↔ BridgeId.Admissible word) ∧
      (∀ basisPoints, (∃ t, PowerThreshold.ofBasisPoints basisPoints = .ok t) ↔
        PowerThreshold.Admissible basisPoints) ∧
      (∀ bytes, (∃ d, Destination.ofBytes bytes = .ok d) ↔ Destination.Admissible bytes) ∧
      (∀ members, (∃ vs, ValidatorSet.ofList members = .ok vs) ↔ ValidatorSet.Admissible members) ∧
      ∀ vs : ValidatorSet,
        vs.totalPower.toNat = ((vs.members.map (·.power)).map UInt64.toNat).sum) ∧
    (Admits Borsh.Format.bridgeId.read? Borsh.Format.word.read? (·.word) BridgeId.Admissible ∧
      Admits Borsh.Format.threshold.read? Borsh.Format.uint32.read? (·.basisPoints)
        PowerThreshold.Admissible ∧
      Admits Borsh.Format.validatorSet.read? (Borsh.Format.list .validator).read? (·.members)
        ValidatorSet.Admissible ∧
      Admits Borsh.Format.destination.read? (Borsh.Format.list .byte).read? (·.bytes)
        Destination.Admissible ∧
      Admits Borsh.Format.checkpoint.read? Borsh.Format.looseCheckpoint.read? Checkpoint.fields
        Checkpoint.Admissible ∧
      Admits Borsh.Format.deposit.read? Borsh.Format.looseDeposit.read? Deposit.fields
        Deposit.Admissible ∧
      Admits Borsh.Format.event.read? Borsh.Format.looseEvent.read? Event.fields
        Event.Admissible ∧
      Admits Borsh.Format.registry.read? Borsh.Format.looseRegistry.read? Registry.fields
        Registry.Admissible ∧
      Admits Borsh.Format.state.read? Borsh.Format.looseState.read? BridgeState.fields
        BridgeState.Admissible) ∧
    (Admits Json.Format.bridgeId.ofText? Json.Format.word.ofText? (·.word) BridgeId.Admissible ∧
      Admits Json.Format.threshold.ofText? Json.Format.uint32.ofText? (·.basisPoints)
        PowerThreshold.Admissible ∧
      Admits Json.Format.validatorSet.ofText? (Json.Format.list .validator).ofText? (·.members)
        ValidatorSet.Admissible ∧
      Admits Json.Format.destination.ofText? (Json.Format.list .byte).ofText? (·.bytes)
        Destination.Admissible ∧
      Admits Json.Format.checkpoint.ofText? Json.Format.looseCheckpoint.ofText? Checkpoint.fields
        Checkpoint.Admissible ∧
      Admits Json.Format.deposit.ofText? Json.Format.looseDeposit.ofText? Deposit.fields
        Deposit.Admissible ∧
      Admits Json.Format.event.ofText? Json.Format.looseEvent.ofText? Event.fields
        Event.Admissible) := by
  refine ⟨⟨fun word ↦ ?_, fun basisPoints ↦ ?_, fun bytes ↦ ?_, fun members ↦ ?_, fun vs ↦ ?_⟩,
    ?_, ?_⟩
  · simp only [BridgeId.ofWord_eq_ok_iff, BridgeId.admissible_iff]
  · simp only [PowerThreshold.ofBasisPoints_eq_ok_iff, PowerThreshold.admissible_iff]
  · simp only [Destination.ofBytes_eq_ok_iff, Destination.admissible_iff]
  · simp only [ValidatorSet.ofList_eq_ok_iff, ValidatorSet.admissible_iff]
  · rw [vs.toNat_totalPower, Validator.totalPower_eq_sum]
  · exact ⟨Borsh.Format.bridgeId_screens.admits BridgeId.admissible_iff,
      Borsh.Format.threshold_screens.admits PowerThreshold.admissible_iff,
      Borsh.Format.validatorSet_screens.admits ValidatorSet.admissible_iff,
      Borsh.Format.destination_screens.admits Destination.admissible_iff,
      Borsh.Format.checkpoint_screens.admits Checkpoint.admissible_iff,
      Borsh.Format.deposit_screens.admits Deposit.admissible_iff,
      Borsh.Format.event_screens.admits Event.admissible_iff,
      Borsh.Format.registry_screens.admits Registry.admissible_iff,
      Borsh.Format.state_screens.admits BridgeState.admissible_iff⟩
  · exact ⟨Json.Format.bridgeId_screens.admits BridgeId.admissible_iff,
      Json.Format.threshold_screens.admits PowerThreshold.admissible_iff,
      Json.Format.validatorSet_screens.admits ValidatorSet.admissible_iff,
      Json.Format.destination_screens.admits Destination.admissible_iff,
      Json.Format.checkpoint_screens.admits Checkpoint.admissible_iff,
      Json.Format.deposit_screens.admits Deposit.admissible_iff,
      Json.Format.event_screens.admits Event.admissible_iff⟩

/-- One basis point more than the whole. -/
example : Json.Format.uint32.ofText? " 10001" = some 10001 ∧
    Json.Format.threshold.ofText? " 10001" = none := by decide +kernel

end TokenBridge
