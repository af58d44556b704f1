import TokenBridge.Proofs.Borsh.Values
import TokenBridge.Proofs.Table

namespace TokenBridge.Borsh.Format

open Ranked (rank)

variable {α β γ κ ν : Type}

theorem via_via (f : Format α) (build : α → β) (raw : β → α) (build' : β → γ) (raw' : γ → β) :
    (f.via build raw).via build' raw' = f.via (build' ∘ build) (raw ∘ raw') := by
  rw [via, via, via, Format.mk.injEq]
  refine ⟨rfl, funext fun input ↦ ?_⟩
  simp only [decodeAs]
  cases f.decode input <;> rfl

theorem pair_via (f : Format α) (g : Format β) (build : β → γ) (raw : γ → β) :
    f.pair (g.via build raw) = (f.pair g).via (Prod.map id build) (Prod.map id raw) := by
  rw [pair, via, via, Format.mk.injEq]
  refine ⟨rfl, funext fun input ↦ ?_⟩
  simp only [pair, decodeAs]
  cases f.decode input with
  | error e => rfl
  | ok first =>
    cases hg : g.decode first.2 with
    | error e => simp only [hg]
    | ok second => simp only [hg, Prod.map, id_eq]

theorem read_via (f : Format α) (build : α → β) (raw : β → α) (input : Bytes) :
    (f.via build raw).read input = (f.read input).map build := by
  simp only [read, via, decodeAs]
  rcases f.decode input with e | ⟨a, _ | ⟨b, rest⟩⟩ <;> rfl

/-- Entries that stand in strictly increasing order of their keys, as the bytes of these are
compared. -/
def Ascending (key : Format κ) (entries : List (κ × ν)) : Prop :=
  entries.Pairwise fun a b ↦ key.encode a.1 < key.encode b.1

/-- Keys of one length that are written with their high byte first. -/
def Ordered [Ranked κ] (key : Format κ) (length : Nat) : Prop :=
  ∀ k, (key.encode k).length = length ∧ rank k = Bytes.toNatBE (key.encode k)

theorem fixed_ordered (n : Nat) : (fixed n).Ordered n := fun a ↦ ⟨a.length_bytes, rfl⟩

theorem pair_fixed_ordered (m n : Nat) : ((fixed m).pair (fixed n)).Ordered (m + n) := by
  intro p
  constructor
  · rw [pair, List.length_append, (fixed_ordered m p.1).1, (fixed_ordered n p.2).1]
  · rw [pair, Bytes.toNatBE_append, (fixed_ordered n p.2).1]
    rfl

theorem Ordered.ascending_iff [Ranked κ] {key : Format κ} {length : Nat} (h : key.Ordered length)
    {entries : List (κ × ν)} :
    Ascending key entries ↔ entries.Pairwise fun a b ↦ rank a.1 < rank b.1 := by
  have hiff (a b : κ) : key.encode a < key.encode b ↔ rank a < rank b := by
    rw [(h a).2, (h b).2, Bytes.toNatBE_lt_iff ((h a).1.trans (h b).1.symm)]
  simp only [Ascending, hiff]

/-- A map is part of the values. The same bytes are read as `listed`, with the `entries` that stand
there for the map: in strict order where the value was written, in any order and with keys more than
once where it is read. Writing what was read puts the entries in order, and keeps for each key what
its last entry says. -/
structure Persists [DecidableEq κ] (f : Format α) (P : α → Prop) (listed : Format β)
    (key : Format κ) (entries : β → List (κ × ν)) (find : α → κ → ν) (absent : ν) : Prop where
  written : ∀ a, P a → ∃ b, listed.read (f.encode a) = .ok b ∧ Ascending key (entries b)
  recovered : ∀ a, P a → f.read (f.encode a) = .ok a
  accepted : ∀ input, (∃ a, f.read input = .ok a) ↔ ∃ b, listed.read input = .ok b
  normalized : ∀ input a, f.read input = .ok a → ∃ b, listed.read input = .ok b ∧
    f.read (f.encode a) = .ok a ∧ (f.encode a = input ↔ Ascending key (entries b)) ∧
    ∀ k, find a k = (Table.latest? k (entries b)).getD absent

section

variable [DecidableEq κ] [Ranked κ] {listed : Format β} {key : Format κ} {length : Nat}
  {entries : β → List (κ × ν)} {build : β → α} {raw : α → β} {P : α → Prop} {Q : β → Prop}
  {absent : ν}

theorem Canonical.persists (tableOf : α → Table κ ν) (h : listed.Canonical Q)
    (hkey : key.Ordered length)
    (hbuild : ∀ a, build (raw a) = a) (hP : ∀ a, P a → Q (raw a))
    (hQ : ∀ b, Q b → Q (raw (build b)))
    (htable : ∀ b, tableOf (build b) = Table.ofList (entries b))
    (hentries : ∀ a, entries (raw a) = (tableOf a).entries)
    (hraw : ∀ b, entries (raw (build b)) = entries b → raw (build b) = b) :
    (listed.via build raw).Persists P listed key entries
      (fun a k ↦ ((tableOf a).get? k).getD absent) absent := by
  have hself := h.selfDelimiting
  have hrecovered (a : α) (ha : Q (raw a)) :
      (listed.via build raw).read (listed.encode (raw a)) = .ok a := by
    rw [read_via, hself.read_encode _ ha, Except.map, hbuild]
  refine ⟨fun a ha ↦ ?_, fun a ha ↦ hrecovered a (hP a ha), fun input ↦ ?_, fun input a ha ↦ ?_⟩
  · refine ⟨raw a, hself.read_encode _ (hP a ha), hkey.ascending_iff.2 ?_⟩
    rw [hentries]
    exact (tableOf a).sorted
  · rw [read_via]
    cases listed.read input <;> simp [Except.map]
  · rw [read_via] at ha
    cases hb : listed.read input with
    | error e =>
      rw [hb] at ha
      cases ha
    | ok b =>
      rw [hb] at ha
      cases ha
      have hqb : Q b := (h.consumes (decode_of_read hb)).1
      have hinput : listed.encode b = input := hself.encode_of_read _ _ hb
      refine ⟨b, rfl, hrecovered _ (hQ b hqb), ?_, fun k ↦ ?_⟩
      · -- both are encodings, so that they are equal only as encodings of the same entries
        rw [hkey.ascending_iff, ← Table.entries_ofList_iff, ← htable, ← hentries]
        constructor
        · intro hencode
          have hread := hself.read_encode _ (hQ b hqb)
          rw [show listed.encode (raw (build b)) = input from hencode, hb] at hread
          exact congrArg entries (Except.ok.inj hread).symm
        · intro hsorted
          exact (congrArg listed.encode (hraw b hsorted)).trans hinput
      · rw [htable, Table.get?_ofList]

end

def listedBalances : Format (List ((Address × Address) × UInt256)) :=
  list (pair (pair address address) uint256)

def listedNonces : Format (List (Address × UInt64)) := list (pair address uint64)

def listedState : Format (Registry × Ledger × List (Address × UInt64)) :=
  pair registry (pair ledger listedNonces)

theorem executor_eq : executor =
    listedNonces.via (fun entries ↦ ⟨Table.ofList entries⟩) (·.lastNonces.entries) :=
  via_via _ _ _ _ _

theorem balances_eq : balances =
    listedBalances.via (fun entries ↦ ⟨Table.ofList entries⟩) (·.table.entries) :=
  via_via _ _ _ _ _

theorem state_eq : state =
    listedState.via (fun (registry, ledger, entries) ↦ ⟨registry, ledger, ⟨Table.ofList entries⟩⟩)
      fun s ↦ (s.registry, s.ledger, s.executor.lastNonces.entries) := by
  rw [state, executor_eq, pair_via, pair_via, via_via]
  rfl

theorem listedNonces_canonical :
    listedNonces.Canonical fun entries ↦ entries.length < UInt32.size :=
  (address_total.pair uint64_total).list

theorem listedBalances_canonical :
    listedBalances.Canonical fun entries ↦ entries.length < UInt32.size :=
  ((address_total.pair address_total).pair uint256_total).list

theorem listedState_canonical : listedState.Canonical fun fields ↦
    fields.1.validators.members.length < UInt32.size ∧ fields.2.2.length < UInt32.size := by
  have hfields :=
    Canonical.pair registry_canonical (Canonical.pair ledger_total listedNonces_canonical)
  exact hfields.of_iff fun _ ↦ by simp

/-- Balances, the nonces of batches and the whole state of a bridge survive being written and read,
whatever the size of their maps, up to the one that the count in front of them can tell. -/
theorem tables_persist :
    balances.Persists (fun b ↦ b.table.entries.length < UInt32.size) listedBalances
      (pair address address) id (fun b k ↦ b.balance k.1 k.2) .zero ∧
    executor.Persists (fun x ↦ x.lastNonces.entries.length < UInt32.size) listedNonces
      address id Executor.lastNonce 0 ∧
    state.Persists (fun s ↦ s.registry.validators.members.length < UInt32.size ∧
        s.executor.lastNonces.entries.length < UInt32.size) listedState
      address (·.2.2) (fun s ↦ s.executor.lastNonce) 0 := by
  have hlength {κ ν : Type} [Ranked κ] (entries : List (κ × ν))
      (h : entries.length < UInt32.size) : (Table.ofList entries).entries.length < UInt32.size :=
    Nat.lt_of_le_of_lt (Table.length_ofList_le entries) h
  refine ⟨?_, ?_, ?_⟩
  · rw [balances_eq]
    exact listedBalances_canonical.persists Balances.table (pair_fixed_ordered 20 20)
      (fun b ↦ congrArg Balances.mk b.table.ofList_entries) (fun _ h ↦ h) hlength (fun _ ↦ rfl)
      (fun _ ↦ rfl) fun _ h ↦ h
  · rw [executor_eq]
    exact listedNonces_canonical.persists Executor.lastNonces (fixed_ordered 20)
      (fun x ↦ congrArg Executor.mk x.lastNonces.ofList_entries) (fun _ h ↦ h) hlength (fun _ ↦ rfl)
      (fun _ ↦ rfl) fun _ h ↦ h
  · rw [state_eq]
    exact listedState_canonical.persists (fun s : BridgeState ↦ s.executor.lastNonces)
      (fixed_ordered 20) (fun s ↦ by simp only [Table.ofList_entries]) (fun _ h ↦ h)
      (fun _ h ↦ ⟨h.1, hlength _ h.2⟩) (fun _ ↦ rfl) (fun _ ↦ rfl)
      fun _ h ↦ Prod.ext rfl (Prod.ext rfl h)

def scrambledNonces : List (Address × UInt64) :=
  [(FixedBytes.ofNat 20 2, 5), (FixedBytes.ofNat 20 1, 7), (FixedBytes.ofNat 20 2, 9)]

/-- Entries out of order, and two for one token. -/
theorem tables_persist_scrambled :
    ∃ x, executor.read (listedNonces.encode scrambledNonces) = .ok x ∧
      x.lastNonces.entries.length < UInt32.size ∧
      x.lastNonce (FixedBytes.ofNat 20 1) = 7 ∧ x.lastNonce (FixedBytes.ofNat 20 2) = 9 ∧
      x.lastNonce (FixedBytes.ofNat 20 3) = 0 ∧
      executor.encode x ≠ listedNonces.encode scrambledNonces ∧
      executor.read (executor.encode x) = .ok x := by
  obtain ⟨_, nonces, _⟩ := tables_persist
  have hlisted : listedNonces.read (listedNonces.encode scrambledNonces) = .ok scrambledNonces :=
    listedNonces_canonical.selfDelimiting.read_encode _ (by decide)
  obtain ⟨x, hx⟩ := (nonces.accepted _).2 ⟨_, hlisted⟩
  obtain ⟨entries, hentries, _, hsame, hfind⟩ := nonces.normalized _ _ hx
  obtain rfl : entries = scrambledNonces := Except.ok.inj (hentries.symm.trans hlisted)
  have hlength : x.lastNonces.entries.length < UInt32.size := by
    rw [executor_eq, read_via, hlisted] at hx
    cases hx
    decide +kernel
  have hscrambled : ¬ Ascending address scrambledNonces := by
    unfold Ascending
    decide +kernel
  exact ⟨x, hx, hlength, hfind _, hfind _, hfind _, fun h ↦ hscrambled (hsame.1 h),
    nonces.recovered x hlength⟩

end TokenBridge.Borsh.Format
