import TokenBridge.Event.Basic
import TokenBridge.Executor
import TokenBridge.Gate
import TokenBridge.Ledger

namespace TokenBridge

structure BridgeState where
  registry : Registry
  ledger : Ledger
  executor : Executor
deriving DecidableEq

def BridgeState.new (registry : Registry) : BridgeState := ⟨registry, .empty, .empty⟩

/-- A bridge with its funds. A call that fails leaves it as it was, and one that succeeds adds one
event to its journal. -/
structure Bridge (C : Type) where
  account : Address
  gate : Gate
  state : Option BridgeState
  custody : C
  journal : List Event
deriving DecidableEq

namespace Bridge

variable {C : Type}

def new (account admin : Address) (custody : C) : Bridge C := ⟨account, .new admin, none, custody, []⟩

variable (b : Bridge C)

def ready : Except BridgeError BridgeState :=
  match b.state with
  | some state => .ok state
  | none => .error .notInitialized

/-- Runs a call on copies of the state and the custody, which take their places only if it
succeeds. -/
def transact {α : Type} (entry : EntryPoint)
    (body : BridgeState → C → Except BridgeError (α × Event) × BridgeState × C) :
    Except BridgeError α × Bridge C :=
  match b.gate.ensureSupported entry with
  | .error e => (.error e, b)
  | .ok () =>
    match b.ready with
    | .error e => (.error e, b)
    | .ok state =>
      match body state b.custody with
      | (.error e, _, _) => (.error e, b)
      | (.ok (answer, event), state, custody) =>
        (.ok answer, { b with state := some state, custody, journal := b.journal ++ [event] })

def start (id : BridgeId) (threshold : UInt32) (addresses : List Address)
    (powers : List UInt64) : Except BridgeError Checkpoint × Bridge C :=
  match b.gate.ensureSupported .start with
  | .error e => (.error e, b)
  | .ok () =>
    if b.state.isSome then (.error .alreadyInitialized, b)
    else
      match PowerThreshold.ofBasisPoints threshold with
      | .error e => (.error (.quorum e), b)
      | .ok threshold =>
        match ValidatorSet.ofParts addresses powers with
        | .error e => (.error (.quorum e), b)
        | .ok vs =>
          let registry := Registry.genesis id threshold vs
          let event := Event.validatorSetUpdated registry.checkpoint.commitment registry.nonce
          (.ok registry.checkpoint,
            { b with state := some (.new registry), journal := b.journal ++ [event] })

section

variable [Custody C]

def recordDeposit (account sender token : Address) (destination : Bytes) (amount : UInt256)
    (state : BridgeState) (custody : C) : Except BridgeError (Deposit × Event) × BridgeState × C :=
  match Destination.ofBytes destination with
  | .error e => (.error (.data e), state, custody)
  | .ok destination =>
    if amount = .zero then (.error .zeroAmount, state, custody)
    else if sender = account then (.error (.selfDeposit sender), state, custody)
    else
      match Custody.transfer custody token sender account amount with
      | (.error e, custody) => (.error (.custody e), state, custody)
      | (.ok (), custody) =>
        match state.ledger.record token sender destination amount with
        | (.error e, ledger) => (.error e, { state with ledger }, custody)
        | (.ok record, ledger) =>
          (.ok (record, .deposit record), { state with ledger }, custody)

def deposit (sender token : Address) (destination : Bytes) (amount : UInt256) :
    Except BridgeError Deposit × Bridge C :=
  b.transact .deposit (recordDeposit b.account sender token destination amount)

def settle (account relayer : Address) (batch : Batch) (signatures : SignatureSet)
    (state : BridgeState) (custody : C) : Except BridgeError (Unit × Event) × BridgeState × C :=
  match state.executor.execute state.registry batch signatures custody account relayer with
  | (.error e, executor, custody) => (.error e, { state with executor }, custody)
  | (.ok (), executor, custody) =>
    (.ok ((), .batchExecuted batch.token batch.nonce), { state with executor }, custody)

def executeBatch (relayer : Address) (batch : Batch) (signatures : SignatureSet) :
    Except BridgeError Unit × Bridge C :=
  b.transact .submitBatch (settle b.account relayer batch signatures)

def submitBatch (relayer token : Address) (payouts : List Payout) (nonce : UInt64)
    (signatures : SignatureSet) : Except BridgeError Unit × Bridge C :=
  match Batch.ofPayouts token payouts nonce with
  | .error e => (.error (.data e), b)
  | .ok batch => b.executeBatch relayer batch signatures

end

def replaceSet (addresses : List Address) (powers : List UInt64) (nonce : UInt64)
    (signatures : SignatureSet) (state : BridgeState) (custody : C) :
    Except BridgeError (Checkpoint × Event) × BridgeState × C :=
  match ValidatorSet.ofParts addresses powers with
  | .error e => (.error (.quorum e), state, custody)
  | .ok vs =>
    match state.registry.rotate vs nonce signatures with
    | (.error e, registry) => (.error e, { state with registry }, custody)
    | (.ok checkpoint, registry) =>
      (.ok (checkpoint, .validatorSetUpdated checkpoint.commitment checkpoint.nonce),
        { state with registry }, custody)

def rotate (addresses : List Address) (powers : List UInt64) (nonce : UInt64)
    (signatures : SignatureSet) : Except BridgeError Checkpoint × Bridge C :=
  b.transact .rotate (replaceSet addresses powers nonce signatures)

def changeAdmin (caller new : Address) : Except BridgeError Unit × Bridge C :=
  match b.gate.changeAdmin caller new with
  | (.error e, gate) => (.error e, { b with gate })
  | (.ok previous, gate) =>
    (.ok (), { b with gate, journal := b.journal ++ [.adminChanged previous new] })

def checkState : Except BridgeError Unit :=
  match b.state with
  | none => .ok ()
  | some state =>
    match state.registry.check with
    | .ok () => .ok ()
    | .error cause => .error (.inconsistent cause)

def upgrade (caller : Address) (version : Implementation) : Except BridgeError Unit × Bridge C :=
  match b.gate.upgrade caller version with
  | (.error e, _) => (.error e, b)
  | (.ok (), gate) =>
    match b.checkState with
    | .error e => (.error e, b)
    | .ok () => (.ok (), { b with gate, journal := b.journal ++ [.upgraded version.number] })

def probe : Except BridgeError String :=
  match b.gate.ensureSupported .probe with
  | .error e => .error e
  | .ok () => .ok "bridge upgrade is successful"

def takeEvents : List Event × Bridge C := (b.journal, { b with journal := [] })

def lastBatchNonce (token : Address) : Except BridgeError UInt64 :=
  b.ready.map (·.executor.lastNonce token)

def lastDepositNonce : Except BridgeError UInt64 := b.ready.map (·.ledger.lastNonce)

def bridgeId : Except BridgeError BridgeId := b.ready.map (·.registry.bridgeId)

def threshold : Except BridgeError PowerThreshold := b.ready.map (·.registry.threshold)

def validators : Except BridgeError ValidatorSet := b.ready.map (·.registry.validators)

def totalPower : Except BridgeError UInt64 := b.ready.map (·.registry.totalPower)

end Bridge

end TokenBridge
