import TokenBridge.Proofs.Commitment.Binding
import TokenBridge.Proofs.Event.Log

namespace TokenBridge

namespace Abi

inductive WordType where
  | bytes32
  | uint256
  | address

inductive ParamType where
  | one (t : WordType)
  | list (t : WordType)

namespace WordType

abbrev Val : WordType → Type
  | bytes32 => Word
  | uint256 => UInt256
  | address => Address

def toWord : (t : WordType) → t.Val → Word
  | bytes32, w => w
  | uint256, n => UInt256.toWord n
  | address, a => Address.toWord a

def ofWord? : (t : WordType) → Word → Option t.Val
  | bytes32, w => some w
  | uint256, w => some w.toUInt256
  | address, w => if w.bytes.take 12 = List.replicate 12 0 then some w.toAddress else none

theorem ofWord?_toWord (t : WordType) (v : t.Val) : t.ofWord? (t.toWord v) = some v := by
  cases t with
  | bytes32 => rfl
  | uint256 => exact congrArg some (UInt256.toUInt256_toWord v)
  | address =>
    have hzeros : (Address.toWord v).bytes.take 12 = List.replicate 12 0 := by
      change (List.replicate (32 - (FixedBytes.bytes v).length) 0 ++ _).take 12 = _
      rw [FixedBytes.length_bytes v]
      exact List.take_left' List.length_replicate
    rw [toWord, ofWord?, if_pos hzeros]
    exact congrArg some (Address.toAddress_toWord v)

theorem mapM_ofWord? (t : WordType) (vs : List t.Val) :
    (vs.map t.toWord).mapM t.ofWord? = some vs := by
  induction vs with
  | nil => rfl
  | cons v vs ih =>
    rw [List.map_cons, List.mapM_cons, t.ofWord?_toWord, ih]
    rfl

end WordType

abbrev ParamType.Val : ParamType → Type
  | one t => t.Val
  | list t => List t.Val

def ParamType.value : (p : ParamType) → p.Val → Value
  | one t, v => .word (t.toWord v)
  | list t, vs => .words (List.map t.toWord vs)

abbrev Arguments : List ParamType → Type
  | [] => Unit
  | p :: rest => p.Val × Arguments rest

namespace Arguments

def values : {types : List ParamType} → Arguments types → List Value
  | [], () => []
  | p :: _, (v, rest) => p.value v :: values rest

def tails {types : List ParamType} (args : Arguments types) : List Word :=
  args.values.flatMap Value.tail

theorem length_values {types : List ParamType} (args : Arguments types) :
    args.values.length = types.length := by
  induction types with
  | nil => rfl
  | cons p rest ih => exact congrArg (· + 1) (ih args.2)

theorem values_cons {p : ParamType} {rest : List ParamType} (args : Arguments (p :: rest)) :
    args.values = p.value args.1 :: args.2.values := rfl

theorem tails_cons {p : ParamType} {rest : List ParamType} (args : Arguments (p :: rest)) :
    args.tails = (p.value args.1).tail ++ args.2.tails := rfl

end Arguments

def wordAt? (data : Bytes) (position : Nat) : Option Word :=
  FixedBytes.ofBytes? ((data.drop position).take 32)

/-- Reads the parameter whose head stands at a position. An offset counts from the start of the
data, and what stands there is a length and as many words. The positions of all bytes that are read
behind the heads come with the value. -/
def readParam? (data : Bytes) : (p : ParamType) → (position : Nat) → Option (p.Val × List Nat)
  | .one t, position => do
    let w ← wordAt? data position
    let v ← t.ofWord? w
    some (v, [])
  | .list t, position => do
    let offset ← wordAt? data position
    let length ← wordAt? data offset.toNat
    let ws ← readWords? length.toNat (data.drop (offset.toNat + 32))
    let vs ← ws.mapM t.ofWord?
    some (vs, List.range' offset.toNat (32 * (length.toNat + 1)))

def readFrom? (data : Bytes) : (types : List ParamType) → (position : Nat) →
    Option (Arguments types × List Nat)
  | [], _ => some ((), [])
  | p :: rest, position => do
    let (v, seen) ← readParam? data p position
    let (vs, later) ← readFrom? data rest (position + 32)
    some ((v, vs), seen ++ later)

def read? (types : List ParamType) (data : Bytes) : Option (Arguments types × List Nat) :=
  readFrom? data types 0

def Value.head (offset : Nat) : Value → Word
  | word w => w
  | words _ => wordOfNat offset

theorem heads_cons (offset : Nat) (value : Value) (rest : List Value) :
    heads offset (value :: rest) =
      value.head offset :: heads (offset + 32 * value.tail.length) rest := by
  cases value <;> rfl

theorem toNat_wordOfNat_of_lt {n : Nat} (h : n < UInt256.size) : (wordOfNat n).toNat = n :=
  FixedBytes.toNat_ofNat h

theorem length_flatMap_bytes (ws : List Word) :
    (ws.flatMap (·.bytes)).length = 32 * ws.length := by
  induction ws with
  | nil => rfl
  | cons w ws ih =>
    rw [List.flatMap_cons, List.length_append, w.length_bytes, ih, List.length_cons]
    omega

section

variable {ws front behind before after : List Word} {offset position : Nat}

theorem drop_flatMap_bytes (h : ws = before ++ after) (hposition : position = 32 * before.length) :
    (ws.flatMap (·.bytes)).drop position = after.flatMap (·.bytes) := by
  rw [h, hposition, List.flatMap_append, List.drop_left' (length_flatMap_bytes before)]

theorem wordAt?_flatMap {w : Word} (h : ws = before ++ w :: after) :
    wordAt? (ws.flatMap (·.bytes)) (32 * before.length) = some w := by
  rw [wordAt?, drop_flatMap_bytes h rfl, List.flatMap_cons, List.take_left' w.length_bytes,
    FixedBytes.ofBytes?_bytes]

theorem readParam?_one {t : WordType} {v : t.Val} (hhead : ws = front ++ t.toWord v :: behind) :
    readParam? (ws.flatMap (·.bytes)) (.one t) (32 * front.length) = some (v, []) := by
  simp only [readParam?, wordAt?_flatMap hhead, Option.bind_eq_bind, Option.bind_some,
    t.ofWord?_toWord]

theorem readParam?_list {t : WordType} {vs : List t.Val} (hbefore : before.length = offset)
    (hhead : ws = front ++ wordOfNat (32 * offset) :: behind)
    (htail : ws = before ++ wordOfNat vs.length :: (vs.map t.toWord ++ after))
    (hsize : 32 * ws.length < UInt256.size) :
    readParam? (ws.flatMap (·.bytes)) (.list t) (32 * front.length) =
      some (vs, List.range' (32 * offset) (32 * (vs.length + 1))) := by
  subst hbefore
  have hwords := congrArg List.length htail
  rw [List.length_append, List.length_cons, List.length_append, List.length_map] at hwords
  have hoffset : (wordOfNat (32 * before.length)).toNat = 32 * before.length :=
    toNat_wordOfNat_of_lt (by omega)
  have hcount : (wordOfNat vs.length).toNat = vs.length := toNat_wordOfNat_of_lt (by omega)
  have hlist : ws = (before ++ [wordOfNat vs.length]) ++ (vs.map t.toWord ++ after) := by
    rw [htail, List.append_assoc]
    rfl
  have hstart : 32 * before.length + 32 = 32 * (before ++ [wordOfNat vs.length]).length := by
    rw [List.length_append, Nat.mul_add]
    rfl
  have hread := readWords?_flatMap (vs.map t.toWord) (after.flatMap (·.bytes))
  rw [List.length_map, ← List.flatMap_append, ← drop_flatMap_bytes hlist hstart] at hread
  simp only [readParam?, wordAt?_flatMap hhead, Option.bind_eq_bind, Option.bind_some, hoffset,
    wordAt?_flatMap htail, hcount, hread, t.mapM_ofWord?]

theorem readParam?_value {p : ParamType} {v : p.Val} (hbefore : before.length = offset)
    (hhead : ws = front ++ (p.value v).head (32 * offset) :: behind)
    (htail : ws = before ++ ((p.value v).tail ++ after)) (hsize : 32 * ws.length < UInt256.size) :
    readParam? (ws.flatMap (·.bytes)) p (32 * front.length) =
      some (v, List.range' (32 * offset) (32 * (p.value v).tail.length)) := by
  cases p with
  | one t => exact readParam?_one hhead
  | list t =>
    have hlength : ((ParamType.list t).value v).tail.length = List.length v + 1 :=
      congrArg (· + 1) (List.length_map _)
    have htail : ws =
        before ++ wordOfNat (v.map t.toWord).length :: (v.map t.toWord ++ after) := htail
    rw [hlength]
    rw [List.length_map] at htail
    exact readParam?_list hbefore hhead htail hsize

end

/-- Reading may start at any parameter: `front` are the heads that have been read, `done` is what
they refer to. -/
theorem readFrom?_heads {types : List ParamType} (args : Arguments types)
    {front done ws : List Word} {offset : Nat}
    (hoffset : offset = front.length + types.length + done.length)
    (hws : ws = front ++ heads (32 * offset) args.values ++ done ++ args.tails)
    (hsize : 32 * ws.length < UInt256.size) :
    readFrom? (ws.flatMap (·.bytes)) types (32 * front.length) =
      some (args, List.range' (32 * offset) (32 * args.tails.length)) := by
  induction types generalizing front done offset with
  | nil => rfl
  | cons p rest ih =>
    have hbefore : (front ++ heads (32 * offset) args.values ++ done).length = offset := by
      rw [List.length_append, List.length_append, length_heads, args.length_values, hoffset]
    rw [args.values_cons, heads_cons, ← Nat.mul_add] at hws hbefore
    rw [args.tails_cons] at hws ⊢
    -- The head joins the heads that have been read, and the tail joins what they refer to.
    have hmoved : ws = (front ++ [(p.value args.1).head (32 * offset)]) ++
        heads (32 * (offset + (p.value args.1).tail.length)) args.2.values ++
          (done ++ (p.value args.1).tail) ++ args.2.tails := by
      simpa only [List.append_assoc, List.cons_append, List.nil_append] using hws
    have hoffset' : offset + (p.value args.1).tail.length =
        (front ++ [(p.value args.1).head (32 * offset)]).length + rest.length +
          (done ++ (p.value args.1).tail).length := by
      rw [List.length_append, List.length_append, List.length_singleton, hoffset, List.length_cons]
      omega
    have hnext : 32 * (front ++ [(p.value args.1).head (32 * offset)]).length =
        32 * front.length + 32 := by
      rw [List.length_append, Nat.mul_add]
      rfl
    have hlater := ih args.2 hoffset' hmoved
    rw [hnext] at hlater
    have hhead : ws = front ++ (p.value args.1).head (32 * offset) ::
        (heads (32 * (offset + (p.value args.1).tail.length)) args.2.values ++ done ++
          ((p.value args.1).tail ++ args.2.tails)) := by
      simpa only [List.append_assoc, List.cons_append] using hws
    have hread := readParam?_value hbefore hhead hws hsize
    simp only [readFrom?, hread, hlater, Option.bind_eq_bind, Option.bind_some]
    rw [Nat.mul_add, List.range'_append_1, ← Nat.mul_add, List.length_append]

theorem length_encode {types : List ParamType} (args : Arguments types) :
    (encode args.values).length = 32 * (types.length + args.tails.length) := by
  rw [encode, length_flatMap_bytes, length_encodeWords, args.length_values, Arguments.tails]

/-- What is encoded is read back, and the reader comes to every byte behind the heads once, from the
first to the last. -/
theorem read?_encode {types : List ParamType} (args : Arguments types)
    (hsize : (encode args.values).length < UInt256.size) :
    read? types (encode args.values) =
      some (args, List.range' (32 * types.length) (32 * args.tails.length)) := by
  rw [encode, length_flatMap_bytes] at hsize
  have hwords : encodeWords args.values =
      [] ++ heads (32 * types.length) args.values ++ [] ++ args.tails := by
    rw [encodeWords, args.length_values, List.nil_append, List.append_nil, Arguments.tails]
  exact readFrom?_heads args (by simp) hwords hsize

end Abi

theorem Validator.length_le_totalPower {members : List Validator}
    (h : ∀ v ∈ members, v.power ≠ 0) : members.length ≤ totalPower members := by
  induction members with
  | nil => exact Nat.le_refl 0
  | cons v rest ih =>
    obtain ⟨hpower, hrest⟩ := List.forall_mem_cons.1 h
    have hpos : v.power.toNat ≠ 0 := fun h0 ↦ hpower (UInt64.toNat_inj.1 h0)
    have := ih hrest
    rw [List.length_cons, totalPower]
    omega

namespace Commitment

abbrev checkpointTypes : List Abi.ParamType :=
  [.one .bytes32, .one .bytes32, .one .uint256, .list .address, .list .uint256]

def checkpointArguments (id : BridgeId) (vs : ValidatorSet) (nonce : UInt64) :
    Abi.Arguments checkpointTypes :=
  (id.word, checkpointTag, .ofUInt64 nonce, vs.addresses, vs.powers.map .ofUInt64, ())

abbrev batchTypes : List Abi.ParamType :=
  [.one .bytes32, .one .bytes32, .list .uint256, .list .address, .list .uint256, .one .uint256,
    .one .address]

def batchArguments (id : BridgeId) (batch : Batch) : Abi.Arguments batchTypes :=
  (id.word, batchTag, batch.payouts.map (·.amount), batch.payouts.map (·.destination),
    batch.payouts.map (·.fee), .ofUInt64 batch.nonce, batch.token, ())

theorem checkpointPreimage_eq (id : BridgeId) (vs : ValidatorSet) (nonce : UInt64) :
    checkpointPreimage id vs nonce = Abi.encode (checkpointArguments id vs nonce).values := by
  have hpowers : (vs.powers.map UInt256.ofUInt64).map UInt256.toWord =
      vs.powers.map fun power ↦ Abi.wordOfNat power.toNat := List.map_map
  rw [checkpointPreimage, checkpointFields, ← hpowers]
  rfl

theorem batchPreimage_eq (id : BridgeId) (batch : Batch) :
    batchPreimage id batch = Abi.encode (batchArguments id batch).values := by
  have hamounts : (batch.payouts.map (·.amount)).map UInt256.toWord =
      batch.payouts.map (·.amount.toWord) := List.map_map
  have hdestinations : (batch.payouts.map (·.destination)).map Address.toWord =
      batch.payouts.map (·.destination.toWord) := List.map_map
  have hfees : (batch.payouts.map (·.fee)).map UInt256.toWord =
      batch.payouts.map (·.fee.toWord) := List.map_map
  rw [batchPreimage, ← hamounts, ← hdestinations, ← hfees]
  rfl

theorem length_checkpointPreimage (id : BridgeId) (vs : ValidatorSet) (nonce : UInt64) :
    (checkpointPreimage id vs nonce).length = 32 * (7 + 2 * vs.members.length) := by
  rw [← Approval.length_rotation id vs nonce, ← Abi.length_flatMap_bytes]
  exact congrArg List.length (Approval.preimage_eq (.rotation id vs nonce))

theorem length_batchPreimage (id : BridgeId) (batch : Batch) :
    (batchPreimage id batch).length = 32 * (10 + 3 * batch.payouts.length) := by
  rw [← Approval.length_payment id batch, ← Abi.length_flatMap_bytes]
  exact congrArg List.length (Approval.preimage_eq (.payment id batch))

/-- Every checkpoint is short enough for its offsets, since each member of a set has some power. -/
theorem length_checkpointPreimage_lt (id : BridgeId) (vs : ValidatorSet) (nonce : UInt64) :
    (checkpointPreimage id vs nonce).length < UInt256.size := by
  have hmembers := Validator.length_le_totalPower vs.power_ne_zero
  have hpower := vs.power_lt
  have hroom : 32 * (7 + 2 * UInt64.size) < UInt256.size := by decide
  rw [length_checkpointPreimage]
  omega

/-- Who follows the offsets of what is signed finds all that is approved, with nothing between and
nothing behind it. An offset is a word, so that a longer encoding could not be followed. -/
theorem preimages_read_back (id : BridgeId) :
    (∀ vs nonce,
      (checkpointPreimage id vs nonce).length = 32 * (7 + 2 * vs.members.length) ∧
      Abi.read? checkpointTypes (checkpointPreimage id vs nonce) =
        some (checkpointArguments id vs nonce,
          List.range' (32 * 5) (32 * (2 + 2 * vs.members.length)))) ∧
    ∀ batch,
      (batchPreimage id batch).length = 32 * (10 + 3 * batch.payouts.length) ∧
      ((batchPreimage id batch).length < UInt256.size →
        Abi.read? batchTypes (batchPreimage id batch) =
          some (batchArguments id batch,
            List.range' (32 * 7) (32 * (3 + 3 * batch.payouts.length)))) := by
  refine ⟨fun vs nonce ↦ ⟨length_checkpointPreimage id vs nonce, ?_⟩,
    fun batch ↦ ⟨length_batchPreimage id batch, fun hsize ↦ ?_⟩⟩
  · have hlength := length_checkpointPreimage id vs nonce
    have hsize := length_checkpointPreimage_lt id vs nonce
    rw [checkpointPreimage_eq] at hlength hsize ⊢
    have htails : (checkpointArguments id vs nonce).tails.length = 2 + 2 * vs.members.length := by
      rw [Abi.length_encode] at hlength
      change 32 * (5 + _) = _ at hlength
      omega
    rw [Abi.read?_encode _ hsize, htails]
    rfl
  · have hlength := length_batchPreimage id batch
    rw [batchPreimage_eq] at hlength hsize ⊢
    have htails : (batchArguments id batch).tails.length = 3 + 3 * batch.payouts.length := by
      rw [Abi.length_encode] at hlength
      change 32 * (7 + _) = _ at hlength
      omega
    rw [Abi.read?_encode _ hsize, htails]
    rfl

def fares : Batch where
  token := FixedBytes.ofNat 20 0xee
  payouts := [⟨FixedBytes.ofNat 20 0x41, .ofUInt64 5, .ofUInt64 1⟩,
    ⟨FixedBytes.ofNat 20 0x42, .ofUInt64 6, .ofUInt64 2⟩]
  nonce := 9

theorem preimages_read_back_fares :
    let id : BridgeId := ⟨FixedBytes.ofNat 32 7, by decide⟩
    (batchPreimage id fares).length = 512 ∧
      Abi.read? batchTypes (batchPreimage id fares) =
        some (batchArguments id fares, List.range' 224 288) := by
  intro id
  obtain ⟨hlength, hread⟩ := (preimages_read_back id).2 fares
  have hsize : (batchPreimage id fares).length < UInt256.size := by
    rw [hlength]
    decide
  exact ⟨hlength, hread hsize⟩

end Commitment

end TokenBridge
