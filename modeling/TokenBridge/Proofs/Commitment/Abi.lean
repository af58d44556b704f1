import TokenBridge.Abi
import TokenBridge.UInt256

namespace TokenBridge

theorem Address.toAddress_toWord (a : Address) : a.toWord.toAddress = a := by
  apply FixedBytes.ext
  change (List.replicate (32 - a.bytes.length) 0 ++ a.bytes).drop 12 = a.bytes
  rw [a.length_bytes]
  exact List.drop_left' List.length_replicate

theorem Address.toWord_inj {a b : Address} : a.toWord = b.toWord ↔ a = b := by
  constructor
  · intro h
    rw [← toAddress_toWord a, h, toAddress_toWord]
  · exact congrArg toWord

theorem UInt256.toWord_inj {a b : UInt256} : a.toWord = b.toWord ↔ a = b := by
  constructor
  · intro h
    have hnat := congrArg FixedBytes.toNat h
    rw [toWord, toWord, FixedBytes.toNat_ofNat a.toNat_lt,
      FixedBytes.toNat_ofNat b.toNat_lt] at hnat
    exact UInt256.ext hnat
  · exact congrArg toWord

namespace Abi

theorem wordOfNat_toNat_inj {a b : UInt64} : wordOfNat a.toNat = wordOfNat b.toNat ↔ a = b := by
  constructor
  · intro h
    have hword : (UInt256.ofUInt64 a).toWord = (UInt256.ofUInt64 b).toWord := h
    exact UInt64.toNat_inj.1 (congrArg UInt256.toNat (UInt256.toWord_inj.1 hword))
  · intro h
    rw [h]

theorem flatMap_bytes_inj {first second : List Word} :
    first.flatMap (·.bytes) = second.flatMap (·.bytes) ↔ first = second := by
  constructor
  · intro h
    induction first generalizing second with
    | nil =>
      cases second with
      | nil => rfl
      | cons w rest =>
        have := congrArg List.length h
        simp only [List.flatMap_nil, List.flatMap_cons, List.length_append, w.length_bytes,
          List.length_nil] at this
        omega
    | cons v first ih =>
      cases second with
      | nil =>
        have := congrArg List.length h
        simp only [List.flatMap_nil, List.flatMap_cons, List.length_append, v.length_bytes,
          List.length_nil] at this
        omega
      | cons w second =>
        rw [List.flatMap_cons, List.flatMap_cons] at h
        obtain ⟨hhead, hrest⟩ := List.append_inj h (by rw [v.length_bytes, w.length_bytes])
        rw [FixedBytes.ext hhead, ih hrest]
  · intro h
    rw [h]

def Value.length? : Value → Option Nat
  | word _ => none
  | words ws => some ws.length

theorem length_heads (offset : Nat) (values : List Value) :
    (heads offset values).length = values.length := by
  induction values generalizing offset with
  | nil => rfl
  | cons value rest ih => cases value <;> simp [heads, ih]

theorem length_encodeWords (values : List Value) :
    (encodeWords values).length = values.length + (values.flatMap Value.tail).length := by
  rw [encodeWords, List.length_append, length_heads]

theorem eq_of_heads_of_tails {values values' : List Value} {offset : Nat}
    (hshape : values.map Value.length? = values'.map Value.length?)
    (hheads : heads offset values = heads offset values')
    (htails : values.flatMap Value.tail = values'.flatMap Value.tail) : values = values' := by
  induction values generalizing values' offset with
  | nil => exact (List.map_eq_nil_iff.1 hshape.symm).symm
  | cons value rest ih =>
    cases values' with
    | nil => cases hshape
    | cons value' rest' =>
      rw [List.map_cons, List.map_cons, List.cons.injEq] at hshape
      obtain ⟨hfirst, hshape⟩ := hshape
      cases value with
      | word w =>
        cases value' with
        | word w' =>
          obtain ⟨hw, hrest⟩ := List.cons.inj hheads
          rw [hw, ih hshape hrest htails]
        | words ws' => cases hfirst
      | words ws =>
        cases value' with
        | word w' => cases hfirst
        | words ws' =>
          have hlength : ws.length = ws'.length := Option.some.inj hfirst
          obtain ⟨_, hheads⟩ := List.cons.inj hheads
          rw [List.flatMap_cons, List.flatMap_cons] at htails
          obtain ⟨htail, hrest⟩ := List.append_inj htails (by simp [Value.tail, hlength])
          obtain ⟨_, hws⟩ := List.cons.inj htail
          rw [hws, ih hshape (hlength ▸ hheads) hrest]

/-- Parameters of one shape can be told apart by their encodings. -/
theorem eq_of_encodeWords {values values' : List Value}
    (hshape : values.map Value.length? = values'.map Value.length?)
    (h : encodeWords values = encodeWords values') : values = values' := by
  have hlength : values.length = values'.length := by
    simpa only [List.length_map] using congrArg List.length hshape
  rw [encodeWords, encodeWords, hlength] at h
  obtain ⟨hheads, htails⟩ := List.append_inj h (by rw [length_heads, length_heads, hlength])
  exact eq_of_heads_of_tails hshape hheads htails

end Abi

end TokenBridge
