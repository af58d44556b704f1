import TokenBridge.Borsh.Values

namespace TokenBridge.Borsh.Format

variable {α β : Type} {f : Format α} {g : Format β}

def Recovers (f : Format α) (a : α) : Prop := ∀ rest, f.decode (f.encode a ++ rest) = .ok (a, rest)

theorem Recovers.read_encode {a : α} (h : f.Recovers a) : f.read (f.encode a) = .ok a := by
  have hnil := h []
  rw [List.append_nil] at hnil
  rw [read, hnil]

theorem take?_append {count : Nat} {front : Bytes} (h : front.length = count) (rest : Bytes) :
    take? count (front ++ rest) = some (front, rest) := by
  induction front generalizing count with
  | nil =>
    obtain rfl := h
    rfl
  | cons b front ih =>
    obtain rfl := h
    rw [List.cons_append, List.length_cons, take?, ih rfl]
    rfl

theorem fixed_recovers {n : Nat} (a : FixedBytes n) : (fixed n).Recovers a := by
  intro rest
  have htake := take?_append a.length_bytes rest
  -- The value carries the equation that it was read with, so that `htake` cannot be rewritten in.
  simp only [fixed]
  split
  · simp_all
  · rename_i front rest' hsplit
    rw [htake] at hsplit
    cases hsplit
    rfl

theorem uint32_recovers (n : UInt32) : uint32.Recovers n := by
  intro rest
  have hlt : n.toNat < Bytes.count 4 := n.toNat_lt
  simp only [uint32, take?_append (Bytes.length_ofNatLE 4 n.toNat), Bytes.toNatLE_ofNatLE 4 hlt,
    UInt32.ofNat_toNat]

theorem uint64_recovers (n : UInt64) : uint64.Recovers n := by
  intro rest
  have hlt : n.toNat < Bytes.count 8 := n.toNat_lt
  simp only [uint64, take?_append (Bytes.length_ofNatLE 8 n.toNat), Bytes.toNatLE_ofNatLE 8 hlt,
    UInt64.ofNat_toNat]

theorem uint256_recovers (n : UInt256) : uint256.Recovers n := by
  intro rest
  have hlt : n.toNat < Bytes.count 32 := n.toNat_lt
  have htake := take?_append (Bytes.length_ofNatLE 32 n.toNat) rest
  simp only [uint256]
  split
  · simp_all
  · rename_i front rest' hsplit
    rw [htake] at hsplit
    cases hsplit
    simp only [Bytes.toNatLE_ofNatLE 32 hlt]

theorem Recovers.pair {a : α} {b : β} (hf : f.Recovers a) (hg : g.Recovers b) :
    (f.pair g).Recovers (a, b) := by
  intro rest
  simp only [Format.pair, List.append_assoc, hf _, hg _]

theorem Recovers.via {build : α → β} {raw : β → α} {b : β} (h : f.Recovers (raw b))
    (hb : build (raw b) = b) : (f.via build raw).Recovers b := by
  intro rest
  simp only [Format.via, decodeAs, h _, hb]

theorem decodeMany_flatMap {as : List α} (h : ∀ a ∈ as, f.Recovers a) (rest : Bytes) :
    f.decodeMany as.length (as.flatMap f.encode ++ rest) = .ok (as, rest) := by
  induction as with
  | nil => rfl
  | cons a as ih =>
    have hrest := ih fun b hb ↦ h b (List.mem_cons_of_mem a hb)
    simp only [List.length_cons, decodeMany, List.flatMap_cons, List.append_assoc,
      h a List.mem_cons_self _, hrest]

/-- Longer lists do not come back: the count in front of them wraps. -/
theorem Recovers.list {as : List α} (hlength : as.length < UInt32.size)
    (h : ∀ a ∈ as, f.Recovers a) : f.list.Recovers as := by
  intro rest
  have hcount : (UInt32.ofNat as.length).toNat = as.length := UInt32.toNat_ofNat_of_lt' hlength
  simp only [Format.list, List.append_assoc, uint32_recovers _ _, hcount, decodeMany_flatMap h]

theorem payout_recovers (p : Payout) : payout.Recovers p :=
  .via (.pair (fixed_recovers p.destination)
    (.pair (uint256_recovers p.amount) (uint256_recovers p.fee))) rfl

theorem batch_recovers {b : Batch} (h : b.payouts.length < UInt32.size) : batch.Recovers b :=
  .via (.pair (fixed_recovers b.token)
    (.pair (.list h fun p _ ↦ payout_recovers p) (uint64_recovers b.nonce))) rfl

end TokenBridge.Borsh.Format
