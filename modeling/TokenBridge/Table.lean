import TokenBridge.FixedBytes

namespace TokenBridge

class Ranked (κ : Type) where
  rank : κ → Nat
  rank_injective : ∀ {a b : κ}, rank a = rank b → a = b

instance {n : Nat} : Ranked (FixedBytes n) where
  rank := FixedBytes.toNat
  rank_injective := FixedBytes.toNat_injective

/-- Pairs are ordered by their first part, and by the second where the first is the same. -/
instance {m n : Nat} : Ranked (FixedBytes m × FixedBytes n) where
  rank p := p.1.toNat * Bytes.count n + p.2.toNat
  rank_injective {a b} h := by
    have ha := a.2.toNat_lt
    have hb := b.2.toNat_lt
    have hpos := Bytes.count_pos n
    have first : a.1.toNat = b.1.toNat := by
      have := congrArg (· / Bytes.count n) h
      simpa [Nat.mul_comm, Nat.mul_add_div hpos, Nat.div_eq_of_lt ha, Nat.div_eq_of_lt hb] using this
    have second : a.2.toNat = b.2.toNat := by
      rw [first] at h
      omega
    exact Prod.ext (FixedBytes.toNat_injective first) (FixedBytes.toNat_injective second)

open Ranked (rank)

/-- A finite map, kept as its entries in strictly increasing order of keys. -/
structure Table (κ ν : Type) [Ranked κ] where
  entries : List (κ × ν)
  sorted : entries.Pairwise fun a b ↦ rank a.1 < rank b.1
deriving DecidableEq

namespace Table

variable {κ ν : Type} [Ranked κ]

def lookup (k : κ) : List (κ × ν) → Option ν
  | [] => none
  | e :: rest => if rank e.1 = rank k then some e.2 else lookup k rest

def put (k : κ) (v : ν) : List (κ × ν) → List (κ × ν)
  | [] => [(k, v)]
  | e :: rest =>
    if rank k < rank e.1 then (k, v) :: e :: rest
    else if rank k = rank e.1 then (k, v) :: rest
    else e :: put k v rest

theorem mem_put {k : κ} {v : ν} {x : κ × ν} {entries : List (κ × ν)} (h : x ∈ put k v entries) :
    x = (k, v) ∨ x ∈ entries := by
  induction entries with
  | nil => exact .inl (by simpa [put] using h)
  | cons e rest ih =>
    simp only [put] at h
    split at h
    · exact (List.mem_cons.1 h).imp_right id
    · split at h
      · exact (List.mem_cons.1 h).imp_right (List.mem_cons_of_mem _)
      · rcases List.mem_cons.1 h with rfl | h
        · exact .inr List.mem_cons_self
        · exact (ih h).imp_right (List.mem_cons_of_mem _)

theorem pairwise_put (k : κ) (v : ν) {entries : List (κ × ν)}
    (h : entries.Pairwise fun a b ↦ rank a.1 < rank b.1) :
    (put k v entries).Pairwise fun a b ↦ rank a.1 < rank b.1 := by
  induction entries with
  | nil => simp [put]
  | cons e rest ih =>
    obtain ⟨he, hr⟩ := List.pairwise_cons.1 h
    simp only [put]
    split
    · rename_i hlt
      refine List.pairwise_cons.2 ⟨fun x hx ↦ ?_, h⟩
      rcases List.mem_cons.1 hx with rfl | hx
      · exact hlt
      · exact Nat.lt_trans hlt (he x hx)
    · split
      · rename_i _ heq
        exact List.pairwise_cons.2 ⟨fun x hx ↦ by rw [heq]; exact he x hx, hr⟩
      · rename_i hlt hne
        refine List.pairwise_cons.2 ⟨fun x hx ↦ ?_, ih hr⟩
        rcases mem_put hx with rfl | hx
        · simp only
          omega
        · exact he x hx

theorem lookup_put_self (k : κ) (v : ν) (entries : List (κ × ν)) :
    lookup k (put k v entries) = some v := by
  induction entries with
  | nil => simp [put, lookup]
  | cons e rest ih =>
    simp only [put]
    split
    · simp [lookup]
    · split
      · simp [lookup]
      · rename_i hne
        simp [lookup, Ne.symm hne, ih]

theorem lookup_put_of_ne {k k' : κ} (h : k' ≠ k) (v : ν) (entries : List (κ × ν)) :
    lookup k' (put k v entries) = lookup k' entries := by
  have hr : rank k ≠ rank k' := fun he ↦ h (Ranked.rank_injective he.symm)
  induction entries with
  | nil => simp [put, lookup, hr]
  | cons e rest ih =>
    simp only [put]
    split
    · simp [lookup, hr]
    · split
      · rename_i he
        simp [lookup, hr, ← he]
      · simp [lookup, ih]

def empty : Table κ ν := ⟨[], .nil⟩

instance : Inhabited (Table κ ν) := ⟨empty⟩

variable (t : Table κ ν)

def get? (k : κ) : Option ν := lookup k t.entries

def insert (k : κ) (v : ν) : Table κ ν := ⟨put k v t.entries, pairwise_put k v t.sorted⟩

/-- Of entries with one key the last one counts. -/
def ofList (entries : List (κ × ν)) : Table κ ν :=
  entries.foldl (fun t e ↦ t.insert e.1 e.2) empty

@[simp] theorem get?_empty (k : κ) : (empty : Table κ ν).get? k = none := rfl

@[simp] theorem get?_insert_self (k : κ) (v : ν) : (t.insert k v).get? k = some v :=
  lookup_put_self k v t.entries

theorem get?_insert_of_ne {k k' : κ} (h : k' ≠ k) (v : ν) : (t.insert k v).get? k' = t.get? k' :=
  lookup_put_of_ne h v t.entries

end Table

end TokenBridge
