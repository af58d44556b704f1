import TokenBridge.Table
import Mathlib.Data.List.Induction

namespace TokenBridge

open Ranked (rank)

namespace Table

variable {κ ν : Type} [Ranked κ]

theorem lookup_eq_none {k : κ} {entries : List (κ × ν)} (h : ∀ e ∈ entries, rank k < rank e.1) :
    lookup k entries = none := by
  induction entries with
  | nil => rfl
  | cons e rest ih =>
    have hlt := h e List.mem_cons_self
    rw [lookup, if_neg (by omega), ih fun e' he ↦ h e' (List.mem_cons_of_mem _ he)]

theorem lookup_cons_self (e : κ × ν) (rest : List (κ × ν)) : lookup e.1 (e :: rest) = some e.2 :=
  if_pos rfl

theorem lookup_cons_of_ne {k : κ} {e : κ × ν} (h : rank e.1 ≠ rank k) (rest : List (κ × ν)) :
    lookup k (e :: rest) = lookup k rest := if_neg h

/-- Entries in order are known by what is found among them. -/
theorem eq_of_lookup_eq {entries entries' : List (κ × ν)}
    (hsorted : entries.Pairwise fun a b ↦ rank a.1 < rank b.1)
    (hsorted' : entries'.Pairwise fun a b ↦ rank a.1 < rank b.1)
    (h : ∀ k, lookup k entries = lookup k entries') : entries = entries' := by
  induction entries generalizing entries' with
  | nil =>
    cases entries' with
    | nil => rfl
    | cons e' rest' =>
      have hhead := h e'.1
      rw [lookup_cons_self] at hhead
      cases hhead
  | cons e rest ih =>
    obtain ⟨he, hrest⟩ := List.pairwise_cons.1 hsorted
    cases entries' with
    | nil =>
      have hhead := h e.1
      rw [lookup_cons_self] at hhead
      cases hhead
    | cons e' rest' =>
      obtain ⟨he', hrest'⟩ := List.pairwise_cons.1 hsorted'
      have hhead := h e.1
      have hhead' := h e'.1
      rw [lookup_cons_self] at hhead hhead'
      -- the lower one of the two first keys could not be found in the other list
      have hrank : rank e.1 = rank e'.1 := by
        rcases Nat.lt_trichotomy (rank e.1) (rank e'.1) with hlt | heq | hgt
        · rw [lookup_cons_of_ne (Nat.ne_of_gt hlt),
            lookup_eq_none fun x hx ↦ Nat.lt_trans hlt (he' x hx)] at hhead
          cases hhead
        · exact heq
        · rw [lookup_cons_of_ne (Nat.ne_of_gt hgt),
            lookup_eq_none fun x hx ↦ Nat.lt_trans hgt (he x hx)] at hhead'
          cases hhead'
      have hkey : e.1 = e'.1 := Ranked.rank_injective hrank
      rw [hkey, lookup_cons_self] at hhead
      have hentry : e = e' := Prod.ext hkey (Option.some.inj hhead)
      subst hentry
      rw [ih hrest hrest' fun k ↦ ?_]
      by_cases hk : rank e.1 = rank k
      · obtain rfl := Ranked.rank_injective hk
        rw [lookup_eq_none he, lookup_eq_none he']
      · have htail := h k
        rwa [lookup_cons_of_ne hk, lookup_cons_of_ne hk] at htail

theorem ext_get? {t t' : Table κ ν} (h : ∀ k, t.get? k = t'.get? k) : t = t' := by
  have hentries := eq_of_lookup_eq t.sorted t'.sorted h
  cases t
  cases t'
  cases hentries
  rfl

/-- What stands at its place already changes nothing. -/
theorem insert_eq_self {t : Table κ ν} {k : κ} {v : ν} (h : t.get? k = some v) :
    t.insert k v = t := by
  apply ext_get?
  intro k'
  by_cases hk : rank k' = rank k
  · obtain rfl := Ranked.rank_injective hk
    rw [get?_insert_self, h]
  · exact t.get?_insert_of_ne (fun he ↦ hk (congrArg rank he)) v

theorem put_of_lt {k : κ} (v : ν) {entries : List (κ × ν)}
    (h : ∀ e ∈ entries, rank e.1 < rank k) : put k v entries = entries ++ [(k, v)] := by
  induction entries with
  | nil => rfl
  | cons e rest ih =>
    have hlt := h e List.mem_cons_self
    rw [put, if_neg (by omega), if_neg (by omega), ih fun e' he ↦ h e' (List.mem_cons_of_mem _ he),
      List.cons_append]

theorem length_put_le (k : κ) (v : ν) (entries : List (κ × ν)) :
    (put k v entries).length ≤ entries.length + 1 := by
  induction entries with
  | nil => exact Nat.le_refl 1
  | cons e rest ih =>
    rw [put]
    split
    · exact Nat.le_refl _
    · split
      · exact Nat.le_succ _
      · exact Nat.succ_le_succ ih

theorem ofList_concat (entries : List (κ × ν)) (e : κ × ν) :
    ofList (entries ++ [e]) = (ofList entries).insert e.1 e.2 := by
  rw [ofList, List.foldl_append]
  rfl

theorem length_ofList_le (entries : List (κ × ν)) :
    (ofList entries).entries.length ≤ entries.length := by
  induction entries using List.reverseRecOn with
  | nil => exact Nat.le_refl 0
  | append_singleton entries e ih =>
    rw [ofList_concat, List.length_append]
    exact Nat.le_trans (length_put_le _ _ _) (Nat.succ_le_succ ih)

/-- Entries in order are kept as they are. -/
theorem entries_ofList {entries : List (κ × ν)}
    (h : entries.Pairwise fun a b ↦ rank a.1 < rank b.1) : (ofList entries).entries = entries := by
  induction entries using List.reverseRecOn with
  | nil => rfl
  | append_singleton entries e ih =>
    obtain ⟨hsorted, _, hlast⟩ := List.pairwise_append.1 h
    have hlt : ∀ e' ∈ (ofList entries).entries, rank e'.1 < rank e.1 := by
      rw [ih hsorted]
      exact fun e' he ↦ hlast e' he e (List.mem_singleton_self e)
    rw [ofList_concat]
    calc put e.1 e.2 (ofList entries).entries
      _ = (ofList entries).entries ++ [e] := put_of_lt e.2 hlt
      _ = entries ++ [e] := by rw [ih hsorted]

theorem entries_ofList_iff {entries : List (κ × ν)} :
    (ofList entries).entries = entries ↔ entries.Pairwise fun a b ↦ rank a.1 < rank b.1 :=
  ⟨fun h ↦ h ▸ (ofList entries).sorted, entries_ofList⟩

theorem ofList_entries (t : Table κ ν) : ofList t.entries = t := by
  apply ext_get?
  intro k
  rw [get?, get?, entries_ofList t.sorted]

def latest? [DecidableEq κ] (k : κ) (entries : List (κ × ν)) : Option ν :=
  (entries.reverse.find? fun e ↦ e.1 = k).map (·.2)

theorem get?_ofList [DecidableEq κ] (k : κ) (entries : List (κ × ν)) :
    (ofList entries).get? k = latest? k entries := by
  induction entries using List.reverseRecOn with
  | nil => rfl
  | append_singleton entries e ih =>
    rw [ofList_concat, latest?, List.reverse_append]
    by_cases hk : e.1 = k
    · rw [← hk, get?_insert_self]
      simp
    · rw [get?_insert_of_ne _ (Ne.symm hk), ih, latest?]
      simp [hk]

end Table

namespace Bytes

theorem toNatLE_append (front rest : Bytes) :
    toNatLE (front ++ rest) = toNatLE front + count front.length * toNatLE rest := by
  induction front with
  | nil =>
    rw [List.nil_append, List.length_nil, toNatLE, count]
    omega
  | cons b front ih =>
    rw [List.cons_append, toNatLE, ih, toNatLE, List.length_cons, count, Nat.mul_add, Nat.mul_assoc,
      Nat.add_assoc]

theorem toNatBE_append (front rest : Bytes) :
    toNatBE (front ++ rest) = toNatBE front * count rest.length + toNatBE rest := by
  rw [toNatBE, List.reverse_append, toNatLE_append, List.length_reverse, Nat.add_comm, Nat.mul_comm,
    toNatBE, toNatBE]

theorem toNatBE_cons (b : UInt8) (rest : Bytes) :
    toNatBE (b :: rest) = b.toNat * count rest.length + toNatBE rest :=
  (toNatBE_append [b] rest).trans (by simp [toNatBE, toNatLE])

/-- Byte strings of one length are ordered as the numbers that they stand for. -/
theorem toNatBE_lt_iff {a b : Bytes} (h : a.length = b.length) : toNatBE a < toNatBE b ↔ a < b := by
  induction a generalizing b with
  | nil =>
    obtain rfl := List.length_eq_zero_iff.1 h.symm
    simp
  | cons x a ih =>
    obtain ⟨y, b, rfl⟩ := List.exists_cons_of_length_eq_add_one h.symm
    have hlength : a.length = b.length := Nat.succ_inj.1 h
    have ha : toNatBE a < count b.length := hlength ▸ toNatBE_lt a
    have hb := toNatBE_lt b
    rw [toNatBE_cons, toNatBE_cons, hlength, List.cons_lt_cons_iff, ← ih hlength]
    rcases Nat.lt_trichotomy x.toNat y.toNat with hlt | heq | hgt
    · have hstep := Nat.mul_le_mul_right (count b.length) (Nat.succ_le_of_lt hlt)
      rw [Nat.succ_mul] at hstep
      exact iff_of_true (by omega) (.inl hlt)
    · obtain rfl := UInt8.toNat_inj.1 heq
      simp
    · have hstep := Nat.mul_le_mul_right (count b.length) (Nat.succ_le_of_lt hgt)
      rw [Nat.succ_mul] at hstep
      refine iff_of_false (by omega) ?_
      rintro (hlt | ⟨rfl, _⟩)
      · exact Nat.lt_asymm hgt hlt
      · exact Nat.lt_irrefl _ hgt

end Bytes

end TokenBridge
