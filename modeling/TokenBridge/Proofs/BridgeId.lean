import TokenBridge.Proofs.Hex
import TokenBridge.Proofs.Text.Ascii
import TokenBridge.Proofs.Validation
import Mathlib.Data.List.DropRight

namespace TokenBridge.BridgeId

variable {id : BridgeId} {bytes : Bytes} {name : String}

theorem ofText_text (id : BridgeId) : ofText id.text = .ok id := by
  have hbytes : Bytes.ofText id.text = 48 :: 120 :: Hex.digitBytes id.word.bytes :=
    Hex.ofText_encode id.word.bytes
  have hlength : (Bytes.ofText id.text).length = 66 := by
    rw [hbytes, List.length_cons, List.length_cons, Hex.length_digitBytes, id.word.length_bytes]
  have hhex : (Bytes.ofText id.text).length = 66 ∧ (Bytes.ofText id.text).take 2 = [48, 120] :=
    ⟨hlength, by rw [hbytes]; rfl⟩
  rw [ofText, if_pos hhex, text, FixedBytes.ofHex_toHex]
  exact ofWord_eq_ok_iff.2 rfl

theorem rdropWhile_append_zeros (bytes : Bytes) (n : Nat) :
    (bytes ++ List.replicate n 0).rdropWhile (· == 0) = bytes.rdropWhile (· == 0) := by
  induction n with
  | zero => rw [List.replicate_zero, List.append_nil]
  | succ n ih => rw [List.replicate_succ', ← List.append_assoc, List.rdropWhile_concat_pos _ _ _ rfl, ih]

theorem trimmed_append_zeros (id : BridgeId) :
    id.trimmed ++ List.replicate (32 - id.trimmed.length) 0 = id.word.bytes := by
  have hsplit : id.trimmed ++ id.word.bytes.rtakeWhile (· == 0) = id.word.bytes :=
    List.rdropWhile_append_rtakeWhile
  have hzeros : id.word.bytes.rtakeWhile (· == 0) =
      List.replicate (id.word.bytes.rtakeWhile (· == 0)).length 0 :=
    List.eq_replicate_of_mem fun b hb ↦ by simpa using List.mem_rtakeWhile_imp hb
  have hlength : 32 - id.trimmed.length = (id.word.bytes.rtakeWhile (· == 0)).length := by
    have htotal := congrArg List.length hsplit
    rw [List.length_append, id.word.length_bytes] at htotal
    omega
  rw [hlength, ← hzeros, hsplit]

theorem ofBytes_trimmed (id : BridgeId) : ofBytes id.trimmed = .ok id :=
  ofBytes_eq_ok_iff.2 (trimmed_append_zeros id).symm

theorem trimmed_of_ofBytes (h : ofBytes bytes = .ok id) :
    id.trimmed = bytes.rdropWhile (· == 0) := by
  have hword := ofBytes_eq_ok_iff.1 h
  have htrimmed : id.trimmed = id.word.bytes.rdropWhile (· == 0) := rfl
  rw [htrimmed, hword, rdropWhile_append_zeros]

theorem trimmed_inj {id' : BridgeId} : id.trimmed = id'.trimmed ↔ id = id' := by
  refine ⟨fun h ↦ ?_, congrArg trimmed⟩
  have hid := ofBytes_trimmed id
  rw [h, ofBytes_trimmed id'] at hid
  exact (Except.ok.inj hid).symm

theorem length_trimmed_le (id : BridgeId) : id.trimmed.length ≤ 32 :=
  (exists_ofBytes_iff.1 ⟨id, ofBytes_trimmed id⟩).1

theorem trimmed_ne_nil (id : BridgeId) : id.trimmed ≠ [] := by
  intro h
  obtain ⟨b, hb, _⟩ := (exists_ofBytes_iff.1 ⟨id, ofBytes_trimmed id⟩).2
  rw [h] at hb
  cases hb

/-- From one to 32 characters, all of them printable and one byte each. -/
def IsName (name : String) : Prop :=
  1 ≤ name.toList.length ∧ name.toList.length ≤ 32 ∧
    ∀ c ∈ name.toList, 32 ≤ c.toNat ∧ c.toNat ≤ 126

instance : Decidable (IsName name) :=
  decidable_of_iff (1 ≤ name.toList.length ∧ name.toList.length ≤ 32 ∧
    name.toList.all (fun c ↦ 32 ≤ c.toNat && c.toNat ≤ 126) = true) (by simp [IsName])

theorem isPrintable_iff {b : UInt8} : isPrintable b = true ↔ 32 ≤ b.toNat ∧ b.toNat ≤ 126 := by
  simp [isPrintable, UInt8.le_iff_toNat_le]

theorem isName_iff :
    IsName name ↔
      Bytes.chars (Bytes.ofText name) = name.toList ∧ 1 ≤ (Bytes.ofText name).length ∧
        (Bytes.ofText name).length ≤ 32 ∧ ∀ b ∈ Bytes.ofText name, isPrintable b = true := by
  constructor
  · intro h
    obtain ⟨hpos, hle, hprintable⟩ := h
    have hascii : Ascii name.toList := by
      intro c hc
      have := hprintable c hc
      omega
    have hchars : Bytes.chars (Bytes.ofText name) = name.toList := by
      rw [Bytes.ofText_of_ascii hascii, Bytes.chars_ofAscii hascii]
    have hlength := congrArg List.length hchars
    rw [Bytes.length_chars] at hlength
    refine ⟨hchars, by omega, by omega, fun b hb ↦ isPrintable_iff.2 ?_⟩
    have hchar := hprintable (Char.ofNat b.toNat) (hchars ▸ List.mem_map_of_mem hb)
    rwa [Char.toNat_ofNat_toNat] at hchar
  · intro h
    obtain ⟨hchars, hpos, hle, hprintable⟩ := h
    rw [IsName, ← hchars, Bytes.length_chars]
    refine ⟨hpos, hle, fun c hc ↦ ?_⟩
    obtain ⟨b, hb, rfl⟩ := List.mem_map.1 hc
    rw [Char.toNat_ofNat_toNat]
    exact isPrintable_iff.1 (hprintable b hb)

theorem IsName.ofText_eq_ofName (h : IsName name) : ofText name = ofName name := by
  have hle := (isName_iff.1 h).2.2.1
  rw [ofText, if_neg fun hhex ↦ by omega, ofName]

theorem IsName.exists_ofName (h : IsName name) : ∃ id, ofName name = .ok id := by
  obtain ⟨_, hpos, hle, hprintable⟩ := isName_iff.1 h
  refine exists_ofBytes_iff.2 ⟨hle, _, List.getElem_mem hpos, fun hzero ↦ ?_⟩
  have hfirst := hprintable _ (List.getElem_mem hpos)
  rw [hzero] at hfirst
  cases hfirst

/-- A name ends where the padding starts. -/
theorem IsName.rdropWhile_eq_self (h : IsName name) :
    (Bytes.ofText name).rdropWhile (· == 0) = Bytes.ofText name := by
  refine List.rdropWhile_eq_self_iff.2 fun hne hzero ↦ ?_
  have hlast := (isName_iff.1 h).2.2.2 _ (List.getLast_mem hne)
  rw [eq_of_beq hzero] at hlast
  cases hlast

theorem name?_eq_some_iff : id.name? = some name ↔ IsName name ∧ ofName name = .ok id := by
  constructor
  · intro h
    unfold name? at h
    split at h
    · rename_i hprintable
      rw [List.all_eq_true] at hprintable
      have hchars : name.toList = Bytes.chars id.trimmed := by
        rw [← Option.some_inj.1 h, String.toList_ofList]
        rfl
      have hascii : Ascii name.toList := by
        rw [hchars, Bytes.ascii_chars_iff]
        intro b hb
        have := isPrintable_iff.1 (hprintable b hb)
        omega
      have hbytes : Bytes.ofText name = id.trimmed := by
        rw [Bytes.ofText_of_ascii hascii, hchars, Bytes.ofAscii_chars]
      refine ⟨isName_iff.2 ?_, ?_⟩
      · rw [hbytes]
        exact ⟨hchars.symm, List.length_pos_iff.2 (trimmed_ne_nil id), length_trimmed_le id, hprintable⟩
      · rw [ofName, hbytes, ofBytes_trimmed]
    · cases h
  · intro h
    obtain ⟨hname, hid⟩ := h
    have htrimmed := (trimmed_of_ofBytes hid).trans hname.rdropWhile_eq_self
    obtain ⟨hchars, _, _, hprintable⟩ := isName_iff.1 hname
    have hshown : String.ofList (Bytes.chars (Bytes.ofText name)) = name := by
      rw [hchars, String.ofList_toList]
    rw [name?, htrimmed, if_pos (List.all_eq_true.2 hprintable)]
    exact congrArg some hshown

theorem exists_ofBytes_error_iff :
    (∃ e, ofBytes bytes = .error e) ↔ 32 < bytes.length ∨ ∀ b ∈ bytes, b = 0 := by
  constructor
  · intro h
    obtain ⟨e, he⟩ := h
    rcases ofBytes_eq_error_iff.1 he with ⟨hlong, _⟩ | ⟨_, hzero, _⟩
    · exact .inl hlong
    · exact .inr hzero
  · intro h
    by_cases hlong : 32 < bytes.length
    · exact ⟨_, ofBytes_eq_error_iff.2 (.inl ⟨hlong, rfl⟩)⟩
    · have hzero := h.resolve_left hlong
      exact ⟨_, ofBytes_eq_error_iff.2 (.inr ⟨Nat.le_of_not_lt hlong, hzero, rfl⟩)⟩

/-- An id is known by its digits, by its name if it has one, and by the bytes before its padding. -/
theorem forms_exact :
    (∀ id, ofText id.text = .ok id) ∧
      (∀ id name, id.name? = some name →
        IsName name ∧ ofName name = .ok id ∧ ofText name = .ok id) ∧
      (∀ name, IsName name → ∃ id, ofName name = .ok id ∧ id.name? = some name) ∧
      (∀ name name' id id', IsName name → IsName name' → ofName name = .ok id →
        ofName name' = .ok id' → name ≠ name' → id ≠ id') ∧
      (∀ bytes, (∃ e, ofBytes bytes = .error e) ↔ 32 < bytes.length ∨ ∀ b ∈ bytes, b = 0) ∧
      ∀ bytes bytes' id id', ofBytes bytes = .ok id → ofBytes bytes' = .ok id' →
        (id = id' ↔ bytes.rdropWhile (· == 0) = bytes'.rdropWhile (· == 0)) := by
  refine ⟨ofText_text, fun id name h ↦ ?_, fun name hname ↦ ?_, ?_,
    fun bytes ↦ exists_ofBytes_error_iff, ?_⟩
  · obtain ⟨hname, hid⟩ := name?_eq_some_iff.1 h
    exact ⟨hname, hid, hname.ofText_eq_ofName.trans hid⟩
  · obtain ⟨id, hid⟩ := hname.exists_ofName
    exact ⟨id, hid, name?_eq_some_iff.2 ⟨hname, hid⟩⟩
  · rintro name name' id _ hname hname' hid hid' hne rfl
    have hsame := name?_eq_some_iff.2 ⟨hname', hid'⟩
    rw [name?_eq_some_iff.2 ⟨hname, hid⟩] at hsame
    exact hne (Option.some_inj.1 hsame)
  · intro bytes bytes' id id' h h'
    rw [← trimmed_of_ofBytes h, ← trimmed_of_ofBytes h', trimmed_inj]

/-- The ferry has one id, with zeros behind its name or without, and the tug has another one. -/
theorem forms_exact_ferry :
    IsName "ferry" ∧ IsName "tug" ∧
      ∃ id tug, ofName "ferry" = .ok id ∧ id.name? = some "ferry" ∧ ofText "ferry" = .ok id ∧
        ofBytes [102, 101, 114, 114, 121, 0, 0] = .ok id ∧ ofName "tug" = .ok tug ∧ id ≠ tug := by
  have hferry : IsName "ferry" := by decide
  have htug : IsName "tug" := by decide
  obtain ⟨_, hread, hmake, hapart, _, hsame⟩ := forms_exact
  obtain ⟨id, hid, hname⟩ := hmake "ferry" hferry
  obtain ⟨tug, htugId, _⟩ := hmake "tug" htug
  obtain ⟨padded, hpadded⟩ : ∃ padded, ofBytes [102, 101, 114, 114, 121, 0, 0] = .ok padded :=
    exists_ofBytes_iff.2 (by decide)
  have heq : id = padded := (hsame _ _ id padded hid hpadded).2 (by decide)
  refine ⟨hferry, htug, id, tug, hid, hname, (hread id "ferry" hname).2.2, heq ▸ hpadded, htugId, ?_⟩
  exact hapart "ferry" "tug" id tug hferry htug hid htugId (by decide)

end TokenBridge.BridgeId
