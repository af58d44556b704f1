import TokenBridge.Json.Format
import TokenBridge.Proofs.Hex
import TokenBridge.Proofs.Json.Parser
import TokenBridge.Proofs.Validation
import Mathlib.Data.List.Forall2
import Mathlib.Data.List.Nodup

namespace TokenBridge.Json

variable {α β : Type}

theorem mapM_eq_some {g : α → Option β} {as : List α} {bs : List β}
    (h : List.Forall₂ (fun a b ↦ g a = some b) as bs) : as.mapM g = some bs := by
  induction h with
  | nil => rfl
  | cons ha _ ih =>
    rw [List.mapM_cons, ha, ih]
    rfl

theorem find?_of_unique {p : α → Bool} {as : List α} {a : α} (hmem : a ∈ as) (ha : p a = true)
    (hunique : ∀ b ∈ as, p b = true → b = a) : as.find? p = some a := by
  obtain ⟨b, hb⟩ := Option.isSome_iff_exists.1 (List.find?_isSome.2 ⟨a, hmem, ha⟩)
  rw [hb, hunique b (List.mem_of_find?_eq_some hb) (List.find?_some hb)]

/-- Where names are told apart, a member is found under its own. -/
theorem member?_of_mem {members : List (Option String × Json)} {name : String} {j : Json}
    (hnodup : (members.map (·.1)).Nodup) (h : (some name, j) ∈ members) :
    member? name members = some j := by
  have hfilter : members.filter (·.1 = some name) = [(some name, j)] := by
    induction members with
    | nil => cases h
    | cons m members ih =>
      obtain ⟨hfresh, hnodup⟩ := List.nodup_cons.1 hnodup
      rw [List.filter_cons]
      rcases List.mem_cons.1 h with rfl | h
      · rw [if_pos (decide_eq_true rfl), List.filter_eq_nil_iff.2]
        intro m hm hname
        exact hfresh (List.mem_map.2 ⟨m, hm, of_decide_eq_true hname⟩)
      · rw [if_neg, ih hnodup h]
        intro hname
        exact hfresh (List.mem_map.2 ⟨_, h, (of_decide_eq_true hname).symm⟩)
  rw [member?, hfilter]

/-- What is expected under the name of a field, where names are told apart. -/
theorem Shape.member_record {fields : List (String × Shape)} {field : String × Shape}
    (hnodup : (fields.map (·.1)).Nodup) (h : field ∈ fields) :
    (record fields).member (some field.1) = field.2 := by
  have hfind : (fields.find? fun other ↦ some field.1 = some other.1) = some field :=
    find?_of_unique h (decide_eq_true rfl) fun other hother hname ↦
      List.inj_on_of_nodup_map hnodup hother h (Option.some.inj (of_decide_eq_true hname)).symm
  rw [member, hfind]

namespace Fields

structure Recovers (f : Fields α) (a : α) : Prop where
  printable : List.Forall₂ (fun field j ↦ Printable field.2 j) f.shapes (f.toValues a)
  ofValues?_toValues : f.ofValues? (f.toValues a) = some a

theorem append_eq_some_iff {f : Fields α} {g : Fields β} {values : List Json} {p : α × β} :
    (f ++ g).ofValues? values = some p ↔
      f.ofValues? (values.take f.names.length) = some p.1 ∧
        g.ofValues? (values.drop f.names.length) = some p.2 := by
  change (f.ofValues? _).bind (fun a ↦ (g.ofValues? _).bind fun b ↦ some (a, b)) = some p ↔ _
  simp only [Option.bind_eq_some_iff, Option.some.injEq, Prod.ext_iff]
  constructor
  · rintro ⟨a, ha, b, hb, rfl, rfl⟩
    exact ⟨ha, hb⟩
  · exact fun ⟨ha, hb⟩ ↦ ⟨p.1, ha, p.2, hb, rfl, rfl⟩

theorem Recovers.length_eq {f : Fields α} {a : α} (h : f.Recovers a) :
    (f.toValues a).length = f.names.length := by
  rw [names, List.length_map, h.printable.length_eq]

theorem Recovers.append {f : Fields α} {g : Fields β} {a : α} {b : β} (hf : f.Recovers a)
    (hg : g.Recovers b) : (f ++ g).Recovers (a, b) where
  printable := List.rel_append hf.printable hg.printable
  ofValues?_toValues := by
    rw [append_eq_some_iff, ← hf.length_eq]
    change f.ofValues? ((f.toValues a ++ g.toValues b).take _) = some a ∧
      g.ofValues? ((f.toValues a ++ g.toValues b).drop _) = some b
    rw [List.take_left, List.drop_left]
    exact ⟨hf.ofValues?_toValues, hg.ofValues?_toValues⟩

variable {f : Fields α} {a : α}

def members (f : Fields α) (a : α) : List (Option String × Json) :=
  (f.names.map some).zip (f.toValues a)

theorem Recovers.exists_of_mem_members (h : f.Recovers a) {m : Option String × Json}
    (hm : m ∈ f.members a) :
    ∃ field j, m = (some field.1, j) ∧ field ∈ f.shapes ∧ Printable field.2 j := by
  rw [members, names, List.map_map, List.zip_map_left] at hm
  obtain ⟨⟨field, j⟩, hp, rfl⟩ := List.mem_map.1 hm
  exact ⟨field, j, rfl, (List.of_mem_zip hp).1, (List.forall₂_iff_zip.1 h.printable).2 hp⟩

theorem Recovers.nodup_members (h : f.Recovers a) (hnames : f.names.Nodup) :
    ((f.members a).map (·.1)).Nodup := by
  have hlength : (f.names.map some).length ≤ (f.toValues a).length := by
    rw [List.length_map, h.length_eq]
  rw [members, List.map_fst_zip hlength]
  exact hnames.map (Option.some_injective _)

theorem Recovers.fields?_members (h : f.Recovers a) (hnames : f.names.Nodup) :
    fields? f.names (object (f.members a)) = some (f.toValues a) := by
  have hall : (f.members a).all (·.1.isSome) = true := by
    refine List.all_eq_true.2 fun m hm ↦ ?_
    obtain ⟨field, j, rfl, -, -⟩ := h.exists_of_mem_members hm
    rfl
  rw [fields?, if_pos hall]
  refine mapM_eq_some (List.forall₂_iff_zip.2 ⟨h.length_eq.symm, fun {name j} hj ↦ ?_⟩)
  refine member?_of_mem (h.nodup_members hnames) ?_
  rw [members, List.zip_map_left]
  exact List.mem_map.2 ⟨_, hj, rfl⟩

end Fields

namespace Format

variable {f : Format α}

/-- A value is read back from its document, of which everything fits what is expected. -/
structure Recovers (f : Format α) (a : α) : Prop where
  printable : Printable f.shape (f.toJson a)
  ofJson?_toJson : f.ofJson? (f.toJson a) = some a

theorem Recovers.ofText?_text {a : α} (h : f.Recovers a) : f.ofText? (f.text a) = some a := by
  rw [ofText?, text, h.printable.ofText?_compact]
  exact h.ofJson?_toJson

theorem Recovers.via {build : α → β} {raw : β → α} {b : β} (h : f.Recovers (raw b))
    (hb : build (raw b) = b) : (f.via build raw).Recovers b where
  printable := h.printable
  ofJson?_toJson := by
    change (f.ofJson? (f.toJson (raw b))).map build = some b
    rw [h.ofJson?_toJson, Option.map_some, hb]

theorem Recovers.checked {ε : Type} {check : α → Except ε β} {raw : β → α} {b : β}
    (h : f.Recovers (raw b)) (hb : check (raw b) = .ok b) : (f.checked check raw).Recovers b where
  printable := h.printable
  ofJson?_toJson := by
    change (f.ofJson? (f.toJson (raw b))).bind _ = some b
    rw [h.ofJson?_toJson, Option.bind_some, hb]
    rfl

theorem natural_recovers {bound n : Nat} (h : n < bound) : (natural bound).Recovers n where
  printable := .nat _ n
  ofJson?_toJson := if_pos h

theorem byte_recovers (b : UInt8) : byte.Recovers b :=
  .via (natural_recovers b.toNat_lt) (UInt8.ofNat_toNat (x := b))

theorem uint32_recovers (n : UInt32) : uint32.Recovers n :=
  .via (natural_recovers n.toNat_lt) (UInt32.ofNat_toNat (x := n))

theorem uint64_recovers (n : UInt64) : uint64.Recovers n :=
  .via (natural_recovers n.toNat_lt) (UInt64.ofNat_toNat (x := n))

theorem uint256_recovers (n : UInt256) : uint256.Recovers n where
  printable := .text _ n.hex
  ofJson?_toJson := toOption_eq_some_iff.2 n.ofText_hex

theorem fixed_recovers {n : Nat} (a : FixedBytes n) : (fixed n).Recovers a where
  printable := .text _ a.toHex
  ofJson?_toJson := toOption_eq_some_iff.2 a.ofHex_toHex

theorem list_recovers {as : List α} (h : ∀ a ∈ as, f.Recovers a) : f.list.Recovers as where
  printable := by
    refine .array (fun _ ↦ rfl) fun index j hj ↦ ?_
    obtain ⟨a, ha, rfl⟩ := List.mem_map.1 (List.mem_of_getElem? hj)
    exact (h a ha).printable
  ofJson?_toJson := by
    refine mapM_eq_some (List.forall₂_map_left_iff.2 (List.forall₂_same.2 fun a ha ↦ ?_))
    exact (h a ha).ofJson?_toJson

theorem option_recovers {o : Option α} (h : ∀ a ∈ o, f.Recovers a ∧ f.toJson a ≠ null) :
    f.option.Recovers o := by
  cases o with
  | none => exact ⟨.null _, rfl⟩
  | some a =>
    obtain ⟨hf, hnull⟩ := h a rfl
    refine ⟨hf.printable, ?_⟩
    simp only [option, hf.ofJson?_toJson, Option.map_some]

theorem Recovers.single {a : α} (h : f.Recovers a) (name : String) :
    (Fields.single name f).Recovers a where
  printable := .cons h.printable .nil
  ofValues?_toValues := h.ofJson?_toJson

theorem record_recovers {f : Fields α} {a : α} (h : f.Recovers a) (hnames : f.names.Nodup) :
    (record f).Recovers a where
  printable := by
    refine .object (fun m hm ↦ ?_) fun m hm ↦ ?_
    · obtain ⟨field, j, rfl, -, -⟩ := h.exists_of_mem_members hm
      rfl
    · obtain ⟨field, j, rfl, hfield, hj⟩ := h.exists_of_mem_members hm
      rwa [record, Shape.member_record hnames hfield]
  ofJson?_toJson := by
    change (fields? f.names (object (f.members a))).bind f.ofValues? = some a
    rw [h.fields?_members hnames, Option.bind_some, h.ofValues?_toValues]

theorem Recovers.printable_tagged {fields : List (String × Shape)} {a : α} {name : String}
    (h : f.Recovers a) (hnodup : (fields.map (·.1)).Nodup) (hmem : (name, f.shape) ∈ fields) :
    Printable (.record fields) ((tagged name f).toJson a) := by
  refine .object (List.forall_mem_singleton.2 rfl) (List.forall_mem_singleton.2 ?_)
  rw [Shape.member_record hnodup hmem]
  exact h.printable

theorem Recovers.ofJson?_tagged {a : α} (h : f.Recovers a) (name : String) :
    (tagged name f).ofJson? ((tagged name f).toJson a) = some a :=
  (if_pos rfl).trans h.ofJson?_toJson

theorem oneOf_recovers {all : List α} {name : α → String} {a : α} (hnodup : (all.map name).Nodup)
    (hmem : a ∈ all) : (oneOf all name).Recovers a where
  printable := .text _ (name a)
  ofJson?_toJson := find?_of_unique hmem (decide_eq_true rfl) fun _ hb hname ↦
    List.inj_on_of_nodup_map hnodup hb hmem (of_decide_eq_true hname)

end Format

end TokenBridge.Json
