import TokenBridge.CommandLine.Run
import TokenBridge.Proofs.Bridge.Genesis
import TokenBridge.Proofs.CommandLine.Values
import TokenBridge.Proofs.Commitment.Raw
import Mathlib.Data.List.Forall2

namespace TokenBridge

namespace CommandLine

namespace Spec

variable {spec : Spec} {f : Found} {arg value : String} {rest : List String} {o : OptionSpec}

theorem read_option (hdash : arg.toList.head? = some '-') (harg : arg ≠ "--help" ∧ arg ≠ "--")
    (hended : f.optionsEnded = false) (hhelp : f.help = false) (hfind : spec.find? arg = some o)
    (husage : o.usage ≠ .switch) (honce : o.usage = .once → f.has o.name = false)
    (haccepts : o.accepts value = true) :
    spec.read f (arg :: value :: rest) =
      spec.read { f with options := f.options ++ [(o.name, value)] } rest := by
  have hword : arg ≠ "help" := by
    rintro rfl
    revert hdash
    decide
  have hfresh : ((o.usage = .once && f.has o.name) || !o.accepts value) = false := by
    by_cases h : o.usage = .once
    · simp [honce h, haccepts]
    · simp [h, haccepts]
  rw [read]
  simp only [hdash, harg.1, harg.2, hword, hended, hhelp, hfind, husage, hfresh, Bool.not_false,
    Bool.true_and, decide_true, decide_false, Bool.or_false, if_true, if_false, Bool.false_eq_true]

theorem read_validators (texts : List String) (hended : f.optionsEnded = false)
    (hhelp : f.help = false) :
    checkpoint.read f (texts.flatMap (["--validator", ·]) ++ rest) =
      checkpoint.read { f with options := f.options ++ texts.map (("--validator", ·)) } rest := by
  induction texts generalizing f with
  | nil => simp
  | cons text texts ih =>
    have hstep : checkpoint.read f
          ("--validator" :: text :: (texts.flatMap (["--validator", ·]) ++ rest)) =
        checkpoint.read { f with options := f.options ++ [("--validator", text)] }
          (texts.flatMap (["--validator", ·]) ++ rest) :=
      read_option (o := .text "--validator" (some "-V") .repeated) (by decide) (by decide) hended
        hhelp rfl (by decide) (fun h ↦ by cases h) rfl
    have hrest := ih (f := { f with options := f.options ++ [("--validator", text)] }) hended hhelp
    rw [List.append_assoc, List.singleton_append] at hrest
    exact hstep.trans hrest

end Spec

def checkpointArgs (idText : String) (texts : List String) (nonceText : String) : List String :=
  "checkpoint" :: "--bridge-id" :: idText ::
    (texts.flatMap (["--validator", ·]) ++ ["--nonce", nonceText])

def checkpointFound (idText : String) (texts : List String) (nonceText : String) : Found :=
  { Found.empty with
    options := ("--bridge-id", idText) ::
      (texts.map (("--validator", ·)) ++ [("--nonce", nonceText)]) }

theorem parse_checkpointArgs (idText : String) (texts : List String) {nonceText : String}
    (h : isUInt64 nonceText = true) :
    Spec.checkpoint.parse (checkpointArgs idText texts nonceText).tail =
      .ok (checkpointFound idText texts nonceText) := by
  have hid : ∀ rest, Spec.checkpoint.parse ("--bridge-id" :: idText :: rest) =
      Spec.checkpoint.read { Found.empty with options := [("--bridge-id", idText)] } rest := by
    intro rest
    exact Spec.read_option (o := .text "--bridge-id" (some "-i") .once) (by decide) (by decide) rfl
      rfl rfl (by decide) (fun _ ↦ rfl) rfl
  have hnonce : ∀ f : Found, f.optionsEnded = false → f.help = false → f.has "--nonce" = false →
      Spec.checkpoint.read f ["--nonce", nonceText] =
        .ok { f with options := f.options ++ [("--nonce", nonceText)] } := by
    intro f hended hhelp hfresh
    rw [Spec.read_option (o := ⟨"--nonce", some "-n", .once, isUInt64⟩) (by decide) (by decide)
      hended hhelp rfl (by decide) (fun _ ↦ hfresh) h, Spec.read]
    simp [hhelp]
  rw [checkpointArgs, List.tail_cons, hid, Spec.read_validators texts rfl rfl, hnonce _ rfl rfl]
  · simp [checkpointFound]
  · simp [Found.has, Found.value?, Found.values, List.filterMap_map]

theorem values_checkpointFound (idText : String) (texts : List String) (nonceText : String) :
    (checkpointFound idText texts nonceText).value? "--config" = none ∧
      (checkpointFound idText texts nonceText).value? "--bridge-id" = some idText ∧
      (checkpointFound idText texts nonceText).values "--validator" = texts ∧
      (checkpointFound idText texts nonceText).value? "--nonce" = some nonceText := by
  simp [checkpointFound, Found.value?, Found.values, List.filterMap_map]

theorem ofArgs_checkpointArgs (idText : String) (texts : List String) {nonceText : String}
    {nonce : UInt64} (h : Decimal.readUInt64 nonceText = .ok nonce) :
    Invocation.ofArgs (checkpointArgs idText texts nonceText) =
      .ok ⟨false, false, .checkpoint none (some idText) texts nonce⟩ := by
  have hnonce : isUInt64 nonceText = true := by
    rw [isUInt64, h]
    rfl
  have htool : Spec.tool.parse (checkpointArgs idText texts nonceText) =
      .ok { Found.empty with
        command := some ("checkpoint", (checkpointArgs idText texts nonceText).tail) } := rfl
  have hcommand : Command.ofArgs "checkpoint" (checkpointArgs idText texts nonceText).tail =
      .ok (.checkpoint none (some idText) texts nonce) := by
    obtain ⟨hconfig, hid, htexts, hlast⟩ := values_checkpointFound idText texts nonceText
    have hread : (checkpointFound idText texts nonceText).uint64? "--nonce" = some nonce := by
      rw [Found.uint64?, hlast, Option.bind_some, h]
      rfl
    rw [Command.ofArgs, if_pos rfl, Command.ofCheckpointArgs, parse_checkpointArgs idText texts hnonce]
    simp only [bind, Except.bind, pure, Except.pure, hconfig, hid, htexts, hread, Option.getD_some]
  rw [Invocation.ofArgs, htool]
  simp only [bind, Except.bind, needed, hcommand]
  rfl

theorem mapM_eq_ok {ε α β : Type} {f : α → Except ε β} {as : List α} {bs : List β}
    (h : List.Forall₂ (fun a b ↦ f a = .ok b) as bs) : as.mapM f = .ok bs := by
  induction h with
  | nil => rfl
  | cons ha _ ih =>
    rw [List.mapM_cons, ha, ih]
    rfl

theorem readValidators_eq_ok {texts : List String} {members : List Validator}
    (h : List.Forall₂ (fun text v ↦ ValidatorText text.toList v) texts members) :
    texts.mapM readValidator = .ok members :=
  mapM_eq_ok (h.imp fun _ _ ↦ readValidator_eq_ok_iff.2)

/-- The raw values of a set's members are committed to as the set is. -/
theorem rawCheckpoint_members {idText : String} {id : BridgeId} (vs : ValidatorSet) (nonce : UInt64)
    (h : BridgeId.ofText idText = .ok id) :
    rawCheckpoint idText vs.members nonce = .ok (Commitment.checkpoint id vs nonce) := by
  have hid : BridgeId.ofBytes id.word.bytes = .ok id := by
    rw [BridgeId.ofBytes_eq_ok_iff, id.word.length_bytes]
    exact (List.append_nil _).symm
  have hraw : Commitment.rawCheckpoint id.word.bytes (vs.members.map (·.address.bytes))
      (vs.members.map (·.power)) nonce = .ok (Commitment.checkpoint id vs nonce) := by
    refine Commitment.rawCheckpoint_eq_ok_iff.2 ⟨id, vs.addresses, hid, ?_, ?_, rfl⟩
    · exact List.map_map
    · rw [List.length_map, List.length_map]
  rw [rawCheckpoint, readBridgeId, h]
  exact congrArg (Except.mapError Failure.data) hraw

def Report.Shows (r : Report) (commitment : Word) : Prop :=
  r.toJson.fields? ["checkpoint", "signing_digest"] =
    some [Json.Format.word.toJson commitment, Json.Format.word.toJson (signedMessageHash commitment)]

def Invocation.report (i : Invocation) (files : Files) : Except Failure Report :=
  (i.run files).map Prod.snd

variable {files : Files} {path idText : String} {texts : List String} {nonce : UInt64}
  {verbose jsonLogs : Bool}

theorem report_without_config {members : List Validator} {c : Word}
    (htexts : List.Forall₂ (fun text v ↦ ValidatorText text.toList v) texts members)
    (hc : rawCheckpoint idText members nonce = .ok c) :
    Invocation.report ⟨verbose, jsonLogs, .checkpoint none (some idText) texts nonce⟩ files =
      .ok (.checkpoint c nonce) := by
  have hreport : checkpointReport none (some idText) texts nonce = .ok (.checkpoint c nonce) := by
    simp only [checkpointReport, readValidators_eq_ok htexts, bind, Except.bind, hc]
    rfl
  simp only [Invocation.report, Invocation.run, Option.mapM_none, bind, Except.bind, pure,
    Except.pure, hreport, Except.map]

variable {config : Config} {g : Genesis}

theorem report_with_config (hconfig : loadConfig files path = .ok config)
    (hvalid : config.bridge.validate = .ok g) :
    Invocation.report ⟨verbose, jsonLogs, .checkpoint (some path) none [] nonce⟩ files =
      .ok (.checkpoint (Commitment.checkpoint g.bridgeId g.validators nonce) nonce) := by
  have hreport : checkpointReport (some config) none [] nonce =
      .ok (.checkpoint (Commitment.checkpoint g.bridgeId g.validators nonce) nonce) := by
    rw [checkpointReport, if_neg (by simp), hvalid]
    rfl
  simp only [Invocation.report, Invocation.run, Option.mapM_some, hconfig, Functor.map, bind,
    Except.bind, pure, Except.pure, hreport, Except.map]

theorem report_of_check (hconfig : loadConfig files path = .ok config)
    (hvalid : config.bridge.validate = .ok g) :
    Invocation.report ⟨verbose, jsonLogs, .checkParams path⟩ files = .ok (.genesis g) := by
  have hreport : genesisReport config = .ok (.genesis g) := by
    rw [genesisReport, hvalid]
    rfl
  simp only [Invocation.report, Invocation.run, hconfig, bind, Except.bind, pure, Except.pure,
    hreport, Except.map]

/-- The arguments reach the tool, and its report is the same whether the set comes from them or from
a configuration. For the first nonce the check of the configuration foretells it. -/
theorem checkpoint_sources_agree (hconfig : loadConfig files path = .ok config)
    (hvalid : config.bridge.validate = .ok g) (hid : BridgeId.ofText idText = .ok g.bridgeId)
    (htexts : List.Forall₂ (fun text v ↦ ValidatorText text.toList v) texts g.validators.members)
    (nonce : UInt64) :
    ∃ c, c = Commitment.checkpoint g.bridgeId g.validators nonce ∧
      (Report.checkpoint c nonce).Shows c ∧
      (∀ nonceText, Decimal.Spelled nonceText.toList nonce →
        Invocation.ofArgs (checkpointArgs idText texts nonceText) =
          .ok ⟨false, false, .checkpoint none (some idText) texts nonce⟩) ∧
      ∀ verbose jsonLogs,
        (∀ others, Invocation.report
          ⟨verbose, jsonLogs, .checkpoint none (some idText) texts nonce⟩ others =
            .ok (.checkpoint c nonce)) ∧
        Invocation.report ⟨verbose, jsonLogs, .checkpoint (some path) none [] nonce⟩ files =
          .ok (.checkpoint c nonce) ∧
        (nonce = 0 → ∃ r, r.Shows c ∧
          Invocation.report ⟨verbose, jsonLogs, .checkParams path⟩ files = .ok r) := by
  refine ⟨_, rfl, rfl, ?_, fun verbose jsonLogs ↦ ⟨fun others ↦ ?_, ?_, ?_⟩⟩
  · intro nonceText hnonce
    exact ofArgs_checkpointArgs idText texts (Decimal.readUInt64_eq_ok_iff.2 hnonce)
  · exact report_without_config htexts (rawCheckpoint_members g.validators nonce hid)
  · exact report_with_config hconfig hvalid
  · rintro rfl
    exact ⟨.genesis g, rfl, report_of_check hconfig hvalid⟩

def ferryConfig : String :=
  "[bridge]\n" ++
  "bridge_id = \"ferry\"\n" ++
  "power_threshold = 6666\n" ++
  "admin = \"0x00000000000000000000000000000000000000ad\"\n" ++
  "[[bridge.validators]]\n" ++
  "address = \"0x7e5f4552091a69125d5dfcb7b8c2659029395bdf\"\n" ++
  "power = 1\n"

def ferryFiles : Files := fun path ↦ if path = "ferry.toml" then .ok ferryConfig else .error .notFound

def ferryIdText : String := "0x6665727279000000000000000000000000000000000000000000000000000000"

/-- The ferry's name in hex, and its validator in capitals and with signs that can be left out. -/
theorem checkpoint_sources_agree_ferry :
    loadConfig ferryFiles "ferry.toml" = .ok ⟨Bridge.ferryDraft, .none⟩ ∧
    ∃ c,
      Invocation.report ⟨false, false, .checkpoint none (some ferryIdText)
        ["0X7E5F4552091A69125D5DFCB7B8C2659029395BDF:+01"] 0⟩ ferryFiles = .ok (.checkpoint c 0) ∧
      Invocation.report ⟨false, false, .checkpoint (some "ferry.toml") none [] 0⟩ ferryFiles =
        .ok (.checkpoint c 0) ∧
      ∃ r, r.Shows c ∧
        Invocation.report ⟨false, false, .checkParams "ferry.toml"⟩ ferryFiles = .ok r := by
  have hconfig : loadConfig ferryFiles "ferry.toml" = .ok ⟨Bridge.ferryDraft, .none⟩ := by
    decide +kernel
  obtain ⟨g, hg⟩ : ∃ g, Bridge.ferryDraft.validate = .ok g :=
    isSome_toOption_iff.1 (by decide +kernel)
  have hid : BridgeId.ofText ferryIdText = BridgeId.ofText Bridge.ferryDraft.bridgeId := by
    decide +kernel
  have hmember : readValidator "0X7E5F4552091A69125D5DFCB7B8C2659029395BDF:+01" =
      .ok ⟨Bridge.ferryman, 1⟩ := by decide +kernel
  obtain ⟨hname, _, _, hquorum⟩ := GenesisDraft.validate_eq_ok_iff.1 hg
  have hmembers := ValidatorSet.ofList_eq_ok_iff.1 (GenesisDraft.quorum_eq_ok_iff.1 hquorum).2
  have htexts : List.Forall₂ (fun text v ↦ ValidatorText text.toList v)
      ["0X7E5F4552091A69125D5DFCB7B8C2659029395BDF:+01"] g.validators.members := by
    rw [hmembers]
    exact .cons (readValidator_eq_ok_iff.1 hmember) .nil
  obtain ⟨c, _, _, _, hreports⟩ :=
    checkpoint_sources_agree hconfig hg (hid.trans hname) htexts 0
  obtain ⟨hraw, hfile, hcheck⟩ := hreports false false
  exact ⟨hconfig, c, hraw ferryFiles, hfile, hcheck rfl⟩

end CommandLine

end TokenBridge
