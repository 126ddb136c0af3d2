import Phragma.Go.Lines
import Phragma.Appid.Observations

/-!
# Phragma.Threatid.Replay

**Replaying Threat-ID evidence** (`internal/threatid/threatid.go`): every sample is classified as
an alert is, and what comes out is compared with what the sample expects.

A blank expected verdict is meant to expect nothing, but it is normalized before it is looked at,
and the normalizer writes a blank text as `unknown`. So a sample without an expected verdict is
judged as if it expected that one. `replay_judges_iff` says for which samples that makes a
difference.
-/

namespace Phragma.Threatid

open Lib Go
open Appid (Library asciiLibrary)

/-! ### Data -/

/-- `Result`: the Threat-ID of an alert. -/
structure Result where
  id : String
  name : String
  category : String
  severity : String
  confidence : Nat
  evidence : List String
  deriving DecidableEq, Repr

/-- `PackageMetadata`: what a content package says of a threat. Empty fields say nothing. -/
structure PackageMetadata where
  id : String := ""
  name : String := ""
  category : String := ""
  severity : String := ""
  confidence : Nat := 0
  signatureIDs : List Int := []
  evidence : List String := []
  deriving DecidableEq, Repr

/-- `ReplayExpected`: what is expected of a sample: a signature, a Threat-ID and a verdict. -/
structure ReplayExpected where
  signatureID : Int := 0
  threatID : String := ""
  verdict : String := ""
  deriving DecidableEq, Repr

/-- `ReplaySample`: an alert to replay. -/
structure ReplaySample where
  id : String := ""
  source : String := ""
  signature : String := ""
  signatureID : Int := 0
  category : String := ""
  severity : Int := 0
  action : String := ""
  expected : ReplayExpected := {}
  deriving DecidableEq, Repr

/-- `ReplayResult`: what was observed of a sample, field by field, and whether it passed. -/
structure ReplayResult where
  sampleID : String
  source : String
  expected : ReplayExpected
  observed : Result
  observedVerdict : String
  signatureMatched : Bool
  threatIDMatched : Bool
  verdictMatched : Bool
  passed : Bool
  evidence : List String
  warnings : List String
  deriving DecidableEq, Repr

section Functions

variable (lib : Library)

/-! ### Classification

The engine's own fields give a result, and the first package entry that is about the alert overrides
what it has a say on. -/

/-- `containsAny`: the search for one of several words. -/
def containsAny (s : String) (needles : List String) : Bool :=
  needles.any fun needle => decide (Contains s needle)

/-- `classifyCategory`: the category, by words in the texts of the engine. Earlier lines win. -/
def classifyCategory (signature category : String) : String :=
  let hay := lib.toLower (category ++ " " ++ signature)
  if containsAny hay ["trojan", "malware", "botnet", "command and control", "c2"] then "malware"
  else if containsAny hay ["scan", "recon", "probe"] then "reconnaissance"
  else if containsAny hay ["brute", "credential", "login", "password"] then "credential-attack"
  else if containsAny hay ["exploit", "attack", "attempted", "shellcode", "injection"] then
    "exploit-attempt"
  else if containsAny hay ["dos", "denial of service"] then "denial-of-service"
  else if containsAny hay ["policy", "p2p", "torrent"] then "policy-violation"
  else if containsAny hay ["web", "http"] then "web-threat"
  else "suspicious"

/-- `confidence`: points for what is known, 95 at most. -/
def confidence (signatureID : Int) (category action : String) : Nat :=
  let score := if 0 < signatureID then 70 else 45
  let score := if trimSpace category ≠ "" then score + 10 else score
  let score := if lib.equalFold (trimSpace action) "blocked" then score + 5 else score
  if 95 < score then 95 else score

/-- `severityLabel`: the number of the engine in words. -/
def severityLabel (severity : Int) : String :=
  if severity = 1 then "critical"
  else if severity = 2 then "high"
  else if severity = 3 then "medium"
  else if severity = 4 then "low"
  else if severity ≤ 0 then "info"
  else "low"

/-- `valueOrUnknown`: a text, or `unknown`. -/
def valueOrUnknown (s : String) : String := if trimSpace s = "" then "unknown" else trimSpace s

/-- `metadataMatches`: the test that a package entry is about an alert, by signature or by id. -/
def metadataMatches (metadata : PackageMetadata) (id : String) (signatureID : Int) : Bool :=
  metadata.signatureIDs.any (fun sid => decide (0 < sid) && sid == signatureID) ||
    decide (trimSpace metadata.id ≠ "") && lib.equalFold (trimSpace metadata.id) id

/-- `cleanEvidence`: the evidence without its blank lines. -/
def cleanEvidence (evidence : List String) : List String :=
  (evidence.map trimSpace).filter (· ≠ "")

/-- A field that the metadata overrides unless it is blank there. -/
def overridden (field override : String) : String :=
  if trimSpace override ≠ "" then trimSpace override else field

/-- `applyMetadata`: a result with the fields that a package entry has. -/
def applyMetadata (result : Result) (metadata : PackageMetadata) : Result where
  id := overridden result.id metadata.id
  name := overridden result.name metadata.name
  category := overridden result.category metadata.category
  severity := overridden result.severity metadata.severity
  confidence := if 0 < metadata.confidence then metadata.confidence else result.confidence
  evidence := result.evidence ++ cleanEvidence metadata.evidence

/-- The id of an alert before the metadata are asked. -/
def engineID (signatureID : Int) : String :=
  if 0 < signatureID then "suricata-sid-" ++ toString signatureID else "unknown-threat"

/-- The classification of an alert before the metadata are asked. -/
def engineResult (signature : String) (signatureID : Int) (category : String) (severity : Int)
    (action : String) : Result where
  id := engineID signatureID
  name := if trimSpace signature = "" then "Unknown Threat" else trimSpace signature
  category := classifyCategory lib signature category
  severity := severityLabel severity
  confidence := confidence lib signatureID category action
  evidence :=
    ["engine signal suricata.signature_id=" ++ toString signatureID,
      "engine signal suricata.signature=" ++ valueOrUnknown signature,
      "engine signal suricata.category=" ++ valueOrUnknown category,
      "OpenNGFW taxonomy category=" ++ classifyCategory lib signature category,
      "OpenNGFW severity=" ++ severityLabel severity] ++
    (if action ≠ "" then ["engine action=" ++ lib.toLower (trimSpace action)] else [])

/-- `ClassifyWithMetadata`: the result of the engine, overridden by the first entry about it. -/
def ClassifyWithMetadata (signature : String) (signatureID : Int) (category : String)
    (severity : Int) (action : String) (metadata : List PackageMetadata) : Result :=
  let result := engineResult lib signature signatureID category severity action
  match metadata.find? fun candidate => metadataMatches lib candidate result.id signatureID with
  | some candidate => applyMetadata result candidate
  | none => result

/-! ### Replay

A sample passes if everything that it expects was observed. A verdict that is not given becomes
`unknown` before the comparison, so it is expected like any other. -/

/-- `normalizeVerdict`: the words for a verdict as one of two. A blank one is `unknown`, and any
other stays as it is. -/
def normalizeVerdict (value : String) : String :=
  let v := lib.toLower (trimSpace value)
  if v ∈ ["block", "blocked", "drop", "dropped", "deny", "denied", "prevented"] then "blocked"
  else if v ∈ ["alert", "allowed", "allow", "detect", "detected", "observed"] then "detected"
  else if v = "" then "unknown"
  else v

/-- `observedVerdict`: the verdict of an action. -/
def observedVerdict (action : String) : String := normalizeVerdict lib action

/-- `normalizeExpected`: the expectation, in the words that are compared. -/
def normalizeExpected (expected : ReplayExpected) : ReplayExpected :=
  { expected with
    threatID := trimSpace expected.threatID
    verdict := normalizeVerdict lib expected.verdict }

/-- The classification of a sample. -/
def observe (metadata : List PackageMetadata) (sample : ReplaySample) : Result :=
  ClassifyWithMetadata lib sample.signature sample.signatureID sample.category sample.severity
    sample.action metadata

/-- The body of the loop of `Replay`. -/
def replaySample (metadata : List PackageMetadata) (sample : ReplaySample) : ReplayResult :=
  let observed := observe lib metadata sample
  let expected := normalizeExpected lib sample.expected
  let verdict := observedVerdict lib sample.action
  let signatureMatched := decide (expected.signatureID = 0) ||
    expected.signatureID == sample.signatureID
  let threatIDMatched := decide (expected.threatID = "") ||
    lib.equalFold expected.threatID observed.id
  let verdictMatched := decide (expected.verdict = "") || expected.verdict == verdict
  { sampleID := trimSpace sample.id
    source := valueOrUnknown sample.source
    expected
    observed
    observedVerdict := verdict
    signatureMatched
    threatIDMatched
    verdictMatched
    passed := signatureMatched && threatIDMatched && verdictMatched
    evidence :=
      ["replay source=" ++ valueOrUnknown sample.source,
        "bounded metadata replay; no packet payload or malware artifact executed"] ++
      observed.evidence
    warnings :=
      (if expected.signatureID ≠ 0 ∧ !signatureMatched then
        ["expected signature_id did not match observed engine signature_id"] else []) ++
      (if expected.threatID ≠ "" ∧ !threatIDMatched then
        ["expected Threat-ID did not match observed classifier output"] else []) ++
      (if expected.verdict ≠ "" ∧ !verdictMatched then
        ["expected verdict did not match observed engine action mapping"] else []) }

/-- `Replay`: a result for each sample. -/
def Replay (samples : List ReplaySample) (metadata : List PackageMetadata) : List ReplayResult :=
  samples.map (replaySample lib metadata)

end Functions

/-- `ThreatReplaySample`, as it is sent. -/
structure ThreatReplaySample where
  id : String := ""
  source : String := ""
  signature : String := ""
  signatureId : Int := 0
  category : String := ""
  severity : Int := 0
  action : String := ""
  expected : Option ReplayExpected := none

/-- `valueOrDefault`: a text, or what stands for a blank one. -/
def valueOrDefault (value fallback : String) : String :=
  if trimSpace value = "" then fallback else trimSpace value

/-- The body of the loop of `replaySamplesFromRequest`. -/
def sampleFromRequest (sample : ThreatReplaySample) (i : Nat) : ReplaySample where
  id := if trimSpace sample.id = "" then "sample-" ++ decimal (i + 1) else trimSpace sample.id
  source := valueOrDefault sample.source "sample"
  signature := sample.signature
  signatureID := sample.signatureId
  category := sample.category
  severity := sample.severity
  action := sample.action
  expected := sample.expected.getD {}

/-- `replaySamplesFromRequest`: the samples of a request. Those that are missing are passed over. -/
def replaySamplesFromRequest (samples : List (Option ThreatReplaySample)) : List ReplaySample :=
  samples.zipIdx.filterMap fun (sample, i) => sample.map fun sample => sampleFromRequest sample i

/-! ### What a sample expects -/

variable {lib : Library}

theorem trimSpace_overridden {field : String} (h : trimSpace field = field) (override : String) :
    trimSpace (overridden field override) = overridden field override := by
  unfold overridden
  split
  · exact trimSpace_trimSpace override
  · exact h

theorem trimSpace_engineID (signatureID : Int) :
    trimSpace (engineID signatureID) = engineID signatureID := by
  unfold engineID
  split
  · next hpos =>
      obtain ⟨n, rfl⟩ := Int.eq_ofNat_of_zero_le (Int.le_of_lt hpos)
      have hnumber : toString (n : Int) = decimal n := rfl
      refine trimSpace_eq_self fun c hc => ?_
      rw [String.toList_append, hnumber] at hc
      rcases List.mem_append.mp hc with hc | hc
      · exact (by decide +kernel : ∀ c ∈ "suricata-sid-".toList, isSpace c = false) c hc
      · obtain ⟨hlo, hhi⟩ := visible_of_isDigit (isDigit_of_mem_decimal hc)
        exact isSpace_of_visible hlo hhi
  · decide

theorem trimSpace_engineResult (signature : String) (signatureID : Int) (category : String)
    (severity : Int) (action : String) :
    trimSpace (engineResult lib signature signatureID category severity action).id =
      (engineResult lib signature signatureID category severity action).id :=
  trimSpace_engineID signatureID

theorem trimSpace_applyMetadata {result : Result} (h : trimSpace result.id = result.id)
    (metadata : PackageMetadata) :
    trimSpace (applyMetadata result metadata).id = (applyMetadata result metadata).id := by
  simp only [applyMetadata, trimSpace_overridden h]

/-- **The id of a classification has no space around it.** -/
theorem trimSpace_observe (metadata : List PackageMetadata) (sample : ReplaySample) :
    trimSpace (observe lib metadata sample).id = (observe lib metadata sample).id := by
  unfold observe ClassifyWithMetadata
  simp only
  split
  · exact trimSpace_applyMetadata (trimSpace_engineResult ..) _
  · exact trimSpace_engineResult ..

theorem normalizeVerdict_ne_empty (value : String) : normalizeVerdict lib value ≠ "" := by
  unfold normalizeVerdict
  simp only
  split_ifs with hblocked hdetected hblank
  · decide
  · decide
  · decide
  · exact hblank

/-- A verdict is unknown when it is blank, or says so. -/
theorem normalizeVerdict_eq_unknown {value : String} : normalizeVerdict lib value = "unknown" ↔
    lib.toLower (trimSpace value) = "" ∨ lib.toLower (trimSpace value) = "unknown" := by
  unfold normalizeVerdict
  generalize lib.toLower (trimSpace value) = v
  simp only
  split_ifs with hblocked hdetected hblank
  · refine iff_of_false (by decide) ?_
    rintro (rfl | rfl) <;> exact absurd hblocked (by decide)
  · refine iff_of_false (by decide) ?_
    rintro (rfl | rfl) <;> exact absurd hdetected (by decide)
  · exact iff_of_true rfl (.inl hblank)
  · exact ⟨.inr, fun h => h.resolve_left hblank⟩

/-- **Every expectation that a sample states holds.** An expected id of zero, and an expected
Threat-ID or verdict that is blank, state nothing. -/
structure ExpectationsHold (lib : Library) (metadata : List PackageMetadata)
    (sample : ReplaySample) : Prop where
  signature : sample.expected.signatureID ≠ 0 →
    sample.expected.signatureID = sample.signatureID
  threatID : trimSpace sample.expected.threatID ≠ "" →
    lib.equalFold (trimSpace sample.expected.threatID)
      (trimSpace (observe lib metadata sample).id) = true
  verdict : trimSpace sample.expected.verdict ≠ "" →
    normalizeVerdict lib sample.expected.verdict = normalizeVerdict lib sample.action

/-- A test that is passed when there is nothing to test. -/
theorem decide_or_iff {p : Prop} [Decidable p] {b : Bool} :
    (decide p || b) = true ↔ (¬ p → b = true) := by
  rw [Bool.or_eq_true, decide_eq_true_iff, Decidable.or_iff_not_imp_left]

/-- A sample passes when its id and Threat-ID are as expected, and its verdicts are the same once
they are normalized. -/
theorem passed_replaySample_iff (metadata : List PackageMetadata) (sample : ReplaySample) :
    (replaySample lib metadata sample).passed = true ↔
      (sample.expected.signatureID ≠ 0 → sample.expected.signatureID = sample.signatureID) ∧
      (trimSpace sample.expected.threatID ≠ "" →
        lib.equalFold (trimSpace sample.expected.threatID)
          (trimSpace (observe lib metadata sample).id) = true) ∧
      normalizeVerdict lib sample.expected.verdict = normalizeVerdict lib sample.action := by
  have hpassed : (replaySample lib metadata sample).passed =
      ((decide (sample.expected.signatureID = 0) ||
          sample.expected.signatureID == sample.signatureID) &&
        (decide (trimSpace sample.expected.threatID = "") ||
          lib.equalFold (trimSpace sample.expected.threatID) (observe lib metadata sample).id) &&
        (decide (normalizeVerdict lib sample.expected.verdict = "") ||
          normalizeVerdict lib sample.expected.verdict == normalizeVerdict lib sample.action)) :=
    rfl
  rw [trimSpace_observe, hpassed, Bool.and_eq_true, Bool.and_eq_true, decide_or_iff, decide_or_iff,
    decide_or_iff, beq_iff_eq, beq_iff_eq, and_assoc,
    imp_iff_right (normalizeVerdict_ne_empty sample.expected.verdict)]

/-- **When an unstated verdict does no harm**: a verdict is stated, or the action of the sample is
blank or unknown, or what else it states does not hold. -/
def JudgedRight (lib : Library) (metadata : List PackageMetadata) (sample : ReplaySample) : Prop :=
  trimSpace sample.expected.verdict ≠ "" ∨
    (lib.toLower (trimSpace sample.action) = "" ∨
      lib.toLower (trimSpace sample.action) = "unknown") ∨
    (sample.expected.signatureID ≠ 0 ∧ sample.expected.signatureID ≠ sample.signatureID) ∨
    (trimSpace sample.expected.threatID ≠ "" ∧
      lib.equalFold (trimSpace sample.expected.threatID)
        (trimSpace (observe lib metadata sample).id) = false)

theorem replaySample_judges_iff (hlower : lib.toLower "" = "") (metadata : List PackageMetadata)
    (sample : ReplaySample) :
    ((replaySample lib metadata sample).passed = true ↔ ExpectationsHold lib metadata sample) ↔
      JudgedRight lib metadata sample := by
  have hholds : ExpectationsHold lib metadata sample ↔
      (sample.expected.signatureID ≠ 0 → sample.expected.signatureID = sample.signatureID) ∧
      (trimSpace sample.expected.threatID ≠ "" →
        lib.equalFold (trimSpace sample.expected.threatID)
          (trimSpace (observe lib metadata sample).id) = true) ∧
      (trimSpace sample.expected.verdict ≠ "" →
        normalizeVerdict lib sample.expected.verdict = normalizeVerdict lib sample.action) :=
    ⟨fun h => ⟨h.signature, h.threatID, h.verdict⟩, fun h => ⟨h.1, h.2.1, h.2.2⟩⟩
  rw [passed_replaySample_iff, hholds, JudgedRight, ← normalizeVerdict_eq_unknown]
  by_cases hstated : trimSpace sample.expected.verdict = ""
  · have hunknown : normalizeVerdict lib sample.expected.verdict = "unknown" := by
      rw [normalizeVerdict_eq_unknown, hstated, hlower]
      exact .inl rfl
    rw [hunknown, eq_comm (a := "unknown")]
    simp only [hstated, ne_eq, not_true_eq_false, false_imp_iff, and_true, false_or]
    generalize lib.equalFold _ _ = folds
    cases folds <;> grind
  · exact iff_of_true (by simp [hstated]) (.inl hstated)

/-- **Replay judges what was expected exactly when** an unstated verdict does no harm to any
sample. The result of a sample depends on that sample and the metadata only. -/
theorem replay_judges_iff (hlower : lib.toLower "" = "") (samples : List ReplaySample)
    (metadata : List PackageMetadata) :
    (∀ (i : Nat) (sample : ReplaySample), samples[i]? = some sample → ∃ result,
      (Replay lib samples metadata)[i]? = some result ∧
        result = replaySample lib metadata sample ∧
        (result.passed = true ↔ ExpectationsHold lib metadata sample)) ↔
      ∀ sample ∈ samples, JudgedRight lib metadata sample := by
  have hget : ∀ {i : Nat} {sample : ReplaySample}, samples[i]? = some sample →
      (Replay lib samples metadata)[i]? = some (replaySample lib metadata sample) := by
    intro i sample h
    rw [Replay, List.getElem?_map, h, Option.map_some]
  constructor
  · intro h sample hmem
    obtain ⟨i, hi⟩ := List.mem_iff_getElem?.mp hmem
    obtain ⟨result, -, rfl, hjudged⟩ := h i sample hi
    exact (replaySample_judges_iff hlower metadata sample).mp hjudged
  · intro h i sample hi
    exact ⟨_, hget hi, rfl,
      (replaySample_judges_iff hlower metadata sample).mpr (h sample (List.mem_of_getElem? hi))⟩

/-! ### A sample that expects a Threat-ID -/

/-- An alert of which only the Threat-ID is expected. -/
def alertSample : ReplaySample where
  signature := "ET TROJAN Beacon"
  signatureID := 2024001
  action := "allowed"
  expected := { threatID := "Suricata-SID-2024001" }

/-- The same, with the verdict stated. -/
def statedSample : ReplaySample :=
  { alertSample with expected := { alertSample.expected with verdict := "alert" } }

theorem replay_statedSample : ∃ result,
    (Replay asciiLibrary [statedSample] [])[0]? = some result ∧
      (result.passed = true ↔ ExpectationsHold asciiLibrary [] statedSample) := by
  have hstated : ∀ sample ∈ [statedSample], JudgedRight asciiLibrary [] sample := by
    intro sample hmem
    rw [List.mem_singleton.mp hmem]
    exact .inl (by decide)
  have hlower : asciiLibrary.toLower "" = "" := by decide
  obtain ⟨result, hresult, -, hjudged⟩ :=
    (replay_judges_iff hlower [statedSample] []).mpr hstated 0 statedSample rfl
  exact ⟨result, hresult, hjudged⟩

/-- A sample that states nothing about its verdict fails for it. -/
theorem replay_unstated_verdict :
    ¬ ∀ (lib : Library), lib.toLower "" = "" →
      ∀ (samples : List ReplaySample) (metadata : List PackageMetadata) (i : Nat)
        (sample : ReplaySample), samples[i]? = some sample → ∃ result,
          (Replay lib samples metadata)[i]? = some result ∧
            result = replaySample lib metadata sample ∧
            (result.passed = true ↔ ExpectationsHold lib metadata sample) := by
  intro h
  obtain ⟨result, -, rfl, hjudged⟩ := h asciiLibrary (by decide) [alertSample] [] 0 alertSample rfl
  have hfailed : (replaySample asciiLibrary [] alertSample).passed = false := by decide +kernel
  have hholds : ExpectationsHold asciiLibrary [] alertSample :=
    ⟨fun h => absurd rfl h, fun _ => by decide +kernel, fun h => absurd (by decide) h⟩
  rw [hjudged.mpr hholds] at hfailed
  cases hfailed

end Phragma.Threatid
