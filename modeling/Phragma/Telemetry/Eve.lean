import Phragma.Go.Bytes
import Phragma.Lib.Paging
import Phragma.Threatid.Replay

/-!
# Phragma.Telemetry.Eve

The alerts and flows of an EVE file, `internal/telemetry/eve.go`: the newest part of the file is
read line by line, every record is classified, and a page of those that match is cut out of them,
newest first.

Both readers count the matches with the same loop, `Lib.Paging.cutPage`. JSON, the times of events
and the classification of flows are parameters. A file is given by its bytes; of an open file only
the opening fails.
-/

namespace Phragma.Telemetry

open Lib Go Appid

/-! ### Records -/

/-- `Alert`: an alert of Suricata with the Threat-ID it is classified as and the policy it was
raised under. -/
structure Alert where
  timestamp : Instant
  signature : String
  signatureID : Int
  severity : Int
  category : String
  srcIP : String
  srcPort : Int
  destIP : String
  destPort : Int
  proto : String
  action : String
  threatID : String
  threatName : String
  threatCategory : String
  threatSeverity : String
  threatConfidence : Nat
  threatEvidence : List String
  policyVersion : Nat
  policyStamp : String
  policyFreshness : String
  policySource : String
  flowID : String
  deriving DecidableEq

/-- `Flow`: a finished flow with its App-ID and its policy. -/
structure Flow where
  timestamp : Instant
  srcIP : String
  srcPort : Int
  destIP : String
  destPort : Int
  proto : String
  appProto : String
  bytesToServer : UInt64
  bytesToClient : UInt64
  packets : UInt64
  appID : String
  appName : String
  appCategory : String
  appConfidence : UInt32
  appEvidence : List String
  policyVersion : Nat
  policyStamp : String
  policyFreshness : String
  policySource : String
  flowID : String
  deriving DecidableEq

/-- `AlertFilter`: what a request for alerts asks for. An empty field asks for nothing. -/
structure AlertFilter where
  limit : Int := 0
  offset : Int := 0
  srcIP : String := ""
  destIP : String := ""
  ip : String := ""
  protocol : String := ""
  action : String := ""
  severity : UInt32 := 0
  threatSeverity : String := ""
  signatureID : Int := 0
  port : UInt32 := 0
  since : Instant := 0
  «until» : Instant := 0
  query : String := ""
  flowID : String := ""

/-- `FlowFilter`: the same for flows. -/
structure FlowFilter where
  limit : Int := 0
  offset : Int := 0
  srcIP : String := ""
  destIP : String := ""
  ip : String := ""
  protocol : String := ""
  app : String := ""
  port : UInt32 := 0
  since : Instant := 0
  «until» : Instant := 0
  query : String := ""
  flowID : String := ""

/-- `PageInfo`: what is said of a page, so that the next one can be asked for. The cursor is an
offset. -/
structure PageInfo where
  nextCursor : String := ""
  hasMore : Bool := false
  totalMatches : Nat := 0
  deriving DecidableEq

/-- `telemetryPolicyContext`: the part of an event in which the policy may be named. Several
spellings of each field are in use. -/
structure TelemetryPolicyContext where
  policyVersion : Nat := 0
  configVersion : Nat := 0
  runningPolicyVersion : Nat := 0
  policyStamp : String := ""
  policyFreshness : String := ""
  stamp : String := ""
  freshness : String := ""
  source : String := ""

/-- What the events of an EVE file have in common. -/
structure EventHeader where
  timestamp : String := ""
  eventType : String := ""
  srcIP : String := ""
  srcPort : Int := 0
  destIP : String := ""
  destPort : Int := 0
  proto : String := ""
  /-- The text of the JSON value. -/
  flowID : String := ""
  policyVersion : Nat := 0
  policyStamp : String := ""
  policyFreshness : String := ""
  phragma : TelemetryPolicyContext := {}
  openNGFW : TelemetryPolicyContext := {}

/-- `eveEvent`: an event read as an alert. -/
structure EveEvent extends EventHeader where
  action : String := ""
  signatureID : Int := 0
  signature : String := ""
  category : String := ""
  severity : Int := 0

/-- `eveFlowEvent`: an event read as a flow, with its counters. -/
structure EveFlowEvent extends EventHeader where
  appProto : String := ""
  pktsToserver : UInt64 := 0
  pktsToclient : UInt64 := 0
  bytesToserver : UInt64 := 0
  bytesToclient : UInt64 := 0

/-- `appid.Result`: the application that a flow is classified as. -/
structure AppResult where
  id : String
  name : String
  category : String
  confidence : UInt32
  evidence : List String

/-- What the readers use of other code: `json.Unmarshal` of a line and of a string, `time.Parse`
of the events' layout, and `appid.ClassifyWithDefinitions` of an engine signal, a protocol and a
port. -/
structure Decoder where
  event : List UInt8 → Option EveEvent
  flowEvent : List UInt8 → Option EveFlowEvent
  text : String → Option String
  parseTime : String → Option Instant
  classify : String → String → Int → AppResult

/-- A file that may be there. -/
inductive EveFile
  | missing
  | unreadable (err : String)
  | file (bytes : List UInt8)

/-! ### Policy stamps

An event may name its policy directly or in one of two contexts. The first place that names a
version decides. -/

/-- `EventPolicyStamp`: the policy of an event, and where in the event it was found. -/
structure EventPolicyStamp where
  version : Nat := 0
  stamp : String := ""
  freshness : String := ""
  source : String := ""

/-- `firstNonEmpty`: the first text that is not blank, trimmed. -/
def firstNonEmpty (values : List String) : String :=
  ((values.map trimSpace).find? fun text => text ≠ "").getD ""

/-- `policyStampFromContext`: the policy as a context gives it. -/
def policyStampFromContext (version : Nat) (source : String) (ctx : TelemetryPolicyContext) :
    EventPolicyStamp where
  version := version
  stamp := firstNonEmpty [ctx.policyStamp, ctx.stamp, "v" ++ decimal version]
  freshness := firstNonEmpty [ctx.policyFreshness, ctx.freshness]
  source := firstNonEmpty [ctx.source, source]

/-- The stamp of one context, if it has a version. -/
def contextStamp (ctx : TelemetryPolicyContext) : Option EventPolicyStamp :=
  if ctx.policyVersion ≠ 0 then
    some (policyStampFromContext ctx.policyVersion "event policy_version" ctx)
  else if ctx.configVersion ≠ 0 then
    some (policyStampFromContext ctx.configVersion "event config_version" ctx)
  else if ctx.runningPolicyVersion ≠ 0 then
    some (policyStampFromContext ctx.runningPolicyVersion "event running_policy_version" ctx)
  else none

/-- `eventPolicyStamp`: the policy as the event gives it, or the first of its contexts. -/
def eventPolicyStamp (direct : Nat) (directStamp directFreshness : String)
    (contexts : List TelemetryPolicyContext) : EventPolicyStamp :=
  if direct ≠ 0 then
    { version := direct
      stamp := firstNonEmpty [directStamp, "v" ++ decimal direct]
      freshness := trimSpace directFreshness
      source := "event.policy_version" }
  else
    match contexts.findSome? contextStamp with
    | some stamp => stamp
    | none => { stamp := trimSpace directStamp, freshness := trimSpace directFreshness }

/-! ### Reading

A line that cannot be read, or is about something else, is passed over. Only a line that is too long
for the scanner is an error, and then nothing of the file is shown. -/

/-- `maxTail`: the bytes of a file that are read, 16 MiB. -/
def maxTail : Nat := 16 * 2 ^ 20

/-- What is read of a file: the newest part of a large one, without the line it begins in. -/
def recentTail (bytes : List UInt8) : List UInt8 :=
  if maxTail < bytes.length then
    ((bytes.drop (bytes.length - maxTail)).dropWhile fun b => b ≠ newline).drop 1
  else bytes

/-- The lines that a scanner with a buffer of 1 MiB gives. -/
def scanLines (bytes : List UInt8) : Except String (List (List UInt8)) :=
  if (byteLines bytes).all fun line => line.length < 2 ^ 20 then
    .ok ((byteLines bytes).map dropByteCR)
  else .error "scan eve file: bufio.Scanner: token too long"

section Readers

variable (lib : Library) (D : Decoder)

/-- `rawIDString`: a flow id, which is written as a number or as a text. -/
def rawIDString (raw : String) : String :=
  if raw = "" ∨ raw = "null" then ""
  else
    match D.text raw with
    | some s => trimSpace s
    | none => trimSpace raw

/-- The policy stamp of an event. -/
def EventHeader.stamp (ev : EventHeader) : EventPolicyStamp :=
  eventPolicyStamp ev.policyVersion ev.policyStamp ev.policyFreshness [ev.phragma, ev.openNGFW]

/-- The alert of a line, if it has one: the body of the loop of `scanAlerts`. -/
def alertOfLine (metadata : List Threatid.PackageMetadata) (line : List UInt8) : Option Alert :=
  if line = [] then none
  else
    match D.event line with
    | none => none
    | some ev =>
        if ev.eventType ≠ "alert" then none
        else
          let policy := ev.toEventHeader.stamp
          let threat := Threatid.ClassifyWithMetadata lib ev.signature ev.signatureID ev.category
            ev.severity ev.action metadata
          some {
            timestamp := (D.parseTime ev.timestamp).getD 0
            signature := ev.signature
            signatureID := ev.signatureID
            severity := ev.severity
            category := ev.category
            srcIP := ev.srcIP
            srcPort := ev.srcPort
            destIP := ev.destIP
            destPort := ev.destPort
            proto := ev.proto
            action := ev.action
            flowID := rawIDString D ev.flowID
            policyVersion := policy.version
            policyStamp := policy.stamp
            policyFreshness := policy.freshness
            policySource := policy.source
            threatID := threat.id
            threatName := threat.name
            threatCategory := threat.category
            threatSeverity := threat.severity
            threatConfidence := threat.confidence
            threatEvidence := threat.evidence }

/-- The flow of a line, if it has one: the body of the loop over the lines. -/
def flowOfLine (line : List UInt8) : Option Flow :=
  if line = [] then none
  else
    match D.flowEvent line with
    | none => none
    | some ev =>
        if ev.eventType ≠ "flow" then none
        else
          let policy := ev.toEventHeader.stamp
          let app := D.classify ev.appProto ev.proto ev.destPort
          some {
            timestamp := (D.parseTime ev.timestamp).getD 0
            srcIP := ev.srcIP
            srcPort := ev.srcPort
            destIP := ev.destIP
            destPort := ev.destPort
            proto := ev.proto
            appProto := ev.appProto
            bytesToServer := ev.bytesToserver
            bytesToClient := ev.bytesToclient
            packets := ev.pktsToserver + ev.pktsToclient
            flowID := rawIDString D ev.flowID
            policyVersion := policy.version
            policyStamp := policy.stamp
            policyFreshness := policy.freshness
            policySource := policy.source
            appID := app.id
            appName := app.name
            appCategory := app.category
            appConfidence := app.confidence
            appEvidence := app.evidence }

/-! ### Filters

A record is shown if it passes each test of the filter. Severities and ports are compared as 32-bit
numbers. -/

/-- `timeInRange`: the test of a time. A record without one passes only where no range is asked
for. -/
def timeInRange (ts since «until» : Instant) : Bool :=
  if ts = 0 then since = 0 && «until» = 0
  else if since ≠ 0 ∧ ts < since then false
  else if «until» ≠ 0 ∧ «until» < ts then false
  else true

/-- `containsFold`: a search that ignores case. -/
def containsFold (s substr : String) : Bool :=
  decide (Contains (lib.toLower s) (lib.toLower substr))

/-- `alertMatches`: the tests of an alert filter. -/
def alertMatches (filter : AlertFilter) (a : Alert) : Bool :=
  if filter.srcIP ≠ "" ∧ a.srcIP ≠ filter.srcIP then false
  else if filter.destIP ≠ "" ∧ a.destIP ≠ filter.destIP then false
  else if filter.ip ≠ "" ∧ a.srcIP ≠ filter.ip ∧ a.destIP ≠ filter.ip then false
  else if filter.protocol ≠ "" ∧ !lib.equalFold a.proto filter.protocol then false
  else if filter.action ≠ "" ∧ !lib.equalFold a.action filter.action then false
  else if filter.severity ≠ 0 ∧ UInt32.ofInt a.severity ≠ filter.severity then false
  else if filter.threatSeverity ≠ "" ∧ !lib.equalFold a.threatSeverity filter.threatSeverity then
    false
  else if filter.signatureID ≠ 0 ∧ a.signatureID ≠ filter.signatureID then false
  else if filter.port ≠ 0 ∧ UInt32.ofInt a.srcPort ≠ filter.port ∧
      UInt32.ofInt a.destPort ≠ filter.port then false
  else if filter.flowID ≠ "" ∧ a.flowID ≠ filter.flowID then false
  else if !timeInRange a.timestamp filter.since filter.until then false
  else if filter.query ≠ "" ∧ !containsFold lib (join [a.srcIP, a.destIP, a.proto, a.action,
      a.signature, a.category, a.threatID, a.threatName, a.threatCategory, a.threatSeverity,
      a.flowID, join a.threatEvidence "\n"] "\n") filter.query then false
  else true

/-- `flowMatches`: the tests of a flow filter. -/
def flowMatches (filter : FlowFilter) (f : Flow) : Bool :=
  if filter.srcIP ≠ "" ∧ f.srcIP ≠ filter.srcIP then false
  else if filter.destIP ≠ "" ∧ f.destIP ≠ filter.destIP then false
  else if filter.ip ≠ "" ∧ f.srcIP ≠ filter.ip ∧ f.destIP ≠ filter.ip then false
  else if filter.protocol ≠ "" ∧ !lib.equalFold f.proto filter.protocol then false
  else if filter.app ≠ "" ∧ !containsFold lib (join [f.appID, f.appName, f.appCategory, f.appProto,
      join f.appEvidence "\n"] "\n") filter.app then false
  else if filter.port ≠ 0 ∧ UInt32.ofInt f.srcPort ≠ filter.port ∧
      UInt32.ofInt f.destPort ≠ filter.port then false
  else if filter.flowID ≠ "" ∧ f.flowID ≠ filter.flowID then false
  else if !timeInRange f.timestamp filter.since filter.until then false
  else if filter.query ≠ "" ∧ !containsFold lib (join [f.srcIP, f.destIP, f.proto, f.appProto,
      f.appID, f.appName, f.appCategory, f.flowID, join f.appEvidence "\n"] "\n") filter.query then
    false
  else true

/-! ### Pages

Records are filtered, and the page is cut from those that are left. The total counts these, so the
cursor ends where they do. -/

/-- `normalizedLimit`: the size of a page, 100 unless the filter gives one. -/
def normalizedLimit (limit : Int) : Nat := if limit ≤ 0 then 100 else limit.toNat

/-- `normalizedOffset`: where the page starts. -/
def normalizedOffset (offset : Int) : Nat := offset.toNat

/-- `pageInfo`: whether records are left, and the cursor to ask with. -/
def pageInfo (offset returned total : Nat) : PageInfo where
  totalMatches := total
  hasMore := decide (offset + returned < total)
  nextCursor := if offset + returned < total then decimal (offset + returned) else ""

/-- The page of the matching records, and what is said about it. -/
def scanPage {α : Type} (isMatch : α → Bool) (offset limit : Nat) (records : List α) :
    List α × PageInfo :=
  let cut := Paging.cutPage isMatch offset limit records
  (cut.1, pageInfo offset cut.1.length cut.2)

/-- `scanAlerts`: the page of alerts among the lines, the newest first. -/
def scanAlerts (bytes : List UInt8) (filter : AlertFilter) (limit : Nat)
    (metadata : List Threatid.PackageMetadata) : Except String (List Alert × PageInfo) :=
  match scanLines bytes with
  | .error err => .error err
  | .ok lines =>
      let alerts := (lines.filterMap (alertOfLine lib D metadata)).reverse
      .ok (scanPage (alertMatches lib filter) (normalizedOffset filter.offset) limit alerts)

/-- `ReadAlertsFilteredPageWithThreatMetadata`: a page of the alerts of a file. No file has no
alerts. -/
def ReadAlertsFilteredPageWithThreatMetadata (eve : EveFile) (filter : AlertFilter)
    (metadata : List Threatid.PackageMetadata) : Except String (List Alert × PageInfo) :=
  match eve with
  | .missing => .ok ([], {})
  | .unreadable err => .error err
  | .file bytes =>
      scanAlerts lib D (recentTail bytes) filter (normalizedLimit filter.limit) metadata

/-- `ReadFlowsFilteredPageWithAppDefinitions`: a page of its flows. -/
def ReadFlowsFilteredPageWithAppDefinitions (eve : EveFile) (filter : FlowFilter) :
    Except String (List Flow × PageInfo) :=
  match eve with
  | .missing => .ok ([], {})
  | .unreadable err => .error err
  | .file bytes =>
      match scanLines (recentTail bytes) with
      | .error err => .error err
      | .ok lines =>
          let flows := (lines.filterMap (flowOfLine D)).reverse
          .ok (scanPage (flowMatches lib filter) (normalizedOffset filter.offset)
            (normalizedLimit filter.limit) flows)

/-- `ReadFlowsFilteredWithAppDefinitions`: the same without what is said of the page. -/
def ReadFlowsFilteredWithAppDefinitions (eve : EveFile) (filter : FlowFilter) :
    Except String (List Flow) :=
  (ReadFlowsFilteredPageWithAppDefinitions lib D eve filter).map Prod.fst

/-! ### What the pages are cut from

Both readers cut pages from one list, the records of the part of the file that is read. What follows
of a walk over pages is general (`Phragma.Lib.Paging`). -/

/-- Can a file be read to its end, if it is there? -/
def EveFile.readable : EveFile → Bool
  | .missing => true
  | .unreadable _ => false
  | .file bytes => (byteLines (recentTail bytes)).all fun line => line.length < 2 ^ 20

/-- The records of what is read of a file, newest first. -/
def EveFile.records {α : Type} (recordOfLine : List UInt8 → Option α) : EveFile → List α
  | .file bytes =>
      (((byteLines (recentTail bytes)).map dropByteCR).filterMap recordOfLine).reverse
  | _ => []

theorem scanLines_recentTail (bytes : List UInt8) : scanLines (recentTail bytes) =
    if (EveFile.file bytes).readable then .ok ((byteLines (recentTail bytes)).map dropByteCR)
    else .error "scan eve file: bufio.Scanner: token too long" := rfl

theorem scanPage_nil {α : Type} (isMatch : α → Bool) (offset limit : Nat) :
    scanPage isMatch offset limit [] = ([], {}) := by
  simp [scanPage, Paging.cutPage, pageInfo]

/-- **Alerts are read in pages**, or not at all. -/
theorem readAlerts_eq (eve : EveFile) (filter : AlertFilter)
    (metadata : List Threatid.PackageMetadata) :
    if eve.readable then
      ReadAlertsFilteredPageWithThreatMetadata lib D eve filter metadata =
        .ok (scanPage (alertMatches lib filter) (normalizedOffset filter.offset)
          (normalizedLimit filter.limit) (eve.records (alertOfLine lib D metadata)))
    else
      ∃ err, ReadAlertsFilteredPageWithThreatMetadata lib D eve filter metadata = .error err := by
  cases eve with
  | missing => exact congrArg Except.ok (scanPage_nil _ _ _).symm
  | unreadable err => exact ⟨err, rfl⟩
  | file bytes =>
      cases hfit : EveFile.readable (.file bytes) with
      | true =>
          rw [if_pos rfl, ReadAlertsFilteredPageWithThreatMetadata, scanAlerts,
            scanLines_recentTail, if_pos hfit]
          rfl
      | false =>
          refine ⟨"scan eve file: bufio.Scanner: token too long", ?_⟩
          rw [ReadAlertsFilteredPageWithThreatMetadata, scanAlerts, scanLines_recentTail,
            if_neg (Bool.eq_false_iff.mp hfit)]

/-- **Flows are read in pages**, or not at all. -/
theorem readFlows_eq (eve : EveFile) (filter : FlowFilter) :
    if eve.readable then
      ReadFlowsFilteredPageWithAppDefinitions lib D eve filter =
        .ok (scanPage (flowMatches lib filter) (normalizedOffset filter.offset)
          (normalizedLimit filter.limit) (eve.records (flowOfLine D)))
    else ∃ err, ReadFlowsFilteredPageWithAppDefinitions lib D eve filter = .error err := by
  cases eve with
  | missing => exact congrArg Except.ok (scanPage_nil _ _ _).symm
  | unreadable err => exact ⟨err, rfl⟩
  | file bytes =>
      cases hfit : EveFile.readable (.file bytes) with
      | true =>
          rw [if_pos rfl, ReadFlowsFilteredPageWithAppDefinitions, scanLines_recentTail,
            if_pos hfit]
          rfl
      | false =>
          refine ⟨"scan eve file: bufio.Scanner: token too long", ?_⟩
          rw [ReadFlowsFilteredPageWithAppDefinitions, scanLines_recentTail,
            if_neg (Bool.eq_false_iff.mp hfit)]

end Readers

theorem length_recentTail (bytes : List UInt8) : (recentTail bytes).length ≤ maxTail := by
  unfold recentTail
  split
  · have hskip := (List.dropWhile_suffix (l := bytes.drop (bytes.length - maxTail))
      fun b => b ≠ newline).length_le
    rw [List.length_drop] at hskip
    rw [List.length_drop]
    omega
  · omega

theorem length_byteLinesFrom (cur bytes : List UInt8) :
    (byteLinesFrom cur bytes).length ≤ bytes.length + 1 := by
  induction bytes generalizing cur with
  | nil =>
      rw [byteLinesFrom]
      split <;> simp
  | cons b bytes ih =>
      rw [byteLinesFrom]
      split
      · rw [List.length_cons, List.length_cons]
        exact Nat.succ_le_succ (ih [])
      · exact (ih _).trans (by simp)

/-- No file has more than so many records to page over. -/
theorem length_records_le {α : Type} (recordOfLine : List UInt8 → Option α) (eve : EveFile) :
    (eve.records recordOfLine).length ≤ maxTail + 1 := by
  cases eve with
  | missing => exact Nat.zero_le _
  | unreadable err => exact Nat.zero_le _
  | file bytes =>
      have hlines := (length_byteLinesFrom [] (recentTail bytes)).trans
        (Nat.succ_le_succ (length_recentTail bytes))
      have hrecords := List.length_filterMap_le recordOfLine
        ((byteLines (recentTail bytes)).map dropByteCR)
      rw [List.length_map] at hrecords
      rw [EveFile.records, List.length_reverse]
      exact hrecords.trans hlines

end Phragma.Telemetry
