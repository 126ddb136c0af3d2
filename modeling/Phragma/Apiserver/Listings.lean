import Phragma.Apiserver.Apply
import Phragma.Conntrack.Session
import Phragma.Go.Url
import Phragma.Telemetry.Eve

/-!
# Phragma.Apiserver.Listings

**Listing telemetry in pages**: the calls that list alerts, flows, live sessions and App-ID
observations (`internal/apiserver/alerts.go`, `flows.go` and `appid.go`). All four carry a decimal
offset in the cursor and cut the page with the same scan (`Lib.Paging.cutPage`), so following the
cursor lists everything once (`listings_complete`). Of a large EVE file only the newest 16 MiB are
read, so an older record is on no page (`alertFile_unlisted`).

The running policy and the content packages are read as they are; of a response the page stands
here, with the records before they are written as messages.
-/

namespace Phragma.Apiserver

open Lib Go Telemetry
open Appid (Library Instant Observation ObservationKind ObservedFlow BuildObservations Iteration
  DefaultObservationConfidenceThreshold)

/-! ### Requests

Times and cursor are checked before anything is read. -/

/-- A timestamp of a request: none, or one that may be invalid. -/
abbrev Timestamp := Option (Except String Instant)

/-- `optionalTimestamp`: a time that need not be given. -/
def optionalTimestamp (ts : Timestamp) (field : String) : Except Status Instant :=
  match ts with
  | none => .ok 0
  | some (.error err) => .error ⟨.invalidArgument, field ++ " timestamp is invalid: " ++ err⟩
  | some (.ok t) => .ok t

/-- The times that a request asks for. -/
def timeRange (since «until» : Timestamp) : Except Status (Instant × Instant) :=
  match optionalTimestamp since "since" with
  | .error err => .error err
  | .ok since =>
      match optionalTimestamp «until» "until" with
      | .error err => .error err
      | .ok «until» =>
          if since ≠ 0 ∧ «until» ≠ 0 ∧ «until» < since then
            .error ⟨.invalidArgument, "since must be at or before until"⟩
          else .ok (since, «until»)

/-- `pageOffset`: the offset of a cursor. -/
def pageOffset (cursor : String) : Except Status Nat :=
  let cursor := trimSpace cursor
  if cursor = "" then .ok 0
  else
    match atoi cursor with
    | some offset =>
        if offset < 0 then .error ⟨.invalidArgument, "page_cursor is invalid"⟩
        else .ok offset.toNat
    | none => .error ⟨.invalidArgument, "page_cursor is invalid"⟩

/-- `ListAlertsRequest`: a page of alerts. -/
structure ListAlertsRequest where
  limit : UInt32 := 0
  srcIp : String := ""
  destIp : String := ""
  ip : String := ""
  protocol : String := ""
  action : String := ""
  severity : UInt32 := 0
  threatSeverity : String := ""
  signatureId : Int := 0
  port : UInt32 := 0
  since : Timestamp := none
  «until» : Timestamp := none
  query : String := ""
  flowId : String := ""
  pageCursor : String := ""

/-- `ListFlowsRequest`: a page of flows. -/
structure ListFlowsRequest where
  limit : UInt32 := 0
  srcIp : String := ""
  destIp : String := ""
  ip : String := ""
  protocol : String := ""
  app : String := ""
  port : UInt32 := 0
  since : Timestamp := none
  «until» : Timestamp := none
  query : String := ""
  flowId : String := ""
  pageCursor : String := ""

/-- `ListSessionsRequest`: a page of live sessions. -/
structure ListSessionsRequest where
  limit : UInt32 := 0
  srcIp : String := ""
  destIp : String := ""
  ip : String := ""
  protocol : String := ""
  port : UInt32 := 0
  state : String := ""
  query : String := ""
  pageCursor : String := ""

/-- `ListAppIdObservationsRequest`: a page of observations, of so many flows. -/
structure ListAppIdObservationsRequest where
  limit : UInt32 := 0
  flowLimit : UInt32 := 0
  confidenceThreshold : UInt32 := 0
  since : Timestamp := none
  «until» : Timestamp := none
  query : String := ""
  kind : Option ObservationKind := none
  engineSignal : String := ""
  protocol : String := ""
  port : UInt32 := 0
  pageCursor : String := ""

/-- The page of a response. -/
structure Listing (α : Type) extends Paging.Page α String where
  totalMatches : UInt32

/-- The page of a response, from what was read. -/
def listing {α : Type} (read : List α × PageInfo) : Listing α where
  records := read.1
  nextCursor := read.2.nextCursor
  hasMore := read.2.hasMore
  totalMatches := UInt32.ofNat read.2.totalMatches

/-- What the calls have in common: a request is refused, or the page at its cursor is read. -/
def paged {α ρ : Type} (range : Except Status ρ) (cursor : String)
    (read : ρ → Nat → Except Status (Listing α)) : Except Status (Listing α) :=
  match range with
  | .error err => .error err
  | .ok range =>
      match pageOffset cursor with
      | .error err => .error err
      | .ok offset => read range offset

section Calls

variable (lib : Library) (D : Decoder)

/-! ### Alerts and flows -/

/-- The filter of a request. -/
def ListAlertsRequest.filter (req : ListAlertsRequest) (range : Instant × Instant) (offset : Nat) :
    AlertFilter where
  limit := req.limit.toNat
  offset := offset
  srcIP := req.srcIp
  destIP := req.destIp
  ip := req.ip
  protocol := req.protocol
  action := req.action
  severity := req.severity
  threatSeverity := req.threatSeverity
  signatureID := req.signatureId
  port := req.port
  since := range.1
  «until» := range.2
  query := req.query
  flowID := req.flowId

/-- The page of a response to `ListAlerts`. -/
def alertsPage (eve : EveFile) (metadata : List Threatid.PackageMetadata) (req : ListAlertsRequest)
    (range : Instant × Instant) (offset : Nat) : Except Status (Listing Alert) :=
  match ReadAlertsFilteredPageWithThreatMetadata lib D eve (req.filter range offset) metadata with
  | .error err => .error ⟨.internal, "read alerts: " ++ err⟩
  | .ok read => .ok (listing read)

/-- `ListAlerts`, on a file and the metadata of the Threat-ID package. -/
def ListAlerts (eve : EveFile) (metadata : List Threatid.PackageMetadata)
    (req : ListAlertsRequest) : Except Status (Listing Alert) :=
  paged (timeRange req.since req.until) req.pageCursor (alertsPage lib D eve metadata req)

/-- The filter of a request. -/
def ListFlowsRequest.filter (req : ListFlowsRequest) (range : Instant × Instant) (offset : Nat) :
    FlowFilter where
  limit := req.limit.toNat
  offset := offset
  srcIP := req.srcIp
  destIP := req.destIp
  ip := req.ip
  protocol := req.protocol
  app := req.app
  port := req.port
  since := range.1
  «until» := range.2
  query := req.query
  flowID := req.flowId

/-- The page of a response to `ListFlows`. -/
def flowsPage (eve : EveFile) (req : ListFlowsRequest) (range : Instant × Instant) (offset : Nat) :
    Except Status (Listing Flow) :=
  match ReadFlowsFilteredPageWithAppDefinitions lib D eve (req.filter range offset) with
  | .error err => .error ⟨.internal, "read flows: " ++ err⟩
  | .ok read => .ok (listing read)

/-- `ListFlows`, on a file. -/
def ListFlows (eve : EveFile) (req : ListFlowsRequest) : Except Status (Listing Flow) :=
  paged (timeRange req.since req.until) req.pageCursor (flowsPage lib D eve req)

/-! ### Sessions -/

/-- The filter of a request. -/
def ListSessionsRequest.filter (req : ListSessionsRequest) (offset : Nat) : Conntrack.Filter where
  limit := req.limit.toNat
  offset := offset
  srcIP := req.srcIp
  destIP := req.destIp
  ip := req.ip
  protocol := req.protocol
  port := req.port.toNat
  state := req.state
  query := req.query

/-- The page of a response to `ListSessions`. -/
def sessionsPage (command : Conntrack.Command) (req : ListSessionsRequest) (offset : Nat) :
    Except Status (Listing Conntrack.Session) :=
  match Conntrack.List lib command (req.filter offset) with
  | .error err => .error ⟨.internal, "read sessions: " ++ err⟩
  | .ok result => .ok {
      records := result.sessions
      nextCursor := result.nextCursor
      hasMore := result.hasMore
      totalMatches := result.totalMatches }

/-- `ListSessions`, on what the command gives. -/
def ListSessions (command : Conntrack.Command) (req : ListSessionsRequest) :
    Except Status (Listing Conntrack.Session) :=
  paged (.ok ()) req.pageCursor fun _ => sessionsPage lib command req

/-! ### App-ID observations

Observations are made of the flows that are read, all of them for every page. So pages fit together
only if the same flows are read. -/

/-- `defaultAppIDObservationLimit`: the size of a page. -/
def defaultAppIDObservationLimit : Nat := 100

/-- `defaultAppIDObservationFlowLimit`: how many flows are looked at. -/
def defaultAppIDObservationFlowLimit : Nat := 1000

/-- `observedFlows`, on one flow. -/
def observedFlowOf (flow : Flow) : ObservedFlow where
  timestamp := flow.timestamp
  srcIP := flow.srcIP
  srcPort := flow.srcPort
  destIP := flow.destIP
  destPort := flow.destPort
  protocol := flow.proto
  engineSignal := flow.appProto
  engineSignalSource := if trimSpace flow.appProto ≠ "" then "suricata.app_proto" else ""
  appID := flow.appID
  appName := flow.appName
  appCategory := flow.appCategory
  appConfidence := flow.appConfidence
  appEvidence := flow.appEvidence
  bytesToServer := flow.bytesToServer
  bytesToClient := flow.bytesToClient
  packets := flow.packets
  flowID := flow.flowID

/-- `observationMatchesRequest`: the tests of a request. -/
def observationMatchesRequest (req : ListAppIdObservationsRequest) (obs : Observation) : Bool :=
  if req.kind ≠ none ∧ req.kind ≠ some obs.kind then false
  else if req.engineSignal ≠ "" ∧ !lib.equalFold obs.engineSignal req.engineSignal then false
  else if req.protocol ≠ "" ∧ !lib.equalFold obs.protocol req.protocol then false
  else if req.port ≠ 0 ∧ obs.destPort ≠ req.port.toNat then false
  else if req.query ≠ "" ∧ !Telemetry.containsFold lib (join [obs.queueID, obs.kind.text, obs.appID,
      obs.appName, obs.appCategory, obs.engineSignal, obs.engineSignalSource, obs.protocol,
      obs.sampleFlowID, obs.sampleSrcIP, obs.sampleDestIP, obs.suggestedApplication.id,
      obs.suggestedApplication.name, obs.suggestedApplication.category,
      join obs.suggestedApplication.engineSignals "\n", join obs.appEvidence "\n"] "\n")
      req.query then false
  else true

/-- How many flows a request looks at. -/
def ListAppIdObservationsRequest.flowScan (req : ListAppIdObservationsRequest) : Nat :=
  if req.flowLimit = 0 then defaultAppIDObservationFlowLimit else req.flowLimit.toNat

/-- The threshold of a request. -/
def ListAppIdObservationsRequest.threshold (req : ListAppIdObservationsRequest) : UInt32 :=
  if req.confidenceThreshold = 0 then DefaultObservationConfidenceThreshold
  else req.confidenceThreshold

/-- The limit of a request. -/
def ListAppIdObservationsRequest.pageLimit (req : ListAppIdObservationsRequest) : Nat :=
  if req.limit = 0 then defaultAppIDObservationLimit else req.limit.toNat

/-- The observations that a request looks at, when a map is iterated in the given way. -/
def observationsOf (iterate : Iteration) (eve : EveFile) (req : ListAppIdObservationsRequest)
    (range : Instant × Instant) : Except String (List Observation) :=
  match ReadFlowsFilteredWithAppDefinitions lib D eve
      { limit := req.flowScan, since := range.1, «until» := range.2 } with
  | .error err => .error err
  | .ok flows =>
      .ok (BuildObservations lib iterate (flows.map observedFlowOf)
        { confidenceThreshold := req.threshold })

/-- The page of a response to `ListAppIdObservations`. -/
def observationsPage (iterate : Iteration) (eve : EveFile) (req : ListAppIdObservationsRequest)
    (range : Instant × Instant) (offset : Nat) : Except Status (Listing Observation) :=
  match observationsOf lib D iterate eve req range with
  | .error err => .error ⟨.internal, "read flows: " ++ err⟩
  | .ok observations =>
      let cut :=
        Paging.cutPage (observationMatchesRequest lib req) offset req.pageLimit observations
      let next := offset + cut.1.length
      .ok {
        records := cut.1
        totalMatches := UInt32.ofNat cut.2
        hasMore := decide (next < cut.2)
        nextCursor := if next < cut.2 then decimal next else "" }

/-- `ListAppIdObservations`, on a file. -/
def ListAppIdObservations (iterate : Iteration) (eve : EveFile)
    (req : ListAppIdObservationsRequest) : Except Status (Listing Observation) :=
  paged (timeRange req.since req.until) req.pageCursor (observationsPage lib D iterate eve req)

end Calls

/-! ### Following the cursor

Each call cuts its page from one list at the offset of the cursor, and gives the next offset. The
walk over such pages is general, and each call is shown to be one. -/

/-- **Every record once, in order**: following the cursor from the start ends and gives `all`. -/
def ListsAll {α : Type} (call : String → Except Status (Listing α)) (all : List α) : Prop :=
  ∀ calls, all.length < calls →
    Paging.follow (fun cursor => (call cursor).map Listing.toPage) calls "" = some (.ok all)

theorem pageOffset_empty : pageOffset "" = .ok 0 := by decide +kernel

/-- The cursor of a page is read as it was written. -/
theorem pageOffset_decimal {n : Nat} (h : n < 2 ^ 63) : pageOffset (decimal n) = .ok n := by
  have hword := isWord_decimal n
  have hpos : ¬ (n : Int) < 0 := by omega
  unfold pageOffset
  dsimp only
  rw [trimSpace_eq_self hword.2, if_neg hword.1, atoi_decimal h]
  dsimp only
  rw [if_neg hpos, Int.toNat_natCast]

/-- A page as the scans cut it, with the cursor of the next one. -/
structure CutAt {α : Type} (isMatch : α → Bool) (limit : Nat) (all : List α) (offset : Nat)
    (page : Listing α) : Prop where
  records : page.records = (Paging.cutPage isMatch offset limit all).1
  hasMore : page.hasMore =
    decide (offset + page.records.length < (Paging.cutPage isMatch offset limit all).2)
  nextCursor : page.hasMore = true → page.nextCursor = decimal (offset + page.records.length)

/-- A call that gives the page at its cursor lists everything. -/
theorem listsAll_of_page {α : Type} {call : String → Except Status (Listing α)}
    {isMatch : α → Bool} {all : List α} {limit : Nat} (hlimit : 0 < limit)
    (hlen : all.length ≤ 2 ^ 63)
    (hcall : ∀ cursor offset, pageOffset cursor = .ok offset →
      ∃ page, call cursor = .ok page ∧ CutAt isMatch limit all offset page) :
    ListsAll call (all.filter isMatch) := by
  have hmatches := List.length_filter_le isMatch all
  have hpages : Paging.PagesOf (all.filter isMatch) limit
      (fun cursor offset => pageOffset cursor = .ok offset)
      fun cursor => (call cursor).map Listing.toPage := by
    refine ⟨hlimit, fun cursor offset hcursor _ => ?_⟩
    obtain ⟨page, hpage, hrecords, hmore, hnext⟩ := hcall cursor offset hcursor
    rw [Paging.cutPage_eq] at hrecords hmore
    refine ⟨page.toPage, by rw [hpage]; rfl, hrecords, by rw [hmore, decide_eq_true_iff],
      fun h => ?_⟩
    have hlt : offset + page.records.length < (all.filter isMatch).length := by
      rw [hmore, decide_eq_true_iff] at h
      exact h
    rw [hnext h]
    exact pageOffset_decimal (by omega)
  intro calls hcalls
  exact Paging.follow_of_pagesOf hpages pageOffset_empty (Nat.zero_le _) hcalls

/-- Where the page at every offset can be read, everything is listed. The reading may depend on the
cursor, as the iteration of a map does. -/
theorem listsAll_paged {α ρ : Type} {range : Except Status ρ}
    {read : String → ρ → Nat → Except Status (Listing α)} {isMatch : ρ → α → Bool} {limit : Nat}
    (hlimit : 0 < limit) {all : ρ → List α}
    (hread : ∀ r, (∀ cursor, ∃ err, read cursor r 0 = .error err) ∨ (all r).length ≤ 2 ^ 63 ∧
      ∀ cursor offset, ∃ page, read cursor r offset = .ok page ∧
        CutAt (isMatch r) limit (all r) offset page) :
    (∃ err, paged range "" (read "") = .error err) ∨
      ∃ r, range = .ok r ∧
        ListsAll (fun cursor => paged range cursor (read cursor)) ((all r).filter (isMatch r)) := by
  cases range with
  | error err => exact .inl ⟨err, rfl⟩
  | ok r =>
      rcases hread r with herr | ⟨hlen, hpage⟩
      · obtain ⟨err, herr⟩ := herr ""
        refine .inl ⟨err, ?_⟩
        rw [paged, pageOffset_empty]
        exact herr
      · refine .inr ⟨r, rfl, listsAll_of_page hlimit hlen fun cursor offset hcursor => ?_⟩
        obtain ⟨page, hok, hcut⟩ := hpage cursor offset
        refine ⟨page, ?_, hcut⟩
        rw [paged, hcursor]
        exact hok

section Complete

variable (lib : Library) (D : Decoder)

theorem pos_normalizedLimit (limit : Int) : 0 < normalizedLimit limit := by
  unfold normalizedLimit
  split <;> omega

/-- The page that a scan of the telemetry gives. -/
theorem cutAt_scanPage {α : Type} (isMatch : α → Bool) (offset limit : Nat) (all : List α) :
    CutAt isMatch limit all offset (listing (scanPage isMatch offset limit all)) :=
  ⟨rfl, rfl, fun h => if_pos (of_decide_eq_true h)⟩

/-- **Alerts**: the first call fails, or all that match are listed, newest first. -/
theorem listAlerts_listsAll (eve : EveFile) (metadata : List Threatid.PackageMetadata)
    (req : ListAlertsRequest) :
    (∃ err, ListAlerts lib D eve metadata { req with pageCursor := "" } = .error err) ∨
      ∃ range, timeRange req.since req.until = .ok range ∧
        ListsAll (fun cursor => ListAlerts lib D eve metadata { req with pageCursor := cursor })
          ((eve.records (alertOfLine lib D metadata)).filter
            (alertMatches lib (req.filter range 0))) := by
  refine @listsAll_paged _ _ _ (fun _ => alertsPage lib D eve metadata req)
    (fun range => alertMatches lib (req.filter range 0)) _ (pos_normalizedLimit req.limit.toNat)
    (fun _ => eve.records (alertOfLine lib D metadata)) fun range => ?_
  have hread := fun offset => readAlerts_eq lib D eve (req.filter range offset) metadata
  cases hready : eve.readable with
  | false =>
      simp only [hready, Bool.false_eq_true, if_false] at hread
      obtain ⟨err, herr⟩ := hread 0
      refine .inl fun _ => ⟨⟨.internal, "read alerts: " ++ err⟩, ?_⟩
      rw [alertsPage, herr]
  | true =>
      simp only [hready, if_true] at hread
      have hlen := length_records_le (alertOfLine lib D metadata) eve
      refine .inr ⟨by rw [maxTail] at hlen; omega, fun _ offset =>
        ⟨_, ?_, cutAt_scanPage _ offset _ _⟩⟩
      rw [alertsPage, hread]
      rfl

/-- **Flows**: the first call fails, or all that match are listed, newest first. -/
theorem listFlows_listsAll (eve : EveFile) (req : ListFlowsRequest) :
    (∃ err, ListFlows lib D eve { req with pageCursor := "" } = .error err) ∨
      ∃ range, timeRange req.since req.until = .ok range ∧
        ListsAll (fun cursor => ListFlows lib D eve { req with pageCursor := cursor })
          ((eve.records (flowOfLine D)).filter (flowMatches lib (req.filter range 0))) := by
  refine @listsAll_paged _ _ _ (fun _ => flowsPage lib D eve req)
    (fun range => flowMatches lib (req.filter range 0)) _ (pos_normalizedLimit req.limit.toNat)
    (fun _ => eve.records (flowOfLine D)) fun range => ?_
  have hread := fun offset => readFlows_eq lib D eve (req.filter range offset)
  cases hready : eve.readable with
  | false =>
      simp only [hready, Bool.false_eq_true, if_false] at hread
      obtain ⟨err, herr⟩ := hread 0
      refine .inl fun _ => ⟨⟨.internal, "read flows: " ++ err⟩, ?_⟩
      rw [flowsPage, herr]
  | true =>
      simp only [hready, if_true] at hread
      have hlen := length_records_le (flowOfLine D) eve
      refine .inr ⟨by rw [maxTail] at hlen; omega, fun _ offset =>
        ⟨_, ?_, cutAt_scanPage _ offset _ _⟩⟩
      rw [flowsPage, hread]
      rfl

/-- The sessions that there are: what the command prints, if it does. -/
def liveSessions : Conntrack.Command → List Conntrack.Session
  | .printed out => Conntrack.sessions lib out
  | _ => []

/-- Where there is nothing, a page is empty. -/
theorem cutAt_nil {α : Type} (isMatch : α → Bool) (limit offset : Nat) {page : Listing α}
    (hrecords : page.records = []) (hmore : page.hasMore = false) :
    CutAt isMatch limit [] offset page := by
  refine ⟨hrecords, ?_, fun h => ?_⟩
  · rw [hmore, hrecords]
    simp [Paging.cutPage]
  · rw [hmore] at h
    cases h

/-- **Sessions**: the first call fails, or all that match are listed, in the order in which they
are printed. The length of what is printed is an `int`. -/
theorem listSessions_listsAll (command : Conntrack.Command) (req : ListSessionsRequest)
    (hint : ∀ out, command = .printed out → out.length < 2 ^ 63) :
    (∃ err, ListSessions lib command { req with pageCursor := "" } = .error err) ∨
      ListsAll (fun cursor => ListSessions lib command { req with pageCursor := cursor })
        ((liveSessions lib command).filter (Conntrack.isMatch lib (req.filter 0))) := by
  have hlimit : 0 < (if (req.filter 0).limit ≤ 0 then 100 else (req.filter 0).limit.toNat) := by
    split <;> omega
  have hall := @listsAll_paged _ _ (.ok ()) (fun _ _ => sessionsPage lib command req)
    (fun _ => Conntrack.isMatch lib (req.filter 0)) _ hlimit (fun _ => liveSessions lib command)
    fun _ => ?_
  · exact hall.imp id fun ⟨_, _, h⟩ => h
  · cases command with
    | missing =>
        refine .inr ⟨Nat.zero_le _, fun _ offset => ⟨_, rfl, ?_⟩⟩
        exact cutAt_nil _ _ offset rfl rfl
    | failed out err =>
        rcases Conntrack.list_of_failed lib out err with ⟨e, herr⟩ | ⟨result, hnone, hmore, hok⟩
        · refine .inl fun _ => ⟨⟨.internal, "read sessions: " ++ e⟩, ?_⟩
          rw [sessionsPage, herr]
        · refine .inr ⟨Nat.zero_le _, fun _ offset => ⟨⟨⟨result.sessions, result.nextCursor,
            result.hasMore⟩, result.totalMatches⟩, ?_, cutAt_nil _ _ offset hnone hmore⟩⟩
          rw [sessionsPage, hok]
    | printed out =>
        have hlen := Conntrack.length_sessions_le lib out
        refine .inr ⟨hlen.trans (hint out rfl), fun _ offset => ⟨_, rfl, rfl, rfl, fun h => ?_⟩⟩
        exact if_pos (of_decide_eq_true h)

/-- The observations of the flows that a request looks at: the newest ones in its time range. -/
def eveObservations (eve : EveFile) (req : ListAppIdObservationsRequest)
    (range : Instant × Instant) : List Observation :=
  let filter : FlowFilter := { since := range.1, «until» := range.2 }
  BuildObservations lib ⟨id, fun _ => .refl _⟩
    ((((eve.records (flowOfLine D)).filter (flowMatches lib filter)).take req.flowScan).map
      observedFlowOf)
    { confidenceThreshold := req.threshold }

/-- **Observations**: the first call fails, or all that match are listed in their order, however
the map of them is iterated in each call. -/
theorem listObservations_listsAll (iterate : String → Iteration) (eve : EveFile)
    (req : ListAppIdObservationsRequest) :
    (∃ err, ListAppIdObservations lib D (iterate "") eve { req with pageCursor := "" } =
        .error err) ∨
      ∃ range, timeRange req.since req.until = .ok range ∧
        ListsAll
          (fun cursor => ListAppIdObservations lib D (iterate cursor) eve
            { req with pageCursor := cursor })
          ((eveObservations lib D eve req range).filter (observationMatchesRequest lib req)) := by
  have hpos : ∀ n : UInt32, n ≠ 0 → 0 < n.toNat := fun n hn =>
    Nat.pos_of_ne_zero fun h => hn (UInt32.toNat_inj.mp h)
  have hlimit : 0 < req.pageLimit := by
    unfold ListAppIdObservationsRequest.pageLimit defaultAppIDObservationLimit
    split
    · omega
    · next hne => exact hpos _ hne
  have hscan : normalizedLimit req.flowScan = req.flowScan := by
    unfold normalizedLimit ListAppIdObservationsRequest.flowScan defaultAppIDObservationFlowLimit
    split
    · rfl
    · next hne =>
        have hn := hpos _ hne
        rw [if_neg (by omega), Int.toNat_natCast]
  refine @listsAll_paged _ _ _ (fun cursor => observationsPage lib D (iterate cursor) eve req)
    (fun _ => observationMatchesRequest lib req) _ hlimit
    (fun range => eveObservations lib D eve req range) fun range => ?_
  have hread := readFlows_eq lib D eve
    { limit := req.flowScan, since := range.1, «until» := range.2 }
  cases hready : eve.readable with
  | false =>
      simp only [hready, Bool.false_eq_true, if_false] at hread
      obtain ⟨err, herr⟩ := hread
      refine .inl fun cursor => ⟨⟨.internal, "read flows: " ++ err⟩, ?_⟩
      rw [observationsPage, observationsOf, ReadFlowsFilteredWithAppDefinitions, herr]
      rfl
  | true =>
      simp only [hready, if_true] at hread
      have hflows : ∀ order, observationsOf lib D order eve req range =
          .ok (eveObservations lib D eve req range) := by
        intro order
        have hpage : (scanPage (flowMatches lib
            { limit := req.flowScan, since := range.1, «until» := range.2 }) 0 req.flowScan
            (eve.records (flowOfLine D))).1 =
            ((eve.records (flowOfLine D)).filter
              (flowMatches lib { since := range.1, «until» := range.2 })).take req.flowScan := by
          rw [scanPage, Paging.cutPage_eq]
          rfl
        rw [observationsOf, ReadFlowsFilteredWithAppDefinitions, hread, hscan]
        show Except.ok (BuildObservations lib order ((scanPage _ 0 _ _).1.map _) _) = _
        rw [hpage, Appid.buildObservations_iterate lib order ⟨id, fun _ => .refl _⟩]
        rfl
      refine .inr ⟨?_, fun cursor offset => ⟨_, by rw [observationsPage, hflows], rfl, rfl, fun h =>
        if_pos (of_decide_eq_true h)⟩⟩
      -- no more observations than flows, and no more flows than records
      have hrecords := length_records_le (flowOfLine D) eve
      have hmatches := List.length_filter_le
        (flowMatches lib { since := range.1, «until» := range.2 }) (eve.records (flowOfLine D))
      have htaken := List.length_take_le' req.flowScan ((eve.records (flowOfLine D)).filter
        (flowMatches lib { since := range.1, «until» := range.2 }))
      have hbuilt := Appid.length_buildObservations_le lib ⟨id, fun _ => .refl _⟩
        ((((eve.records (flowOfLine D)).filter
          (flowMatches lib { since := range.1, «until» := range.2 })).take req.flowScan).map
            observedFlowOf) { confidenceThreshold := req.threshold }
      rw [List.length_map] at hbuilt
      rw [maxTail] at hrecords
      exact hbuilt.trans (htaken.trans (hmatches.trans (hrecords.trans (by omega))))

/-- **Cursor paging lists everything once.** For every file, output and request, either the first
call fails or following the cursor ends, and the pages together are all records that match in what
is read: alerts and flows newest first, sessions as they are printed, and the observations of the
flows that are looked at in their order. -/
theorem listings_complete :
    (∀ (eve : EveFile) (metadata : List Threatid.PackageMetadata) (req : ListAlertsRequest),
      (∃ err, ListAlerts lib D eve metadata { req with pageCursor := "" } = .error err) ∨
        ∃ range, timeRange req.since req.until = .ok range ∧
          ListsAll (fun cursor => ListAlerts lib D eve metadata { req with pageCursor := cursor })
            ((eve.records (alertOfLine lib D metadata)).filter
              (alertMatches lib (req.filter range 0)))) ∧
    (∀ (eve : EveFile) (req : ListFlowsRequest),
      (∃ err, ListFlows lib D eve { req with pageCursor := "" } = .error err) ∨
        ∃ range, timeRange req.since req.until = .ok range ∧
          ListsAll (fun cursor => ListFlows lib D eve { req with pageCursor := cursor })
            ((eve.records (flowOfLine D)).filter (flowMatches lib (req.filter range 0)))) ∧
    (∀ (command : Conntrack.Command) (req : ListSessionsRequest),
      (∀ out, command = .printed out → out.length < 2 ^ 63) →
      (∃ err, ListSessions lib command { req with pageCursor := "" } = .error err) ∨
        ListsAll (fun cursor => ListSessions lib command { req with pageCursor := cursor })
          ((liveSessions lib command).filter (Conntrack.isMatch lib (req.filter 0)))) ∧
    ∀ (iterate : String → Iteration) (eve : EveFile) (req : ListAppIdObservationsRequest),
      (∃ err, ListAppIdObservations lib D (iterate "") eve { req with pageCursor := "" } =
          .error err) ∨
        ∃ range, timeRange req.since req.until = .ok range ∧
          ListsAll
            (fun cursor => ListAppIdObservations lib D (iterate cursor) eve
              { req with pageCursor := cursor })
            ((eveObservations lib D eve req range).filter (observationMatchesRequest lib req)) :=
  ⟨listAlerts_listsAll lib D, listFlows_listsAll lib D, listSessions_listsAll lib,
    listObservations_listsAll lib D⟩

end Complete

/-- A line with an alert, and how it is decoded. -/
def alertLine : List UInt8 := ascii "\x7b\"event_type\":\"alert\"\x7d"

def alertDecoder : Decoder where
  event line := if line = alertLine then some { eventType := "alert" } else none
  flowEvent line := if line = alertLine then some { eventType := "alert" } else none
  text _ := none
  parseTime _ := none
  classify _ _ _ := ⟨"unknown", "Unknown", "unknown", 0, ["no engine application signal"]⟩

def twoSessions : String :=
  "tcp 6 431999 ESTABLISHED src=10.0.0.1 dst=10.0.0.2 sport=40000 dport=443\n" ++
    "udp 17 29 src=10.0.0.3 dst=10.0.0.4 sport=5353 dport=53"

theorem listings_twoSessions :
    (liveSessions Appid.asciiLibrary (.printed twoSessions)).length = 2 ∧
      ((∃ err, ListSessions Appid.asciiLibrary (.printed twoSessions) { limit := 1 } =
          .error err) ∨
        ListsAll (fun cursor => ListSessions Appid.asciiLibrary (.printed twoSessions)
            { limit := 1, pageCursor := cursor })
          ((liveSessions Appid.asciiLibrary (.printed twoSessions)).filter
            (Conntrack.isMatch Appid.asciiLibrary
              (ListSessionsRequest.filter { limit := 1 } 0)))) := by
  refine ⟨by decide +kernel, (listings_complete Appid.asciiLibrary alertDecoder).2.2.1 _
    { limit := 1 } ?_⟩
  rintro out ⟨⟩
  decide +kernel

/-! ### A file larger than what is read

An alert in front of 16 MiB of blank lines. -/

/-- An alert, and line ends after it. -/
def alertFile (n : Nat) : List UInt8 := alertLine ++ newline :: List.replicate n newline

theorem recentTail_alertFile : recentTail (alertFile maxTail) =
    List.replicate (maxTail - 1) newline := by
  have hpos : 0 < maxTail := by decide
  generalize hn : maxTail = n at hpos
  have hsplit : alertFile n = (alertLine ++ [newline]) ++ List.replicate n newline := by
    simp [alertFile]
  have hlen : (alertFile n).length = (alertLine ++ [newline]).length + n := by
    rw [hsplit, List.length_append, List.length_replicate]
  have hlarge : n < (alertFile n).length := by
    rw [hlen, List.length_append, List.length_singleton]
    omega
  have hskip : (List.replicate n newline).dropWhile (fun b => b ≠ newline) =
      List.replicate n newline := by
    obtain ⟨m, rfl⟩ := Nat.exists_eq_succ_of_ne_zero hpos.ne'
    rw [List.replicate_succ]
    exact List.dropWhile_cons_of_neg (by decide)
  rw [recentTail, hn, if_pos hlarge, hlen, Nat.add_sub_cancel, hsplit, List.drop_left, hskip,
    List.drop_replicate]

/-- Blank lines hold no alerts, and can be read. -/
theorem blankLines_alerts (k : Nat) (metadata : List Threatid.PackageMetadata) :
    (((byteLines (List.replicate k newline)).map dropByteCR).filterMap
      (alertOfLine Appid.asciiLibrary alertDecoder metadata)) = [] ∧
      (byteLines (List.replicate k newline)).all (fun line => line.length < 2 ^ 20) = true := by
  have hlines : byteLines (List.replicate k newline) = List.replicate k [] := by
    have h := byteLines_replicate_newline k []
    rwa [List.append_nil, show byteLines [] = [] from rfl, List.append_nil] at h
  have hblank : ∀ line ∈ byteLines (List.replicate k newline), line = [] := by
    rw [hlines]
    exact fun line hline => List.eq_of_mem_replicate hline
  constructor
  · refine List.filterMap_eq_nil_iff.mpr fun line hline => ?_
    obtain ⟨l, hl, rfl⟩ := List.mem_map.mp hline
    rw [hblank l hl]
    rfl
  · refine List.all_eq_true.mpr fun line hline => ?_
    rw [hblank line hline]
    decide

/-- Where no alert is read, the first page is the last one. -/
theorem follow_of_noAlerts {eve : EveFile} (hready : eve.readable = true)
    (hnone : eve.records (alertOfLine Appid.asciiLibrary alertDecoder []) = []) :
    Paging.follow (fun cursor => (ListAlerts Appid.asciiLibrary alertDecoder eve []
      { pageCursor := cursor }).map Listing.toPage) 1 "" = some (.ok []) := by
  have hread := readAlerts_eq Appid.asciiLibrary alertDecoder eve
    (ListAlertsRequest.filter {} (0, 0) 0) []
  rw [if_pos hready, hnone, scanPage_nil] at hread
  have hrange : timeRange none none = .ok (0, 0) := rfl
  have hcall : ListAlerts Appid.asciiLibrary alertDecoder eve [] { pageCursor := "" } =
      .ok (listing ([], {})) := by
    rw [ListAlerts, hrange, paged, pageOffset_empty]
    dsimp only
    rw [alertsPage, hread]
  rw [Paging.follow, hcall]
  rfl

/-- The file has an alert. -/
theorem alertFile_alerts (n : Nat) :
    (((byteLines (alertFile n)).map dropByteCR).filterMap
      (alertOfLine Appid.asciiLibrary alertDecoder [])).reverse.filter
        (alertMatches Appid.asciiLibrary {}) ≠ [] := by
  have hlines : byteLines (alertFile n) = alertLine :: byteLines (List.replicate n newline) := rfl
  have hfound : ((alertOfLine Appid.asciiLibrary alertDecoder [] (dropByteCR alertLine)).any
      (alertMatches Appid.asciiLibrary {})) = true := by decide +kernel
  obtain ⟨a, ha, hmatch⟩ := (Option.any_eq_true _ _).mp hfound
  refine List.ne_nil_of_mem (List.mem_filter.mpr ⟨List.mem_reverse.mpr ?_, hmatch⟩)
  rw [hlines]
  exact List.mem_filterMap.mpr ⟨dropByteCR alertLine, List.mem_cons_self, ha⟩

/-- **An alert that is older than what is read** of a large file is listed on no page. -/
theorem alertFile_unlisted :
    Paging.follow (fun cursor => (ListAlerts Appid.asciiLibrary alertDecoder
        (.file (alertFile maxTail)) [] { pageCursor := cursor }).map Listing.toPage) 1 "" =
          some (.ok []) ∧
      (((byteLines (alertFile maxTail)).map dropByteCR).filterMap
        (alertOfLine Appid.asciiLibrary alertDecoder [])).reverse.filter
          (alertMatches Appid.asciiLibrary {}) ≠ [] := by
  obtain ⟨hnone, hfits⟩ := blankLines_alerts (maxTail - 1) []
  have hready : (EveFile.file (alertFile maxTail)).readable = true := by
    rw [EveFile.readable, recentTail_alertFile]
    exact hfits
  have hrecords : (EveFile.file (alertFile maxTail)).records
      (alertOfLine Appid.asciiLibrary alertDecoder []) = [] := by
    rw [EveFile.records, recentTail_alertFile, hnone, List.reverse_nil]
  exact ⟨follow_of_noAlerts hready hrecords, alertFile_alerts maxTail⟩

end Phragma.Apiserver
