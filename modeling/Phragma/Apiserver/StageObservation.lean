import Phragma.Go.AddrText
import Phragma.Appid.Observations
import Phragma.Compiler.Complete
import Phragma.Explain.FirstRule
import Phragma.Apiserver.CandidateNat
import Phragma.Apiserver.InStep

/-!
# Phragma.Apiserver.StageObservation

**Promoting an App-ID observation** (`internal/apiserver/appid.go`): `StageAppIdObservation`
adds the application of an observation to the candidate and, in the mode that also drops, makes
sure that there is a rule that denies it between the two sample addresses.

A rule made for that is put in front of all others. A rule that already denies the application
between the addresses is kept where it stands, whatever its zones, its context and the rules in
front of it. `defineAndDrop_denied_iff` says when the flow is dropped all the same.
-/

namespace Phragma.Apiserver

open Lib Go Policy Appid Explain Store
open Compiler (newCompilation_succeeds tablesOf_newCompilation)

/-! ### Names of objects

New objects get a name made of what they are about. A name that is taken gets a number, up to a last
one that is not checked any more. -/

/-- The characters that `cleanPolicyName` writes as a dash. -/
def isNameSeparator (c : Char) : Bool := ['-', '_', '.', ':', '/'].contains c

/-- The loop of `cleanPolicyName`; `room` is what may still be written. -/
def cleanNameLoop : Nat → Bool → List Char → List Char
  | _, _, [] => []
  | 0, _, _ :: _ => []
  | room + 1, lastSep, c :: cs =>
      if Policy.isLowerAlnum c then c :: cleanNameLoop room false cs
      else if isNameSeparator c && !lastSep then '-' :: cleanNameLoop room true cs
      else cleanNameLoop (room + 1) lastSep cs

/-- `cleanPolicyName`: a text as the name of an object: its letters and digits, with single dashes
for separators, 64 characters at most. -/
def cleanPolicyName (s : String) : String :=
  String.ofList (trim ['-', '_']
    (trimRightDashes (cleanNameLoop 64 false (toLower (trimSpace s)).toList)))

/-- `sidNameEntropy`, of a text of ASCII characters. -/
def sidNameEntropy (s : String) : UInt32 :=
  s.toList.foldl (fun h c => (h ^^^ UInt32.ofNat c.toNat) * 16777619) 2166136261

/-- A name with a number behind it, cut to the length of a name. -/
def numberedName (base : String) (i : Nat) : String :=
  let suffix := "-" ++ decimal i
  let room := 64 - suffix.length
  if 64 < base.length + suffix.length then
    String.ofList (trimRightDashes (base.toList.take room)) ++ suffix
  else base ++ suffix

/-- `uniquePolicyObjectName`, for objects with the given names. -/
def uniquePolicyObjectName (names : List String) (base : String) : String :=
  let base := if cleanPolicyName base = "" then "threat-exception" else cleanPolicyName base
  if !names.contains base then base
  else
    match (List.range' 2 998).find? fun i => !names.contains (numberedName base i) with
    | some i => numberedName base i
    | none =>
        String.ofList (trimRightDashes (base.toList.take 55)) ++ "-" ++
          String.ofList (hexDigits (sidNameEntropy base).toNat)

/-! ### The application

The operator may send a definition of the application. Otherwise the suggested one is taken. -/

/-- `AppIdObservationStageMode`: what to stage, the definition alone or a deny rule with it. -/
inductive StageMode
  | unspecified
  | defineOnly
  | defineAndDrop
  | unrecognized (n : Int)
  deriving DecidableEq, Repr

/-- The end of the generated name of a mode, in lower case. -/
def StageMode.text : StageMode → String
  | .unspecified => "unspecified"
  | .defineOnly => "define_only"
  | .defineAndDrop => "define_and_drop"
  | .unrecognized n => toString n

/-- `appIDStageMode`: the mode of a request, the definition alone unless it says otherwise. -/
def appIDStageMode : StageMode → Except Status StageMode
  | .unspecified | .defineOnly => .ok .defineOnly
  | .defineAndDrop => .ok .defineAndDrop
  | .unrecognized _ =>
      .error ⟨.invalidArgument, "mode must be DEFINE_ONLY or DEFINE_AND_DROP"⟩

/-- The text of a protocol with ports. -/
def portProtocol : Protocol → Option String
  | .tcp => some "tcp"
  | .udp => some "udp"
  | _ => none

/-- One range of a port hint; ranges that are out of order are left out. -/
def appPortMatch (protocol : String) (pr : PortRange) : Option PortMatch :=
  let stop := if pr.stop = 0 then pr.start else pr.stop
  if pr.start = 0 ∨ 65535 < pr.start then none
  else if 65535 < stop ∨ stop < pr.start then none
  else some ⟨protocol, pr.start, stop⟩

/-- `appPortMatches`: the port hints of an application as ranges. -/
def appPortMatches (app : Application) : List PortMatch :=
  app.ports.flatMap fun hint =>
    match portProtocol hint.protocol with
    | none => []
    | some protocol => hint.ports.filterMap (appPortMatch protocol)

/-- A port of a suggested definition. -/
def protoPort (port : PortMatch) : Option ApplicationPort :=
  let hint (protocol : Protocol) : ApplicationPort :=
    { protocol
      ports := [{ start := port.start
                  stop := if port.end ≠ 0 ∧ port.end ≠ port.start then port.end else 0 }] }
  if toLower port.protocol = "tcp" then some (hint .tcp)
  else if toLower port.protocol = "udp" then some (hint .udp)
  else none

/-- `protoApplication`: a suggested definition as an object of the policy. -/
def protoApplication (d : Definition) : Application where
  name := d.id
  displayName := d.name
  category := d.category
  engineSignals := d.engineSignals
  ports := d.ports.filterMap protoPort

/-- `appIDPromotionApplication`: the definition to stage. It needs an engine signal or a port
hint. -/
def appIDPromotionApplication (obs : Observation) (override : Option Application) :
    Except Status Application :=
  let app :=
    match override with
    | none => protoApplication obs.suggestedApplication
    | some app =>
        if trimSpace app.name ≠ "" then app else protoApplication obs.suggestedApplication
  if trimSpace app.name = "" then
    .error ⟨.failedPrecondition, "observation has no suggested App-ID application"⟩
  else
    let app : Application :=
      { app with
        name := trimSpace app.name
        displayName := trimSpace app.displayName
        category := trimSpace app.category
        description := trimSpace app.description
        engineSignals := app.engineSignals.map trimSpace }
    if app.engineSignals.isEmpty && (appPortMatches app).isEmpty then
      .error ⟨.failedPrecondition,
        "application needs an engine signal or TCP/UDP port hint before promotion"⟩
    else .ok app

/-- The protocol of an observation, in lower case. -/
def observedProtocol (obs : Observation) : String := toLower (trimSpace obs.protocol)

/-- `appMatchesObservationPort`: the test that the port hints of an application are met by the
sampled flow. -/
def appMatchesObservationPort (app : Application) (obs : Observation) : Bool :=
  if obs.destPort = 0 ∨ 65535 < obs.destPort ∨
      (observedProtocol obs ≠ "tcp" ∧ observedProtocol obs ≠ "udp") then false
  else
    (appPortMatches app).any fun m =>
      m.protocol == observedProtocol obs && decide (m.start ≤ obs.destPort) &&
        decide (obs.destPort ≤ if m.end = 0 then m.start else m.end)

/-! ### The rule

The rule denies the application between the two hosts of the sampled flow. Hosts get an address
object each, unless there is one for the prefix of the host. -/

/-- An address without its zone. -/
def withoutZone : Addr → Addr
  | .v4 a => .v4 a
  | .v6 a _ => .v6 a ""

/-- `netip.PrefixFrom` of an address and its length: the prefix of that host. -/
def hostPrefix (addr : Addr) : Prefix where
  addr := withoutZone addr
  bits := addr.bitLen
  bits_le := by cases addr <;> exact Nat.le_refl _
  zone_eq := by cases addr <;> rfl

/-- `ensureAppIDObservationAddress`: the first address object of a host, which is added unless
there is one. -/
def ensureAppIDObservationAddress (p : Phragma.Policy) (ip lead : String) :
    Except String (Address × Phragma.Policy) :=
  let ip := trimSpace ip
  if ip = "" then .error "is required"
  else
    match parseAddr ip with
    | none => .error ("invalid IP " ++ quote ip)
    | some addr =>
        let cidr := (hostPrefix addr).string
        match p.addresses.find? fun existing => existing.cidr = cidr with
        | some existing => .ok (existing, p)
        | none =>
            let created : Address :=
              { name := uniquePolicyObjectName (p.addresses.map Address.name) (lead ++ ip)
                cidr
                description := "Auto-added from App-ID observation promotion" }
            .ok (created, { p with addresses := p.addresses ++ [created] })

/-- The test of `findMatchingAppIDObservationDropRule`: an enabled rule that denies exactly one
application between exactly two addresses. -/
def dropsBetween (srcName dstName appName : String) (rule : Rule) : Bool :=
  !rule.disabled && rule.action == .deny && rule.services.isEmpty &&
    rule.sourceAddresses == [srcName] && rule.destinationAddresses == [dstName] &&
    rule.applications == [appName]

/-- `findMatchingAppIDObservationDropRule`: the rule that does this already, wherever it stands in
the policy. -/
def findMatchingAppIDObservationDropRule (rules : List Rule) (srcName dstName appName : String) :
    Option Rule :=
  rules.find? (dropsBetween srcName dstName appName)

/-- The rule that `ensureAppIDObservationDropRule` makes. -/
def newDropRule (p : Phragma.Policy) (obs : Observation) (app : Application) (reason : String)
    (src dst : Address) : Rule where
  name := uniquePolicyObjectName (p.rules.map Rule.name)
    ("drop-app-" ++ app.name ++ "-" ++ obs.sampleSrcIP ++ "-to-" ++ obs.sampleDestIP)
  sourceAddresses := [src.name]
  destinationAddresses := [dst.name]
  applications := [app.name]
  action := .deny
  log := true
  description :=
    "Drop observed App-ID " ++ app.name ++ " for " ++ obs.sampleSrcIP ++ " to " ++
      obs.sampleDestIP ++ " using current TCP/UDP port-hint enforcement." ++
      (if reason ≠ "" then " Reason: " ++ reason else "")

/-- `ensureAppIDObservationDropRule`: the rule, whether it was made, and the policy with the
addresses it needs. -/
def ensureAppIDObservationDropRule (p : Phragma.Policy) (obs : Observation) (app : Application)
    (reason : String) : Except Status (Rule × Bool × Phragma.Policy) := do
  let (src, p) ← (ensureAppIDObservationAddress p obs.sampleSrcIP "appid-src-").mapError fun e =>
    ⟨.failedPrecondition, "sample source address: " ++ e⟩
  let (dst, p) ← (ensureAppIDObservationAddress p obs.sampleDestIP "appid-dst-").mapError fun e =>
    ⟨.failedPrecondition, "sample destination address: " ++ e⟩
  match findMatchingAppIDObservationDropRule p.rules src.name dst.name app.name with
  | some existing => return (existing, false, p)
  | none => return (newDropRule p obs app reason src dst, true, p)

/-! ### Staging

The candidate gets the application and, in the drop mode, the rule, in front of the others. A rule
that is there already stays where it is. -/

/-- `stagedAppIDObservation`: the candidate, and what of it is new. -/
structure StagedAppIDObservation where
  policy : Phragma.Policy
  application : Application
  applicationReused : Bool
  rule : Option Rule
  deriving DecidableEq

/-- `findApplicationByName`: the application of a name. -/
def findApplicationByName (apps : List Application) (name : String) : Option Application :=
  apps.find? fun app => app.name = trimSpace name

/-- The application part of `stageAppIDObservationCandidate`: the policy with the application,
and whether it was there. -/
def stageApplication (base : Phragma.Policy) (app : Application) :
    Except Status (Phragma.Policy × Bool) :=
  match findApplicationByName base.applications app.name with
  | some existing =>
      if existing ≠ app then
        .error ⟨.alreadyExists,
          "application " ++ quote app.name ++ " already exists with different definition"⟩
      else .ok (base, true)
  | none => .ok ({ base with applications := base.applications ++ [app] }, false)

/-- `stageAppIDObservationCandidate`, on the policy it starts from. -/
def stageAppIDObservationCandidate (base : Phragma.Policy) (obs : Observation) (app : Application)
    (mode : StageMode) (reason : String) : Except Status StagedAppIDObservation := do
  let (p, reused) ← stageApplication base app
  if mode = .defineAndDrop then
    let (rule, created, p) ← ensureAppIDObservationDropRule p obs app reason
    let p := if created then { p with rules := rule :: p.rules } else p
    return ⟨p, app, reused, some rule⟩
  return ⟨p, app, reused, none⟩

/-- `candidateOrRunningPolicy`: the policy to start from. -/
def candidateOrRunningPolicy (db : DB) : Except Status Phragma.Policy :=
  match db.candidate with
  | some candidate => .ok candidate
  | none => readRunning db

/-- `StageAppIdObservationRequest`, but for what selects the flows. -/
structure StageAppIdObservationRequest where
  queueId : String := ""
  mode : StageMode := .unspecified
  applicationOverride : Option Application := none
  reason : String := ""
  confirmDrop : Bool := false

/-- `StageAppIdObservationResponse`; of the validation only the errors are kept, and the status
and diff of the candidate are left out. -/
structure StageAppIdObservationResponse where
  observation : Observation
  application : Application
  applicationReused : Bool
  rule : Option Rule
  validation : List String

deriving instance DecidableEq for Observation

/-- What is settled before the mutex is taken. -/
structure Promotion where
  mode : StageMode
  reason : String
  observation : Observation
  application : Application
  deriving DecidableEq

/-- The end of `findAppIDObservation`: the observation with the queue id. -/
def findAppIDObservation (observations : List Observation) (queueID : String) :
    Except Status Observation :=
  match observations.find? fun obs => obs.queueID = trimSpace queueID with
  | some obs => .ok obs
  | none =>
      .error ⟨.notFound, "App-ID observation queue_id " ++ quote (trimSpace queueID) ++
        " was not found in current telemetry"⟩

/-- The checks of `StageAppIdObservation`, on the observations of the current flows. -/
def promotion (observations : Except Status (List Observation))
    (req : StageAppIdObservationRequest) : Except Status Promotion := do
  let reason := trimSpace req.reason
  if reason = "" then .error ⟨.invalidArgument, "reason is required"⟩
  if trimSpace req.queueId = "" then .error ⟨.invalidArgument, "queue_id is required"⟩
  let mode ← appIDStageMode req.mode
  if mode = .defineAndDrop ∧ !req.confirmDrop then
    .error ⟨.invalidArgument, "confirm_drop is required for define-and-drop App-ID promotion"⟩
  let obs ← findAppIDObservation (← observations) req.queueId
  if obs.kind = .conflictingEvidence then
    .error ⟨.failedPrecondition,
      "conflicting App-ID observations require investigation before promotion"⟩
  let app ← appIDPromotionApplication obs req.applicationOverride
  if mode = .defineAndDrop ∧ !appMatchesObservationPort app obs then
    .error ⟨.failedPrecondition,
      "define-and-drop requires a TCP/UDP port hint matching the observation"⟩
  return ⟨mode, reason, obs, app⟩

/-- `compactAuditField`: a text as one word of an audit detail. -/
def compactAuditField (v : String) : String :=
  let v := join (fields v) "_"
  if v = "" then "unknown" else v

/-- `appIDPromotionAuditDetail`: what the audit entry says of the promotion. -/
def appIDPromotionAuditDetail (r : Promotion) (staged : StagedAppIDObservation) : String :=
  let obs := r.observation
  join
    (["queue_id=" ++ compactAuditField obs.queueID,
      "kind=" ++ compactAuditField obs.kind.text,
      "app=" ++ compactAuditField staged.application.name,
      "mode=" ++ compactAuditField r.mode.text,
      "reason=" ++ compactAuditField r.reason] ++
    (if obs.engineSignal ≠ "" then ["signal=" ++ compactAuditField obs.engineSignal] else []) ++
    (if obs.protocol ≠ "" ∧ obs.destPort ≠ 0 then
      ["l4=" ++ toLower obs.protocol ++ "/" ++ decimal obs.destPort] else []) ++
    (if staged.applicationReused then ["application=reused"] else []) ++
    (staged.rule.toList.map fun rule => "rule=" ++ compactAuditField rule.name)) " "

/-- The transaction that stores a promoted observation. -/
def Server.promotionTx (S : Server) (env : Env) (r : Promotion) (staged : StagedAppIDObservation) :
    Tx DB Error GoString :=
  S.stageTx env staged.policy ""
    (stagingEntry env "stage-app-id-observation" (appIDPromotionAuditDetail r staged))

/-- The part of `StageAppIdObservation` under the mutex. -/
def Server.stagePromotion (S : Server) (env : Env) (r : Promotion) (db : DB) :
    Except Status StageAppIdObservationResponse × DB :=
  match (candidateOrRunningPolicy db).bind fun base =>
      stageAppIDObservationCandidate base r.observation r.application r.mode r.reason with
  | .error status => (.error status, db)
  | .ok staged =>
      match S.validatePolicy env staged.policy db with
      | .error status => (.error status, db)
      | .ok errors =>
          let resp : StageAppIdObservationResponse :=
            ⟨r.observation, staged.application, staged.applicationReused, staged.rule, errors⟩
          if errors ≠ [] then (.ok resp, db)
          else
            match transact env .stage (S.promotionTx env r staged) db with
            | (.error e, db) =>
                (.error ⟨.internal, "store candidate with audit: " ++ e.text⟩, db)
            | (.ok _, db) => (.ok resp, db)

/-- `StageAppIdObservation`: the observation of a queue, promoted and staged. -/
def Server.StageAppIdObservation (S : Server) (env : Env)
    (observations : Except Status (List Observation)) (req : StageAppIdObservationRequest)
    (db : DB) : Except Status StageAppIdObservationResponse × DB :=
  match promotion observations req with
  | .error status => (.error status, db)
  | .ok r => S.stagePromotion env r db

/-! ### What staging does

Each part adds nothing or what it was made for, and finds that again. So the staged policy is the
one it started from, with a rule in front at most and objects behind. -/

/-- The prefix of a host holds it, unless it has a zone. -/
theorem contains_hostPrefix {addr : Addr} :
    (hostPrefix addr).contains addr = true ↔ addr.zone = "" := by
  cases addr with
  | v4 a => simp [Prefix.contains, hostPrefix, withoutZone, Addr.zone]
  | v6 a zone => simp [Prefix.contains, hostPrefix, withoutZone, Addr.zone]

/-- The address object of a host in a list of them. -/
def hostObject (addresses : List Address) (addr : Addr) : Option Address :=
  addresses.find? fun existing => existing.cidr = (hostPrefix addr).string

theorem hostObject_append {addresses : List Address} {addr : Addr} {a : Address}
    (h : hostObject addresses addr = some a) (extra : List Address) :
    hostObject (addresses ++ extra) addr = some a := by
  unfold hostObject at h ⊢
  rw [List.find?_append, h]
  rfl

/-- An address is ensured: it is the object of its host, and nothing else is added. -/
theorem ensureAppIDObservationAddress_ok {p p' : Phragma.Policy} {ip lead : String} {a : Address}
    (h : ensureAppIDObservationAddress p ip lead = .ok (a, p')) :
    ∃ addr extra, parseAddr (trimSpace ip) = some addr ∧
      p' = { p with addresses := p.addresses ++ extra } ∧
      hostObject p'.addresses addr = some a ∧ ∀ x ∈ extra, x = a := by
  unfold ensureAppIDObservationAddress at h
  simp only at h
  split at h
  · cases h
  · split at h
    · cases h
    · next addr haddr =>
        split at h
        · next existing hfind =>
            cases h
            exact ⟨addr, [], haddr, by simp, hfind, by simp⟩
        · next hfind =>
            cases h
            refine ⟨addr, _, haddr, rfl, ?_, fun x hx => List.mem_singleton.mp hx⟩
            simp [hostObject, List.find?_append, hfind]

theorem stageApplication_ok {base p : Phragma.Policy} {app : Application} {reused : Bool}
    (h : stageApplication base app = .ok (p, reused)) :
    ∃ extra, p = { base with applications := base.applications ++ extra } ∧
      app ∈ p.applications ∧ ∀ x ∈ extra, x = app := by
  unfold stageApplication at h
  split at h
  · next existing hfind =>
      split at h
      · cases h
      · next heq =>
          cases h
          refine ⟨[], by simp, ?_, by simp⟩
          exact not_not.mp heq ▸ List.mem_of_find?_eq_some hfind
  · cases h
    exact ⟨[app], rfl, by simp, by simp⟩

/-- The rule of a policy that is kept for an observation: the first that drops the application
between the objects of the two sample addresses. -/
def keptDropRule (p : Phragma.Policy) (obs : Observation) (app : Application) : Option Rule := do
  let src ← parseAddr (trimSpace obs.sampleSrcIP)
  let dst ← parseAddr (trimSpace obs.sampleDestIP)
  let srcObject ← hostObject p.addresses src
  let dstObject ← hostObject p.addresses dst
  findMatchingAppIDObservationDropRule p.rules srcObject.name dstObject.name app.name

/-- A candidate with what an observation needs: the objects of its addresses, and its
application. -/
structure Prepared (base p : Phragma.Policy) (app : Application) (src dst : Addr)
    (srcObject dstObject : Address) : Prop where
  next : ∃ addrs apps, p = { base with
      addresses := base.addresses ++ addrs, applications := base.applications ++ apps } ∧
    (∀ x ∈ addrs, x = srcObject ∨ x = dstObject) ∧ ∀ x ∈ apps, x = app
  source : hostObject p.addresses src = some srcObject
  destination : hostObject p.addresses dst = some dstObject
  application : app ∈ p.applications

/-- **What the drop mode stages**: the prepared policy, with a new rule in front unless there is
one to keep. -/
theorem stageAppIDObservationCandidate_ok {base : Phragma.Policy} {obs : Observation}
    {app : Application} {reason : String} {staged : StagedAppIDObservation}
    (h : stageAppIDObservationCandidate base obs app .defineAndDrop reason = .ok staged) :
    staged.application = app ∧
    ∃ p src dst srcObject dstObject, parseAddr (trimSpace obs.sampleSrcIP) = some src ∧
      parseAddr (trimSpace obs.sampleDestIP) = some dst ∧
      Prepared base p app src dst srcObject dstObject ∧
      ((∃ rule, findMatchingAppIDObservationDropRule base.rules srcObject.name dstObject.name
            app.name = some rule ∧ staged.policy = p) ∨
        findMatchingAppIDObservationDropRule base.rules srcObject.name dstObject.name
            app.name = none ∧
          staged.policy = { p with
            rules := newDropRule p obs app reason srcObject dstObject :: p.rules }) := by
  unfold stageAppIDObservationCandidate at h
  obtain ⟨⟨p₁, reused⟩, happ, h⟩ := bind_ok.mp h
  simp only [if_true] at h
  obtain ⟨⟨rule, created, p₃⟩, hrule, h⟩ := bind_ok.mp h
  unfold ensureAppIDObservationDropRule at hrule
  obtain ⟨⟨srcObject, p₂⟩, hsrc, hrule⟩ := bind_ok.mp hrule
  obtain ⟨⟨dstObject, p₃'⟩, hdst, hrule⟩ := bind_ok.mp hrule
  obtain ⟨apps, hp₁, hmem, happs⟩ := stageApplication_ok happ
  obtain ⟨src, extra, hparse, hp₂, hobj, hextra⟩ :=
    ensureAppIDObservationAddress_ok (mapError_ok.mp hsrc)
  obtain ⟨dst, extra', hparse', hp₃, hobj', hextra'⟩ :=
    ensureAppIDObservationAddress_ok (mapError_ok.mp hdst)
  -- the objects are added one after the other, and none takes an earlier one away
  have hprepared : Prepared base p₃' app src dst srcObject dstObject := by
    refine ⟨⟨extra ++ extra', apps, ?_, ?_, happs⟩, ?_, hobj', ?_⟩
    · rw [hp₃, hp₂, hp₁]
      simp
    · intro x hx
      exact (List.mem_append.mp hx).imp (hextra x) (hextra' x)
    · rw [hp₃]
      exact hostObject_append hobj extra'
    · rw [hp₃, hp₂]
      exact hmem
  have hrules : p₃'.rules = base.rules := by rw [hp₃, hp₂, hp₁]
  refine ⟨by cases h; rfl, p₃', src, dst, srcObject, dstObject, hparse, hparse', hprepared, ?_⟩
  simp only [hrules] at hrule
  -- a rule that does the same is kept, or one is put in front
  cases hfind : findMatchingAppIDObservationDropRule base.rules srcObject.name dstObject.name
      app.name with
  | some existing =>
      rw [hfind] at hrule
      cases hrule
      cases h
      exact .inl ⟨_, rfl, rfl⟩
  | none =>
      rw [hfind] at hrule
      cases hrule
      cases h
      exact .inr ⟨rfl, rfl⟩

/-! ### The rule that is kept

A rule that denies the application already is not moved, so rules before it can still let the flow
through. -/

/-- A reference that an index knows is the name of an object. -/
theorem mem_names_of_known {p : Phragma.Policy} {idx : Index} (hL : LookupOf p idx) {ref : String}
    (h : (idx.addresses.lookup ref).isSome) : ref ∈ p.addresses.map Address.name := by
  rw [hL.addresses] at h
  obtain ⟨pfx, hpfx⟩ := Option.isSome_iff_exists.mp h
  obtain ⟨a, ha, -⟩ := Option.bind_eq_some_iff.mp hpfx
  obtain ⟨a', hmem, rfl, -⟩ := exists_of_lookup_tableOf ha
  exact List.mem_map_of_mem hmem

/-- Nothing is added whose name is taken. -/
theorem eq_nil_of_names {α : Type} {name : α → String} {l extra : List α}
    (hnd : ((l ++ extra).map name).Nodup) (h : ∀ x ∈ extra, name x ∈ l.map name) : extra = [] := by
  rw [List.eq_nil_iff_forall_not_mem]
  intro x hx
  rw [List.map_append, List.nodup_append] at hnd
  exact hnd.2.2 _ (h x hx) _ (List.mem_map_of_mem hx) rfl

/-- **A rule is kept only in a policy that stays as it is**: the rule names the objects, so they
are all there. -/
theorem Prepared.eq_base {base p : Phragma.Policy} {app : Application} {src dst : Addr}
    {srcObject dstObject : Address} (hP : Prepared base p app src dst srcObject dstObject)
    (haddrs : (p.addresses.map Address.name).Nodup)
    (happs : (p.applications.map Application.name).Nodup)
    (hany : ∀ a ∈ p.addresses, a.name ≠ Any) (hany' : app.name ≠ Any) {idx : Index}
    (hL : LookupOf base idx) (hknown : ∀ r ∈ base.rules, KnownRefs idx r) {rule : Rule}
    (h : findMatchingAppIDObservationDropRule base.rules srcObject.name dstObject.name app.name =
      some rule) : p = base := by
  have hmem := List.mem_of_find?_eq_some h
  have hdrops := List.find?_some h
  simp only [dropsBetween, Bool.and_eq_true, beq_iff_eq] at hdrops
  obtain ⟨⟨⟨-, hsrc⟩, hdst⟩, happ⟩ := hdrops
  have hrefs := hknown rule hmem
  have hsrcName : srcObject.name ∈ base.addresses.map Address.name :=
    mem_names_of_known hL (hrefs.sources _ (by simp [hsrc])
      (hany _ (List.mem_of_find?_eq_some hP.source)))
  have hdstName : dstObject.name ∈ base.addresses.map Address.name :=
    mem_names_of_known hL (hrefs.destinations _ (by simp [hdst])
      (hany _ (List.mem_of_find?_eq_some hP.destination)))
  have happName : app.name ∈ base.applications.map Application.name := by
    obtain ⟨a, ha⟩ := Option.isSome_iff_exists.mp (hrefs.applications _ (by simp [happ]) hany')
    rw [hL.apps] at ha
    obtain ⟨a', hmem', hname, -⟩ := exists_of_lookup_tableOf ha
    exact hname ▸ List.mem_map_of_mem hmem'
  obtain ⟨addrs, apps, rfl, hnew, hnew'⟩ := hP.next
  obtain rfl : addrs = [] := eq_nil_of_names haddrs fun x hx => by
    rcases hnew x hx with rfl | rfl
    · exact hsrcName
    · exact hdstName
  obtain rfl : apps = [] := eq_nil_of_names happs fun x hx => by
    rw [hnew' x hx]
    exact happName
  simp

/-! ### The rule that is made

A new rule stands first. All that its verdict depends on is that its own references resolve and that
the flow meets them. -/

/-- The protocol of an observation. -/
def observedL4 (obs : Observation) : Protocol :=
  if observedProtocol obs = "tcp" then .tcp else .udp

/-- A range that is in order is taken as it is. -/
theorem appPortMatch_some {text : String} {pr : PortRange} {m : PortMatch}
    (h : appPortMatch text pr = some m) :
    m.protocol = text ∧ m.start = pr.start ∧ pr.start ≠ 0 ∧ pr.start ≤ m.end ∧
      m.end = if pr.stop = 0 then pr.start else pr.stop := by
  unfold appPortMatch at h
  simp only at h
  generalize (if pr.stop = 0 then pr.start else pr.stop) = stop at h ⊢
  split_ifs at h with hstart hstop
  obtain rfl := Option.some.inj h
  exact ⟨rfl, rfl, fun h => hstart (.inl h), by simp only; omega, rfl⟩

/-- The ports of an application that passes the check before the drop mode hold the port of
the observation. -/
theorem applicationPortMatches_of_observed {app : Application} {obs : Observation}
    (h : appMatchesObservationPort app obs = true) :
    applicationPortMatches app (observedL4 obs) obs.destPort = true ∧ obs.destPort ≠ 0 ∧
      obs.destPort ≤ 65535 := by
  unfold appMatchesObservationPort at h
  split at h
  · cases h
  · next hbad =>
      simp only [not_or, not_and, not_not, not_lt] at hbad
      refine ⟨?_, hbad.1, hbad.2.1⟩
      simp only [List.any_eq_true, Bool.and_eq_true, beq_iff_eq, decide_eq_true_eq] at h
      obtain ⟨m, hm, ⟨hproto, hstart⟩, hend⟩ := h
      obtain ⟨hint, hhint, hm⟩ := List.mem_flatMap.mp hm
      cases hp : portProtocol hint.protocol with
      | none => simp [hp] at hm
      | some text =>
          simp only [hp] at hm
          obtain ⟨pr, hpr, hmatch⟩ := List.mem_filterMap.mp hm
          simp only [applicationPortMatches, List.any_eq_true, Bool.and_eq_true, beq_iff_eq]
          obtain ⟨htext, hfirst, hpos, hle, hlast⟩ := appPortMatch_some hmatch
          refine ⟨hint, hhint, ?_, pr, hpr, ?_⟩
          · rw [htext] at hproto
            cases hl : hint.protocol <;> simp only [portProtocol, hl, Option.some.injEq,
              reduceCtorEq] at hp <;> subst hp <;> simp [observedL4, ← hproto]
          · rw [if_neg (by omega)] at hend
            simp only [portInRange, Bool.and_eq_true, decide_eq_true_eq, ← hlast]
            omega

/-- The address of a new rule matches the sample it was made for, unless that has a zone. -/
theorem addressMatches_hostObject {p : Phragma.Policy} {idx : Index} (hL : LookupOf p idx)
    (hnd : (p.addresses.map Address.name).Nodup) {addr : Addr} {a : Address}
    (h : hostObject p.addresses addr = some a) (hany : a.name ≠ Any) :
    addressMatches idx [a.name] addr = .ok true ↔ addr.zone = "" := by
  have hcidr : a.cidr = (hostPrefix addr).string := by simpa using List.find?_some h
  have hlookup : idx.addresses.lookup a.name = some (hostPrefix addr) := by
    rw [hL.addresses, lookup_tableOf_of_mem hnd (List.mem_of_find?_eq_some h), id_eq,
      Option.bind_some, hcidr, parsePrefix_string]
  have hcontains : Explain.containsAny [a.name] = false := by
    simpa [Explain.containsAny] using hany.symm
  unfold addressMatches matchAnyRefs
  rw [hcontains, ← contains_hostPrefix]
  cases hc : (hostPrefix addr).contains addr <;> simp [matchRefs, hlookup, hc]

/-- The flow of an observation, without zones and context. -/
def observedFlow (obs : Observation) (src dst : Addr) (srcPort : Nat) (appId : String) :
    FlowInput where
  fromZone := ""
  toZone := ""
  src
  srcPort
  dst
  dstPort := obs.destPort
  proto := observedL4 obs
  appID := toLower (trimSpace appId)
  context := {}

/-- **A rule between the objects of the sample addresses is about the flow**, unless one of the
addresses has a zone. -/
theorem matchesFlow_between {p : Phragma.Policy} {idx : Index} (hL : LookupOf p idx)
    (haddrs : (p.addresses.map Address.name).Nodup)
    (happs : (p.applications.map Application.name).Nodup)
    (hany : ∀ a ∈ p.addresses, a.name ≠ Any) (hany' : ∀ a ∈ p.applications, a.name ≠ Any)
    {obs : Observation} {app : Application} (hport : appMatchesObservationPort app obs = true)
    {src dst : Addr} {srcObject dstObject : Address}
    (hsrc : hostObject p.addresses src = some srcObject)
    (hdst : hostObject p.addresses dst = some dstObject) (happ : app ∈ p.applications) {r : Rule}
    (hsources : r.sourceAddresses = [srcObject.name])
    (hdestinations : r.destinationAddresses = [dstObject.name]) (hservices : r.services = [])
    (happlications : r.applications = [app.name]) (srcPort : Nat) (appId : String) :
    matchesFlow idx (observedFlow obs src dst srcPort appId) r = true ↔
      src.zone = "" ∧ dst.zone = "" := by
  have hlookup : idx.apps.lookup app.name = some app := by
    rw [hL.apps, lookup_tableOf_of_mem happs happ, id_eq]
  have hcontains : Explain.containsAny [app.name] = false := by
    simpa [Explain.containsAny] using (hany' app happ).symm
  have hports := (applicationPortMatches_of_observed hport).1
  have happMatches : applicationMatches idx [app.name] (observedFlow obs src dst srcPort appId) =
      .ok true := by
    unfold applicationMatches matchAnyRefs
    rw [hcontains]
    simp [matchRefs, hlookup, observedFlow, hports]
  have hsource := addressMatches_hostObject hL haddrs hsrc (hany _ (List.mem_of_find?_eq_some hsrc))
  have hdestination :=
    addressMatches_hostObject hL haddrs hdst (hany _ (List.mem_of_find?_eq_some hdst))
  rw [matchesFlow_iff, hsources, hdestinations, hservices, happlications]
  constructor
  · rintro ⟨h, h', -, -⟩
    exact ⟨hsource.mp h, hdestination.mp h'⟩
  · rintro ⟨h, h'⟩
    exact ⟨hsource.mpr h, hdestination.mpr h', rfl, happMatches⟩

/-! ### The call -/

/-- What the drop mode has checked before it stages. -/
theorem promotion_ok {observations : Except Status (List Observation)}
    {req : StageAppIdObservationRequest} {r : Promotion} (h : promotion observations req = .ok r)
    (hmode : req.mode = .defineAndDrop) :
    r.mode = .defineAndDrop ∧ appMatchesObservationPort r.application r.observation = true := by
  unfold promotion at h
  simp only [hmode, appIDStageMode] at h
  split at h
  · cases h
  · split at h
    · cases h
    · obtain ⟨mode, hm, h⟩ := bind_ok.mp h
      cases hm
      split at h
      · cases h
      · obtain ⟨observations, -, h⟩ := bind_ok.mp h
        obtain ⟨obs, -, h⟩ := bind_ok.mp h
        split at h
        · cases h
        · obtain ⟨app, -, h⟩ := bind_ok.mp h
          split at h
          · cases h
          · next hport =>
              cases h
              exact ⟨rfl, by simpa using hport⟩

/-- A candidate without errors passed the validator. -/
theorem validatePolicy_quiet {S : Server} {env : Env} {p : Phragma.Policy} {db : DB}
    (h : S.validatePolicy env p db = .ok []) : Validate (NormalizeRuleIDs S.H p).1 = [] := by
  unfold Server.validatePolicy at h
  simp only at h
  split at h
  · cases h
  · split at h
    · exact Except.ok.inj h
    · next hquiet => exact not_not.mp hquiet

/-- A transaction that has gone through is a run of it. -/
theorem transact_ok {α : Type} {env : Env} {step : StoreStep} {t : Tx DB Error α} {db db' : DB}
    {a : α} (h : transact env step t db = (.ok a, db')) : t.Yields db a db' := by
  unfold transact at h
  rcases Tx.update_cases .bolt (env.faults step) t db with ⟨e, he⟩ | ⟨b, after, he, hy⟩
  · rw [he] at h
    cases h
  · rw [he] at h
    cases h
    exact hy

/-- **A successful call stages the candidate it has made.** -/
theorem StageAppIdObservation_ok {S : Server} {env : Env}
    {observations : Except Status (List Observation)} {req : StageAppIdObservationRequest}
    {db db' : DB} {resp : StageAppIdObservationResponse}
    (h : S.StageAppIdObservation env observations req db = (.ok resp, db'))
    (hvalid : resp.validation = []) :
    ∃ r base staged, promotion observations req = .ok r ∧ candidateOrRunningPolicy db = .ok base ∧
      stageAppIDObservationCandidate base r.observation r.application r.mode r.reason = .ok staged ∧
      Validate (NormalizeRuleIDs S.H staged.policy).1 = [] ∧
      db'.candidate = some (normalizeIdentities S.H staged.policy) ∧
      resp.observation = r.observation ∧ resp.application = staged.application := by
  unfold Server.StageAppIdObservation at h
  split at h
  · cases h
  · next r hr =>
      unfold Server.stagePromotion at h
      split at h
      · cases h
      · next staged hstaged =>
          obtain ⟨base, hbase, hstaged⟩ := bind_ok.mp hstaged
          split at h
          · cases h
          · next errors herrors =>
              simp only at h
              split at h
              · next hne =>
                  cases h
                  exact absurd hvalid hne
              · next hnil =>
                  obtain rfl := not_not.mp hnil
                  split at h
                  · cases h
                  · next revision after htx =>
                      cases h
                      have hyields := transact_ok htx
                      obtain ⟨-, -, hash, -, hafter⟩ := SetCandidateWithAuditIfRevision_ok hyields
                      exact ⟨r, base, staged, hr, hbase, hstaged, validatePolicy_quiet herrors,
                        by rw [hafter], rfl, rfl⟩

/-- The request to explain the flow of an observation. -/
def observedRequest (obs : Observation) (srcPort : Nat) (appId : String) (s : Surroundings) :
    ExplainFlowRequest where
  fromZone := s.fromZone
  toZone := s.toZone
  srcIp := trimSpace obs.sampleSrcIP
  srcPort
  destIp := trimSpace obs.sampleDestIP
  destPort := obs.destPort
  protocol := observedL4 obs
  appId
  matchContext := s.context

theorem parseInput_observedRequest {obs : Observation} {src dst : Addr}
    (hsrc : parseAddr (trimSpace obs.sampleSrcIP) = some src)
    (hdst : parseAddr (trimSpace obs.sampleDestIP) = some dst) {srcPort : Nat}
    (hsrcPort : srcPort ≤ 65535) (hzero : obs.destPort ≠ 0) (hdestPort : obs.destPort ≤ 65535)
    (appId : String) (s : Surroundings) :
    parseInput (observedRequest obs srcPort appId s) =
      .ok ((observedFlow obs src dst srcPort appId).within s) := by
  unfold parseInput observedRequest observedFlow observedL4 FlowInput.within
  simp only [hsrc, hdst, if_neg (Nat.not_lt.mpr hsrcPort), if_neg (Nat.not_lt.mpr hdestPort)]
  by_cases htcp : observedProtocol obs = "tcp"
  · simp only [if_pos htcp, if_neg hzero]
  · simp only [if_neg htcp, if_neg hzero]

/-- The explainer normalizes its policy itself. -/
theorem ExplainFlow_normalizeIdentities (H : IdentityHash) (p : Phragma.Policy)
    (req : ExplainFlowRequest) (version : Nat) :
    ExplainFlow H (normalizeIdentities H p) req version = ExplainFlow H p req version := by
  unfold ExplainFlow
  rw [normalizeIdentities_idem]

/-! ### The claim of the drop mode -/

/-- Does the flow of an observation meet no other verdict than denied, whatever its zones and
context? -/
def DeniedEverywhere (H : IdentityHash) (p : Phragma.Policy) (obs : Observation) (srcPort : Nat)
    (appId : String) (version : Nat) : Prop :=
  ∀ s : Surroundings, ∃ resp,
    ExplainFlow H p (observedRequest obs srcPort appId s) version = .ok resp ∧
      resp.verdict = .denied

/-- Does a rule deny? -/
def denies (r : Rule) : Bool := r.action == .deny

/-- **When define-and-drop takes effect**: there is no rule to keep and the sample addresses have
no zone; or the rules for the flow start with such as are covered by denying rules before them,
up to one that denies it in all zones and contexts. -/
def DropTakesEffect (base : Phragma.Policy) (idx : Index) (obs : Observation) (app : Application)
    (srcPort : Nat) (appId : String) : Prop :=
  ∃ src dst, parseAddr (trimSpace obs.sampleSrcIP) = some src ∧
    parseAddr (trimSpace obs.sampleDestIP) = some dst ∧
    ((keptDropRule base obs app = none ∧ src.zone = "" ∧ dst.zone = "") ∨
      ClosedBy admits denies {} (flowRules idx (observedFlow obs src dst srcPort appId) base.rules))

/-- The flow is denied everywhere when all surroundings are decided by a rule that denies. -/
theorem deniedEverywhere_iff {H : IdentityHash} {p : Phragma.Policy}
    (hvalid : Validate (NormalizeRuleIDs H p).1 = []) (hdnat : p.getNat.destination = [])
    {idx : Index} (hidx : newIndex p = .ok idx) {obs : Observation} {src dst : Addr}
    (hsrc : parseAddr (trimSpace obs.sampleSrcIP) = some src)
    (hdst : parseAddr (trimSpace obs.sampleDestIP) = some dst) {srcPort : Nat}
    (hsrcPort : srcPort ≤ 65535) (hzero : obs.destPort ≠ 0) (hdestPort : obs.destPort ≤ 65535)
    (appId : String) (version : Nat) :
    DeniedEverywhere H p obs srcPort appId version ↔
      DecidesAll admits denies (flowRules idx (observedFlow obs src dst srcPort appId) p.rules) := by
  have hone : ∀ s : Surroundings,
      (∃ resp, ExplainFlow H p (observedRequest obs srcPort appId s) version = .ok resp ∧
        resp.verdict = .denied) ↔
      ∃ r, (flowRules idx (observedFlow obs src dst srcPort appId) p.rules).find?
        (fun r => admits r s) = some r ∧ denies r = true := by
    intro s
    obtain ⟨resp, hresp, hiff⟩ := ExplainFlow_denied_iff hvalid hdnat hidx
      (parseInput_observedRequest hsrc hdst hsrcPort hzero hdestPort appId s) (s := s) rfl rfl rfl
      version
    rw [flowRules_within] at hiff
    simp only [hresp, Except.ok.injEq, exists_eq_left', hiff, denies, Option.map_eq_some_iff,
      beq_iff_eq]
  exact forall_congr' hone

/-- A policy that the validator accepts has an index. -/
theorem newIndex_succeeds {H : IdentityHash} {p : Phragma.Policy}
    (hvalid : Validate (NormalizeRuleIDs H p).1 = []) : ∃ idx, newIndex p = .ok idx := by
  have hA := accepted_of_Validate hvalid
  obtain ⟨c, hc⟩ := newCompilation_succeeds hA
  obtain ⟨idx, hidx, -⟩ := newIndex_ok hA (tablesOf_newCompilation hc)
  exact ⟨_, @newIndex_congr (NormalizeRuleIDs H p).1 p rfl rfl rfl rfl _ hidx⟩

/-- The rules for a flow, after a rule was put in front of a prepared policy: those of the base
policy, behind the new one if that is about the flow. -/
theorem flowRules_prepared {H : IdentityHash} {base p : Phragma.Policy} {app : Application}
    {src dst : Addr} {srcObject dstObject : Address}
    (hP : Prepared base p app src dst srcObject dstObject)
    (hbase : Validate (NormalizeRuleIDs H base).1 = []) {idx : Index}
    (hidx : newIndex base = .ok idx) {r : Rule} {q : Phragma.Policy}
    (hq : q = { p with rules := r :: p.rules })
    (hvalid : Validate (NormalizeRuleIDs H q).1 = []) {idx' : Index}
    (hidx' : newIndex q = .ok idx') (hr : r.disabled = false) (input : FlowInput) :
    flowRules idx' input q.rules =
      if matchesFlow idx' input r = true then r :: flowRules idx input base.rules
      else flowRules idx input base.rules := by
  have hA := accepted_of_Validate hvalid
  have hL := lookupOf_of_newIndex hidx (accepted_of_Validate hbase).address_cidr
  have hL' := lookupOf_of_newIndex hidx' hA.address_cidr
  obtain ⟨addrs, apps, hp, -⟩ := hP.next
  have haddrs : q.addresses = base.addresses ++ addrs := by rw [hq, hp]
  have happs : q.applications = base.applications ++ apps := by rw [hq, hp]
  have hservices : q.services = base.services := by rw [hq, hp]
  have hids : q.getIds = base.getIds := by rw [hq, hp]; rfl
  have hE : Extends idx idx' :=
    extends_of_append hL hL' haddrs happs hservices hids hA.address_names hA.applications.names
  have hold : flowRules idx' input base.rules = flowRules idx input base.rules :=
    List.filter_congr fun r' hr' => by
      rw [matchesFlow_of_extends hE (knownRefs_of_valid hbase hL (.inl hr'))]
  have hrules : q.rules = r :: base.rules := by rw [hq, hp]
  rw [hrules, ← hold]
  simp [flowRules, List.filter_cons, hr]

/-- The kept rule is found with the objects of the candidate. -/
theorem Prepared.keptDropRule_none {base p : Phragma.Policy} {obs : Observation}
    {app : Application} {src dst : Addr} {srcObject dstObject : Address}
    (hP : Prepared base p app src dst srcObject dstObject)
    (hsrc : parseAddr (trimSpace obs.sampleSrcIP) = some src)
    (hdst : parseAddr (trimSpace obs.sampleDestIP) = some dst)
    (h : findMatchingAppIDObservationDropRule base.rules srcObject.name dstObject.name app.name =
      none) : keptDropRule base obs app = none := by
  obtain ⟨addrs, apps, hp, -⟩ := hP.next
  have hobjects : p.addresses = base.addresses ++ addrs := by rw [hp]
  have hsource := hP.source
  have hdestination := hP.destination
  rw [hobjects] at hsource hdestination
  unfold keptDropRule
  rw [hsrc, hdst]
  cases hs : hostObject base.addresses src with
  | none => simp [hs]
  | some a =>
      cases hd : hostObject base.addresses dst with
      | none => simp [hd]
      | some b =>
          rw [hostObject_append hs, Option.some.injEq] at hsource
          rw [hostObject_append hd, Option.some.injEq] at hdestination
          subst hsource hdestination
          simpa [hs, hd] using h

/-- **A candidate with a new rule** denies the flow everywhere unless one of the addresses has a
zone; then it is as the base policy. -/
theorem deniedEverywhere_of_new {H : IdentityHash} {base p : Phragma.Policy} {obs : Observation}
    {app : Application} {reason : String} {src dst : Addr} {srcObject dstObject : Address}
    (hP : Prepared base p app src dst srcObject dstObject)
    (hbase : Validate (NormalizeRuleIDs H base).1 = []) {idx : Index}
    (hidx : newIndex base = .ok idx) (hdnat : base.getNat.destination = [])
    (hport : appMatchesObservationPort app obs = true)
    (hsrc : parseAddr (trimSpace obs.sampleSrcIP) = some src)
    (hdst : parseAddr (trimSpace obs.sampleDestIP) = some dst) {q : Phragma.Policy}
    (hq : q = { p with rules := newDropRule p obs app reason srcObject dstObject :: p.rules })
    (hvalid : Validate (NormalizeRuleIDs H q).1 = []) {srcPort : Nat} (hsrcPort : srcPort ≤ 65535)
    (appId : String) (version : Nat) :
    DeniedEverywhere H q obs srcPort appId version ↔
      (src.zone = "" ∧ dst.zone = "") ∨
        ClosedBy admits denies {}
          (flowRules idx (observedFlow obs src dst srcPort appId) base.rules) := by
  obtain ⟨idx', hidx'⟩ := newIndex_succeeds hvalid
  have hA := accepted_of_Validate hvalid
  have hL' := lookupOf_of_newIndex hidx' hA.address_cidr
  obtain ⟨addrs, apps, hp, -⟩ := hP.next
  have hnat : q.getNat.destination = [] := by rw [hq, hp]; exact hdnat
  have haddresses : q.addresses = p.addresses := by rw [hq]
  have happlications : q.applications = p.applications := by rw [hq]
  obtain ⟨-, hzero, hdestPort⟩ := applicationPortMatches_of_observed hport
  -- the new rule is about the flow unless an address has a zone
  have hmatch := matchesFlow_between hL' hA.address_names hA.applications.names
    (fun a ha => (hA.address_usable a ha).ne_any) (fun a ha => (hA.applications.usable a ha).ne_any)
    hport (haddresses ▸ hP.source) (haddresses ▸ hP.destination) (happlications ▸ hP.application)
    (r := newDropRule p obs app reason srcObject dstObject) rfl rfl rfl rfl srcPort appId
  rw [deniedEverywhere_iff hvalid hnat hidx' hsrc hdst hsrcPort hzero hdestPort,
    flowRules_prepared hP hbase hidx hq hvalid hidx' rfl]
  by_cases hzones : src.zone = "" ∧ dst.zone = ""
  · rw [if_pos (hmatch.mpr hzones)]
    have hall : ∀ s, admits (newDropRule p obs app reason srcObject dstObject) s = true :=
      admits_of_least rfl
    refine iff_of_true (fun s => ⟨newDropRule p obs app reason srcObject dstObject, ?_, rfl⟩)
      (.inl hzones)
    rw [List.find?_cons, hall s]
  · rw [if_neg fun h => hzones (hmatch.mp h), decidesAll_iff fun _ => admits_of_least,
      or_iff_right hzones]

/-- **Define-and-drop takes effect exactly when** there is no rule to keep and the sample
addresses have no zone, or the base policy denies the flow everywhere by itself. -/
theorem defineAndDrop_denied_iff {S : Server} {env : Env}
    {observations : Except Status (List Observation)} {req : StageAppIdObservationRequest}
    {db db' : DB} {resp : StageAppIdObservationResponse} {base : Phragma.Policy} {idx : Index}
    (hbase : candidateOrRunningPolicy db = .ok base)
    (hvalid : Validate (NormalizeRuleIDs S.H base).1 = [])
    (hdnat : base.getNat.destination = []) (hidx : newIndex base = .ok idx)
    (hmode : req.mode = .defineAndDrop)
    (h : S.StageAppIdObservation env observations req db = (.ok resp, db'))
    (herrors : resp.validation = []) {srcPort : Nat} (hsrcPort : srcPort ≤ 65535) (appId : String)
    (version : Nat) :
    ∃ cand, db'.candidate = some cand ∧
      (DeniedEverywhere S.H cand resp.observation srcPort appId version ↔
        DropTakesEffect base idx resp.observation resp.application srcPort appId) := by
  obtain ⟨r, base', staged, hr, hbase', hstaged, hcand, hdb, hobs, happ⟩ :=
    StageAppIdObservation_ok h herrors
  obtain rfl : base = base' := Except.ok.inj (hbase.symm.trans hbase')
  obtain ⟨hrmode, hport⟩ := promotion_ok hr hmode
  rw [hrmode] at hstaged
  obtain ⟨happ', p, src, dst, srcObject, dstObject, hsrc, hdst, hP, hrule⟩ :=
    stageAppIDObservationCandidate_ok hstaged
  refine ⟨_, hdb, ?_⟩
  rw [hobs, happ, happ']
  have hnormal : DeniedEverywhere S.H (normalizeIdentities S.H staged.policy) r.observation srcPort
      appId version ↔ DeniedEverywhere S.H staged.policy r.observation srcPort appId version := by
    unfold DeniedEverywhere
    simp only [ExplainFlow_normalizeIdentities]
  rw [hnormal]
  have heffect : DropTakesEffect base idx r.observation r.application srcPort appId ↔
      (keptDropRule base r.observation r.application = none ∧ src.zone = "" ∧ dst.zone = "") ∨
        ClosedBy admits denies {}
          (flowRules idx (observedFlow r.observation src dst srcPort appId) base.rules) := by
    unfold DropTakesEffect
    rw [hsrc, hdst]
    simp
  rw [heffect]
  rcases hrule with ⟨rule, hfind, hpolicy⟩ | ⟨hfind, hpolicy⟩
  · -- a rule is kept: the policy is the base policy
    rw [hpolicy] at hcand ⊢
    have hA := accepted_of_Validate hcand
    have hL := lookupOf_of_newIndex hidx (accepted_of_Validate hvalid).address_cidr
    have heq : p = base := hP.eq_base hA.address_names hA.applications.names
      (fun a ha => (hA.address_usable a ha).ne_any)
      (hA.applications.usable _ hP.application).ne_any hL
      (fun rule hrule => knownRefs_of_valid hvalid hL (.inl hrule)) hfind
    have hkept : keptDropRule base r.observation r.application ≠ none := by
      have hsource := hP.source
      have hdestination := hP.destination
      rw [heq] at hsource hdestination
      simp [keptDropRule, hsrc, hdst, hsource, hdestination, hfind]
    obtain ⟨-, hzero, hdestPort⟩ := applicationPortMatches_of_observed hport
    rw [heq, deniedEverywhere_iff hvalid hdnat hidx hsrc hdst hsrcPort hzero hdestPort,
      decidesAll_iff fun _ => admits_of_least, or_iff_right fun hno => hkept hno.1]
  · -- a rule is made
    rw [deniedEverywhere_of_new hP hvalid hidx hdnat hport hsrc hdst hpolicy hcand hsrcPort appId
      version, and_iff_right (hP.keptDropRule_none hsrc hdst hfind)]

/-! ### A bot in the office -/

/-- An application with a signal and a port. -/
def botApplication : Application where
  name := "bot"
  displayName := "Bot"
  category := "malware"
  engineSignals := ["bot"]
  ports := [{ protocol := .tcp, ports := [{ start := 4444, stop := 0 }] }]

/-- The office may reach everything. -/
def officePolicy : Phragma.Policy where
  zones := [{ name := "lan", interfaces := ["eth0"] }, { name := "wan", interfaces := ["eth1"] }]
  addresses :=
    [{ name := "client", cidr := "10.0.0.5/32" }, { name := "server", cidr := "203.0.113.7/32" }]
  applications := [botApplication]
  rules :=
    [{ id := "rule-1", name := "allow-out", fromZones := ["lan"], toZones := ["wan"]
       action := .allow }]

/-- A rule against the bot. -/
def botRule : Rule where
  id := "rule-2"
  name := "drop-bot"
  sourceAddresses := ["client"]
  destinationAddresses := ["server"]
  applications := ["bot"]
  action := .deny

/-- The same, with the rule against the bot behind the rule that lets everything out. -/
def shadowedPolicy : Phragma.Policy :=
  { officePolicy with rules := officePolicy.rules ++ [botRule] }

/-- A flow of the bot. -/
def botObservation : Observation where
  queueID := "q1"
  kind := .lowConfidence
  appID := "bot"
  appName := "Bot"
  appCategory := "malware"
  appConfidence := 40
  engineSignal := "bot"
  engineSignalSource := "app_proto"
  protocol := "TCP"
  destPort := 4444
  sampleSrcIP := "10.0.0.5"
  sampleDestIP := "203.0.113.7"
  suggestedApplication := ⟨"bot", "Bot", "malware", ["bot"], [⟨"tcp", 4444, 4444⟩]⟩

/-- Define the bot and drop it. -/
def botRequest : StageAppIdObservationRequest where
  queueId := "q1"
  mode := .defineAndDrop
  reason := "malware"
  confirmDrop := true

/-- The call, on a staged base policy. -/
def botCall (base : Phragma.Policy) : Except Status StageAppIdObservationResponse × DB :=
  sampleServer.StageAppIdObservation calmEnv (.ok [botObservation]) botRequest
    { candidate := some base }

/-- What the checks of the call settle. -/
def botPromotion : Promotion := ⟨.defineAndDrop, "malware", botObservation, botApplication⟩

/-- The call goes through when its steps do. -/
theorem botCall_ok {base : Phragma.Policy} {staged : StagedAppIDObservation}
    (hstaged : (stageAppIDObservationCandidate base botObservation botApplication .defineAndDrop
      "malware").toOption = some staged)
    (hvalid : (sampleServer.validatePolicy calmEnv staged.policy
      { candidate := some base }).toOption = some [])
    (htx : (transact calmEnv .stage (sampleServer.promotionTx calmEnv botPromotion staged)
      { candidate := some base }).1.toOption.isSome = true) :
    ∃ resp db', botCall base = (.ok resp, db') ∧ resp.validation = [] ∧
      resp.observation = botObservation ∧ resp.application = staged.application ∧
      db'.candidate = some (normalizeIdentities sampleServer.H staged.policy) := by
  rw [toOption_eq_some] at hstaged hvalid
  have hr : promotion (.ok [botObservation]) botRequest = .ok botPromotion :=
    toOption_eq_some.mp (by decide +kernel)
  have hbase : candidateOrRunningPolicy { candidate := some base } = .ok base := rfl
  obtain ⟨resp, db', hcall, herrors⟩ : ∃ resp db', botCall base = (.ok resp, db') ∧
      resp.validation = [] := by
    unfold botCall Server.StageAppIdObservation
    simp only [hr]
    unfold Server.stagePromotion
    simp only [hbase, Except.bind, botPromotion, hstaged, hvalid]
    cases h : transact calmEnv .stage (sampleServer.promotionTx calmEnv botPromotion staged)
      { candidate := some base } with
    | mk result after =>
        rw [h] at htx
        cases result with
        | error e => cases htx
        | ok revision =>
            rw [botPromotion] at h
            simp only [h]
            exact ⟨_, _, rfl, rfl⟩
  obtain ⟨r, base', staged', hr', hbase', hstaged', -, hdb, hobs, happ⟩ :=
    StageAppIdObservation_ok hcall herrors
  obtain rfl : botPromotion = r := Except.ok.inj (hr.symm.trans hr')
  obtain rfl : base = base' := Except.ok.inj hbase'
  obtain rfl : staged = staged' := Except.ok.inj (hstaged.symm.trans hstaged')
  exact ⟨resp, db', hcall, herrors, hobs, happ, hdb⟩

/-- The rule that is made in the office. -/
def madeRule : Rule where
  name := "drop-app-bot-10-0-0-5-to-203-0-113-7"
  sourceAddresses := ["client"]
  destinationAddresses := ["server"]
  applications := ["bot"]
  action := .deny
  log := true
  description :=
    "Drop observed App-ID bot for 10.0.0.5 to 203.0.113.7 using current TCP/UDP port-hint " ++
      "enforcement. Reason: malware"

/-- The candidate of the office: the rule against the bot is in front. -/
def officeStaged : StagedAppIDObservation :=
  ⟨{ officePolicy with rules := madeRule :: officePolicy.rules }, botApplication, true,
    some madeRule⟩

/-- Where there is no rule yet, the bot is denied. -/
theorem defineAndDrop_denies_bot :
    ∃ resp db' cand, botCall officePolicy = (.ok resp, db') ∧ db'.candidate = some cand ∧
      DeniedEverywhere sampleServer.H cand resp.observation 40000 "" 1 := by
  have hvalid : Validate (NormalizeRuleIDs sampleServer.H officePolicy).1 = [] := by
    decide +kernel
  obtain ⟨idx, hidx⟩ := newIndex_succeeds hvalid
  obtain ⟨resp, db', hcall, herrors, hobs, happ, hdb⟩ := @botCall_ok officePolicy officeStaged
    (by decide +kernel) (by decide +kernel) (by decide +kernel)
  obtain ⟨cand, hcand, hiff⟩ := @defineAndDrop_denied_iff sampleServer calmEnv
    (.ok [botObservation]) botRequest { candidate := some officePolicy } db' resp officePolicy idx
    rfl hvalid rfl hidx rfl hcall herrors 40000 (by decide) "" 1
  refine ⟨resp, db', cand, hcall, hcand, hiff.mpr ?_⟩
  rw [hobs, happ]
  exact ⟨.v4 0x0a000005#32, .v4 0xcb007107#32, by decide +kernel, by decide +kernel,
    .inl ⟨by decide +kernel, rfl, rfl⟩⟩

/-- The verdict on the flow of the bot from the office to the internet. -/
def outboundVerdict (p : Phragma.Policy) : Option ExplainVerdict :=
  match ExplainFlow sampleServer.H p
      (observedRequest botObservation 40000 "" ⟨"lan", "wan", none⟩) 1 with
  | .ok resp => some resp.verdict
  | .error _ => none

/-- **The kept rule may come too late**: behind a rule that lets the flow out, it is kept where it
stands, and the flow goes on. -/
theorem defineAndDrop_not_denied :
    ¬ ∀ (S : Server) (env : Env) (observations : Except Status (List Observation))
      (req : StageAppIdObservationRequest) (db db' : DB) (resp : StageAppIdObservationResponse)
      (base : Phragma.Policy), candidateOrRunningPolicy db = .ok base →
      Validate (NormalizeRuleIDs S.H base).1 = [] → base.getNat.destination = [] →
      req.mode = .defineAndDrop →
      S.StageAppIdObservation env observations req db = (.ok resp, db') → resp.validation = [] →
      ∀ srcPort ≤ 65535, ∀ appId version, ∃ cand, db'.candidate = some cand ∧
        DeniedEverywhere S.H cand resp.observation srcPort appId version := by
  intro hall
  -- the rule is there, so the candidate is the policy itself
  obtain ⟨resp, db', hcall, herrors, hobs, -, hdb⟩ := @botCall_ok shadowedPolicy
    ⟨shadowedPolicy, botApplication, true, some botRule⟩ (by decide +kernel) (by decide +kernel)
    (by decide +kernel)
  have hverdict : outboundVerdict shadowedPolicy = some .allowed := by decide +kernel
  obtain ⟨cand, hcand, hdenied⟩ := hall sampleServer calmEnv (.ok [botObservation]) botRequest
    { candidate := some shadowedPolicy } db' resp shadowedPolicy rfl (by decide +kernel) rfl rfl
    hcall herrors 40000 (by decide) "" 1
  obtain rfl : normalizeIdentities sampleServer.H shadowedPolicy = cand :=
    Option.some.inj (hdb.symm.trans hcand)
  obtain ⟨answer, hanswer, hdenied⟩ := hdenied ⟨"lan", "wan", none⟩
  rw [hobs, ExplainFlow_normalizeIdentities] at hanswer
  rw [outboundVerdict, hanswer, Option.some.injEq, hdenied] at hverdict
  cases hverdict

end Phragma.Apiserver
