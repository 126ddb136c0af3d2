import Phragma.Policy.Validate
import Phragma.Compiler.Compile

/-!
# Phragma.Explain.ExplainFlow

The flow explainer (`internal/explain/explain.go`): how a policy treats one flow,
computed on the policy itself, without compiling it.

`ExplainFlow` normalizes the policy, applies the first matching destination translation,
walks the rules to the first enabled one that matches, and for an allowed flow looks for
the first matching source translation and the static route. The response carries the
verdict together with everything that is said about it (reason, evidence, trace,
warnings, inspection, route and translation profiles, decision terms).

The loop over the rules is `walkRules`; it returns the matching rule with its position
and the trace of the rules skipped on the way.
-/

namespace Phragma.Explain

open Lib Go Policy

/-! ### Messages

The request and the response, with the fields that the explainer reads and writes. The evidence is
for people, and is kept as the texts it consists of. -/

/-- `PolicySource`: which policy the question is about. -/
inductive PolicySource
  | unspecified
  | running
  | candidate
  | version
  | unrecognized (n : Int)
  deriving DecidableEq, Repr

/-- `ExplainVerdict`: what happens to the flow. -/
inductive ExplainVerdict
  | unspecified
  | allowed
  | denied
  | rejected
  | defaultDrop
  deriving DecidableEq, Repr

/-- `ExplainInspectionState`: whether Suricata sees the flow. -/
inductive ExplainInspectionState
  | unspecified
  | notInspected
  | idsDetect
  | ipsPrevent
  | blockedBeforeInspection
  deriving DecidableEq, Repr

/-- `ExplainDecisionTerm`: the verdict and the inspection in the words of an operator. -/
inductive ExplainDecisionTerm
  | unspecified
  | allowed
  | blocked
  | bypassed
  | partiallyInspected
  | fullyInspected
  | decrypted
  | failed
  | failOpen
  | failClosed
  deriving DecidableEq, Repr

/-- `ExplainFlowRequest`, the fields the explainer reads. -/
structure ExplainFlowRequest where
  policySource : PolicySource := .unspecified
  fromZone : String := ""
  toZone : String := ""
  srcIp : String := ""
  srcPort : Nat := 0
  destIp : String := ""
  destPort : Nat := 0
  protocol : Protocol := .unspecified
  appId : String := ""
  matchContext : Option RuleMatchContext := none
  deriving DecidableEq, Repr

/-- `ExplainInspectionProfile`: how the flow is inspected, and why. -/
structure ExplainInspectionProfile where
  idsEnabled : Bool := false
  idsMode : IdsMode := .unspecified
  failureBehavior : IdsFailureBehavior := .unspecified
  engine : String := ""
  flowOffloadEnabled : Bool := false
  bypassPossible : Bool := false
  bypassReason : String := ""
  inspectionOrder : String := ""
  degradedBehavior : String := ""
  evidence : List String := []
  deriving DecidableEq, Repr

/-- `ExplainRouteProfile`: the static route of the flow, if one was found. -/
structure ExplainRouteProfile where
  evaluated : Bool := false
  matched : Bool := false
  destination : String := ""
  nextHop : String := ""
  egressInterface : String := ""
  metric : Nat := 0
  source : String := ""
  reason : String := ""
  evidence : List String := []
  deriving DecidableEq, Repr

/-- `ExplainDestinationNatProfile`: the translation of the destination. -/
structure ExplainDestinationNatProfile where
  evaluated : Bool := false
  matched : Bool := false
  matchedRule : String := ""
  matchedRuleIndex : Nat := 0
  matchedRuleId : String := ""
  originalDestinationIp : String := ""
  originalDestinationPort : Nat := 0
  translatedDestinationIp : String := ""
  translatedDestinationPort : Nat := 0
  reason : String := ""
  evidence : List String := []
  deriving DecidableEq, Repr

/-- `ExplainSourceNatProfile`: the translation of the source. -/
structure ExplainSourceNatProfile where
  evaluated : Bool := false
  matched : Bool := false
  matchedRule : String := ""
  matchedRuleIndex : Nat := 0
  matchedRuleId : String := ""
  originalSourceIp : String := ""
  translatedSourceIp : String := ""
  masquerade : Bool := false
  reason : String := ""
  evidence : List String := []
  deriving DecidableEq, Repr

/-- `ExplainNatProfile`: both, with the evidence. -/
structure ExplainNatProfile where
  destination : ExplainDestinationNatProfile := {}
  source : ExplainSourceNatProfile := {}
  evidence : List String := []
  deriving DecidableEq, Repr

/-- `ExplainFlowResponse`, without the runtime evidence the API server adds later. -/
structure ExplainFlowResponse where
  policySource : PolicySource
  policyVersion : Nat
  verdict : ExplainVerdict
  inspectionState : ExplainInspectionState
  reason : String
  matchedRule : String := ""
  matchedRuleId : String := ""
  matchedRuleIndex : Nat := 0
  matchedRuleContext : Option RuleMatchContext := none
  defaultPolicy : Bool := false
  evidence : List String
  trace : List String
  warnings : List String
  inspectionProfile : ExplainInspectionProfile
  routeProfile : ExplainRouteProfile
  natProfile : ExplainNatProfile
  decisionTerms : List ExplainDecisionTerm
  decisionSummary : String
  deriving DecidableEq, Repr

/-! ### Labels -/

/-- `sourceOrRunning`: unless another policy is named, the question is about the running one. -/
def sourceOrRunning : PolicySource → PolicySource
  | .unspecified => .running
  | src => src

/-- `actionName`: an action in the evidence. -/
def actionName : Action → String
  | .allow => "allow"
  | .deny => "deny"
  | .reject => "reject"
  | _ => "unspecified"

/-- `verdictName`: a verdict in the evidence. -/
def verdictName : ExplainVerdict → String
  | .allowed => "allowed"
  | .denied => "denied"
  | .rejected => "rejected"
  | .defaultDrop => "default drop"
  | .unspecified => "unspecified"

/-- The enumeration name without its prefix, in lower case. -/
def verdictLabel : ExplainVerdict → String
  | .defaultDrop => "default_drop"
  | v => verdictName v

/-- `decisionTermName`: a term in the summary. -/
def decisionTermName : ExplainDecisionTerm → String
  | .allowed => "allowed"
  | .blocked => "blocked"
  | .bypassed => "bypassed"
  | .partiallyInspected => "partially inspected"
  | .fullyInspected => "fully inspected"
  | .decrypted => "decrypted"
  | .failed => "failed"
  | .failOpen => "fail-open"
  | .failClosed => "fail-closed"
  | .unspecified => ""

/-- `protocolName`: a protocol in the evidence. -/
def protocolName : Protocol → String
  | .tcp => "tcp"
  | .udp => "udp"
  | .icmp => "icmp"
  | .any => "any"
  | _ => "unspecified"

/-- `refsString`: a list of names, where an empty one reads as any. -/
def refsString (refs : List String) : String :=
  if refs.isEmpty then "[any]" else "[" ++ join refs ", " ++ "]"

/-- `anyIfEmpty`: a text, or that it is not known. -/
def anyIfEmpty (s : String) : String := if s = "" then "unknown" else s

/-- `verdictForAction`: the verdict of a rule that matches. -/
def verdictForAction : Action → ExplainVerdict
  | .allow => .allowed
  | .deny => .denied
  | .reject => .rejected
  | _ => .defaultDrop

/-! ### The flow

The request is parsed once; from there on a flow is addresses, numbers and names. -/

/-- `matchContext`: what the request says of who is asking, in normal form. -/
structure MatchContext where
  users : List String := []
  groups : List String := []
  devices : List String := []
  postureLabels : List String := []
  deriving DecidableEq, Repr

/-- `flowInput`: the flow that is explained. -/
structure FlowInput where
  fromZone : String
  toZone : String
  src : Addr
  srcPort : Nat
  dst : Addr
  dstPort : Nat
  proto : Protocol
  appID : String
  context : MatchContext
  deriving DecidableEq, Repr

/-- `canonicalContextValues`: trimmed, in lower case, and without blank ones. -/
def canonicalContextValues (values : List String) : List String :=
  (values.map fun v => toLower (trimSpace v)).filter fun v => v != ""

/-- `requestMatchContext`: the context of a request. None is one that says nothing. -/
def requestMatchContext : Option RuleMatchContext → MatchContext
  | none => {}
  | some m => ⟨canonicalContextValues m.users, canonicalContextValues m.groups,
      canonicalContextValues m.devices, canonicalContextValues m.postureLabels⟩

/-- `parseInput`: the flow of a request. Everything that is wrong with a request is found here, so
an error further on comes from the policy. -/
def parseInput (req : ExplainFlowRequest) : Except String FlowInput :=
  match parseAddr req.srcIp with
  | none => .error ("src_ip " ++ quote req.srcIp ++ " is invalid")
  | some src =>
    match parseAddr req.destIp with
    | none => .error ("dest_ip " ++ quote req.destIp ++ " is invalid")
    | some dst =>
      if 65535 < req.srcPort then
        .error ("src_port " ++ decimal req.srcPort ++ " out of range 0-65535")
      else if 65535 < req.destPort then
        .error ("dest_port " ++ decimal req.destPort ++ " out of range 0-65535")
      else
        let input : FlowInput :=
          { fromZone := req.fromZone, toZone := req.toZone, src, srcPort := req.srcPort, dst
            dstPort := req.destPort, proto := req.protocol
            appID := toLower (trimSpace req.appId), context := requestMatchContext req.matchContext }
        match req.protocol with
        | .tcp | .udp =>
            if req.destPort = 0 then
              .error ("dest_port is required for " ++ protocolName req.protocol)
            else .ok input
        | .icmp | .any => .ok input
        | _ => .error "protocol is required"

/-! ### The index

The tables in which the references of rules are looked up. They are built for each request. -/

/-- `routeInfo`: a static route, parsed, with its position. -/
structure RouteInfo where
  route : StaticRoute
  pfx : Prefix
  index : Nat
  deriving DecidableEq, Repr

/-- `index`: the policy and its tables. -/
structure Index where
  policy : Phragma.Policy
  addresses : List (String × Prefix)
  services : List (String × Service)
  apps : List (String × Application)
  routes : List RouteInfo

/-- One static route of the index. -/
def indexRoute (r : StaticRoute × Nat) : Except String RouteInfo :=
  match parsePrefix r.1.destination with
  | none => .error ("static route #" ++ decimal (r.2 + 1) ++ " has invalid destination " ++
      quote r.1.destination)
  | some pfx =>
      if r.1.via ≠ "" ∧ (parseAddr r.1.via).isNone then
        .error ("static route " ++ quote r.1.destination ++ " has invalid next-hop " ++
          quote r.1.via)
      else .ok ⟨r.1, pfx, r.2⟩

/-- `newIndex`: the tables of a policy, unless an address or a route cannot be read. -/
def newIndex (p : Phragma.Policy) : Except String Index := do
  let addresses ← Compiler.addressIndex (fun a => "address " ++ quote a.name ++
    " has invalid CIDR " ++ quote a.cidr) [] p.addresses
  let routes ← p.staticRoutes.zipIdx.mapM indexRoute
  pure { policy := p, addresses, routes
         services := tableOf Service.name id p.services
         apps := tableOf Application.name id p.applications }

/-! ### Matching

A rule is compared with the flow field by field, and the first field that does not match gives the
reason. A reference that is not in its table is an error of the whole explanation, but only if the
comparison comes to it. -/

/-- `containsAny`: is the wildcard among the references? -/
def containsAny (refs : List String) : Bool := refs.contains Any

/-- `zoneMatches`: a flow whose zone is not known is in no zone that is named. -/
def zoneMatches (refs : List String) (zone : String) : Bool :=
  if refs.isEmpty || containsAny refs then true
  else if zone = "" then false
  else refs.contains zone

/-- The loop of `addressMatches`, `serviceMatches` and `applicationMatches`: the first
reference whose object passes the test decides, an unknown one is an error. -/
def matchRefs {α : Type} (find : String → Option α) (unknown : String → String) (test : α → Bool) :
    List String → Except String Bool
  | [] => .ok false
  | ref :: refs =>
      match find ref with
      | none => .error (unknown ref)
      | some a => if test a then .ok true else matchRefs find unknown test refs

/-- References with a wildcard. -/
def matchAnyRefs {α : Type} (find : String → Option α) (unknown : String → String)
    (test : α → Bool) (refs : List String) : Except String Bool :=
  if refs.isEmpty || containsAny refs then .ok true else matchRefs find unknown test refs

/-- `addressMatches`: is the address in one of the prefixes? -/
def addressMatches (idx : Index) (refs : List String) (ip : Addr) : Except String Bool :=
  matchAnyRefs (fun r => idx.addresses.lookup r) (fun r => "unknown address " ++ quote r)
    (fun pfx => pfx.contains ip) refs

/-- A port against a range of the policy. -/
def portInRange (dstPort : Nat) (pr : PortRange) : Bool :=
  let stop := if pr.stop = 0 then pr.start else pr.stop
  decide (pr.start ≤ dstPort) && decide (dstPort ≤ stop)

/-- `serviceMatches`, of one service. -/
def serviceMatches (svc : Service) (proto : Protocol) (dstPort : Nat) : Bool :=
  match svc.protocol with
  | .any => true
  | .icmp => proto == .icmp
  | .tcp | .udp =>
      if proto ≠ svc.protocol then false
      else svc.ports.isEmpty || svc.ports.any (portInRange dstPort)
  | _ => false

/-- `index.serviceMatches`: is the flow one of the services? -/
def servicesMatch (idx : Index) (refs : List String) (proto : Protocol) (dstPort : Nat) :
    Except String Bool :=
  matchAnyRefs (fun r => idx.services.lookup r) (fun r => "unknown service " ++ quote r)
    (fun svc => serviceMatches svc proto dstPort) refs

/-- `supportedAppIDSignal`: does Suricata report this signal? -/
def supportedAppIDSignal (signal : String) : Bool := ["dns", "http", "ssh", "tls"].contains signal

/-- `applicationSignalValue`: is what was observed one of the application's signals, and one that is
reported? -/
def applicationSignalValue (app : Application) (observed : String) : Bool :=
  let observed := toLower (trimSpace observed)
  app.engineSignals.any fun s => toLower (trimSpace s) == observed && supportedAppIDSignal observed

/-- `applicationSignalMatches`: what was observed may also be the application's name, if it has a
signal that is reported. -/
def applicationSignalMatches (app : Application) (observed : String) : Bool :=
  let observed := toLower (trimSpace observed)
  if observed = "" then false
  else (observed == toLower (trimSpace app.name) && hasSupportedAppIDSignal app.engineSignals) ||
    applicationSignalValue app observed

/-- `applicationPortMatches`: is the flow one that the hints are about? -/
def applicationPortMatches (app : Application) (proto : Protocol) (dstPort : Nat) : Bool :=
  app.ports.any fun hint => hint.protocol == proto && hint.ports.any (portInRange dstPort)

/-- `applicationMatches`: by port hint in any case, by signal only where Suricata stands in the way
and fails closed. -/
def applicationMatches (idx : Index) (refs : List String) (input : FlowInput) :
    Except String Bool :=
  matchAnyRefs (fun r => idx.apps.lookup r) (fun r => "unknown application " ++ quote r)
    (fun app => applicationPortMatches app input.proto input.dstPort ||
      (applicationSignalMatches app input.appID && idsPreventFailClosed idx.policy.getIds)) refs

/-- `ruleContextEmpty`: does a context require nothing? -/
def ruleContextEmpty (m : RuleMatchContext) : Bool :=
  m.users.isEmpty && m.groups.isEmpty && m.devices.isEmpty && m.postureLabels.isEmpty

/-- `intersectsContext`: is one of the required values among the given ones, if any is required? -/
def intersectsContext (required supplied : List String) : Bool :=
  required.isEmpty ||
    required.any fun v => (supplied.map fun s => toLower (trimSpace s)).contains
      (toLower (trimSpace v))

/-- `ruleMatchContextMatches`: the reason of a mismatch, if there is one. -/
def ruleMatchContextMatches (required : Option RuleMatchContext) (supplied : MatchContext) :
    Option String :=
  match required with
  | none => none
  | some m =>
      if ruleContextEmpty m then none
      else
        [("user", m.users, supplied.users), ("group", m.groups, supplied.groups),
          ("device", m.devices, supplied.devices),
          ("posture", m.postureLabels, supplied.postureLabels)].findSome?
        fun (name, required, supplied) =>
          if intersectsContext required supplied then none
          else some (name ++ " context " ++ refsString supplied ++ " not in " ++
            refsString required)

/-- `ruleMatches`: `none` when the rule matches, otherwise why it does not. -/
def ruleMatches (idx : Index) (input : FlowInput) (r : Rule) : Except String (Option String) := do
  let inRule (what e : String) : String := "rule " ++ quote r.name ++ " " ++ what ++ " match: " ++ e
  let service := protocolName input.proto ++ "/" ++ decimal input.dstPort
  if !zoneMatches r.fromZones input.fromZone then
    return some ("from_zone " ++ quote (anyIfEmpty input.fromZone) ++ " not in " ++
      refsString r.fromZones)
  if !zoneMatches r.toZones input.toZone then
    return some ("to_zone " ++ quote (anyIfEmpty input.toZone) ++ " not in " ++
      refsString r.toZones)
  let srcOK ← (addressMatches idx r.sourceAddresses input.src).mapError (inRule "source address")
  if !srcOK then
    return some ("source " ++ input.src.string ++ " not in " ++ refsString r.sourceAddresses)
  let dstOK ← (addressMatches idx r.destinationAddresses input.dst).mapError
    (inRule "destination address")
  if !dstOK then
    return some ("destination " ++ input.dst.string ++ " not in " ++
      refsString r.destinationAddresses)
  let svcOK ← (servicesMatch idx r.services input.proto input.dstPort).mapError (inRule "service")
  if !svcOK then
    return some ("service " ++ service ++ " not in " ++ refsString r.services)
  let appOK ← (applicationMatches idx r.applications input).mapError (inRule "application")
  if !appOK then
    return some ("application " ++ anyIfEmpty input.appID ++ " with " ++ service ++ " not in " ++
      refsString r.applications)
  return ruleMatchContextMatches r.matchContext input.context

/-! ### Address translation

Destinations are translated before the rules are compared, sources afterwards and only for a flow
that is let through. -/

/-- `baseNatProfile`: the report of a flow that nothing translates. -/
def baseNatProfile (input : FlowInput) : ExplainNatProfile where
  destination :=
    { evaluated := true
      originalDestinationIp := input.dst.string
      originalDestinationPort := input.dstPort
      translatedDestinationIp := input.dst.string
      translatedDestinationPort := input.dstPort
      reason := "no destination NAT rule matched before policy evaluation" }
  source :=
    { originalSourceIp := input.src.string
      reason := "source NAT is evaluated only after an allow verdict" }

/-- The loop of `applyDNAT`: the first destination translation that matches, with its
position and target. -/
def findDNAT (idx : Index) (input : FlowInput) :
    List (DestinationNat × Nat) → Except String (Option (DestinationNat × Nat × Prefix))
  | [] => .ok none
  | (dn, i) :: rest =>
      let ctx := "destination-nat " ++ quote dn.name ++ " references unknown "
      if !zoneMatches [dn.fromZone] input.fromZone then findDNAT idx input rest
      else
        match idx.services.lookup dn.service with
        | none => .error (ctx ++ "service " ++ quote dn.service)
        | some svc =>
          if !serviceMatches svc input.proto input.dstPort then findDNAT idx input rest
          else
            match idx.addresses.lookup dn.destinationAddress with
            | none => .error (ctx ++ "destination_address " ++ quote dn.destinationAddress)
            | some matchDst =>
              if !matchDst.contains input.dst then findDNAT idx input rest
              else
                match idx.addresses.lookup dn.translatedAddress with
                | none => .error (ctx ++ "translated_address " ++ quote dn.translatedAddress)
                | some translated => .ok (some (dn, i, translated))

/-- The flow after a destination translation. -/
def translateDst (input : FlowInput) (dn : DestinationNat) (target : Prefix) : FlowInput :=
  { input with
    dst := target.addr
    dstPort := if dn.translatedPort ≠ 0 then Compiler.uint16 dn.translatedPort else input.dstPort }

/-- `applyDNAT`: the report about the destination, and the flow with the translated one. -/
def applyDNAT (idx : Index) (input : FlowInput) : Except String (ExplainNatProfile × FlowInput) := do
  let profile := baseNatProfile input
  match ← findDNAT idx input idx.policy.getNat.destination.zipIdx with
  | none => return (profile, input)
  | some (dn, i, target) =>
      let out := translateDst input dn target
      let evidence := "dnat " ++ quote dn.name ++ " translated destination " ++
        input.dst.string ++ ":" ++ decimal input.dstPort ++ " -> " ++ out.dst.string ++ ":" ++
        decimal out.dstPort
      return ({ profile with
        destination := { profile.destination with
          matched := true
          matchedRule := dn.name
          matchedRuleId := dn.id
          matchedRuleIndex := i % 2 ^ 32
          translatedDestinationIp := out.dst.string
          translatedDestinationPort := out.dstPort
          reason := "destination NAT " ++ quote dn.name ++ " matched before policy evaluation"
          evidence := [evidence] }
        evidence := [evidence] }, out)

/-- Does a source translation match: its zone, and its source address unless that is
empty or the wildcard? -/
def snatMatches (idx : Index) (input : FlowInput) (sn : SourceNat) : Bool :=
  zoneMatches [sn.toZone] input.toZone &&
    (sn.sourceAddress == "" || sn.sourceAddress == Any ||
      ((idx.addresses.lookup sn.sourceAddress).map fun pfx => pfx.contains input.src).getD false)

/-- The loop of `evaluateSNAT`: the first matching source translation that can be carried
out, with its position and, unless it masquerades, its target. -/
def findSNAT (idx : Index) (input : FlowInput) :
    List (SourceNat × Nat) → Option (SourceNat × Nat × Option Prefix)
  | [] => none
  | (sn, i) :: rest =>
      if !snatMatches idx input sn then findSNAT idx input rest
      else if sn.masquerade then some (sn, i, none)
      else if sn.translatedAddress = "" then findSNAT idx input rest
      else
        match idx.addresses.lookup sn.translatedAddress with
        | some pfx => some (sn, i, some pfx)
        | none => findSNAT idx input rest

/-- `evaluateSNAT`: the profile, and the evidence line when a rule matched. -/
def evaluateSNAT (idx : Index) (input : FlowInput) (profile : ExplainNatProfile) :
    ExplainNatProfile × List String :=
  let source := { profile.source with
    evaluated := true
    reason := "no source NAT rule matched after policy allow" }
  match findSNAT idx input idx.policy.getNat.source.zipIdx with
  | none => ({ profile with source }, [])
  | some (sn, i, target) =>
      let evidence := "source-nat " ++ quote sn.name ++
        (match target with
          | none => " will masquerade the source after policy allow"
          | some pfx => " will translate source to " ++ pfx.addr.string ++ " after policy allow")
      ({ profile with
        source := { source with
          matched := true
          matchedRule := sn.name
          matchedRuleId := sn.id
          matchedRuleIndex := i % 2 ^ 32
          masquerade := target.isNone
          translatedSourceIp := (target.map fun pfx => pfx.addr.string).getD ""
          reason := "source NAT " ++ quote sn.name ++ " matched after policy allow"
          evidence := source.evidence ++ [evidence] }
        evidence := profile.evidence ++ [evidence] }, [evidence])

/-- `markSNATSkipped`: the source of a flow that is blocked is not translated, and the report says
why. -/
def markSNATSkipped (profile : ExplainNatProfile) (verdict : ExplainVerdict) : ExplainNatProfile :=
  { profile with
    source := { profile.source with
      evaluated := false
      reason := "source NAT not evaluated because policy verdict is " ++ verdictLabel verdict } }

/-! ### Routes

Of the static routes that contain the destination the longest prefix wins, and among those the
lowest metric. -/

/-- `matchRoute`: longest prefix, then lowest metric, then first. -/
def matchRoute (idx : Index) (dst : Addr) : Option RouteInfo :=
  idx.routes.foldl (fun best r =>
    if !r.pfx.contains dst then best
    else
      match best with
      | none => some r
      | some b =>
          if b.pfx.bits < r.pfx.bits ∨
              (r.pfx.bits = b.pfx.bits ∧ r.route.metric < b.route.metric) then some r
          else best) none

/-- `routeLine`: a route as a line, as `ip` would write it. -/
def routeLine (r : RouteInfo) : String :=
  join (["static route " ++ r.pfx.string] ++
    (if r.route.via = "" then [] else ["via " ++ r.route.via]) ++
    (if r.route.interface = "" then [] else ["dev " ++ r.route.interface]) ++
    (if r.route.metric = 0 then [] else ["metric " ++ decimal r.route.metric])) " "

/-- `routingEnabled`: are there routes that the policy does not have? -/
def routingEnabled (p : Phragma.Policy) : Bool :=
  match p.routing with
  | none => false
  | some routing => (routing.bgp.map Bgp.enabled).getD false ||
      (routing.ospf.map Ospf.enabled).getD false

/-- `routeExplanation`: the report with its evidence. -/
structure RouteExplanation where
  profile : ExplainRouteProfile
  evidence : List String
  warnings : List String

/-- `explainRoute`: the route of a flow that is let through. -/
def explainRoute (idx : Index) (input : FlowInput) (verdict : ExplainVerdict) : RouteExplanation :=
  if verdict ≠ .allowed then
    let reason := "route lookup not evaluated because the policy verdict is " ++ verdictName verdict
    { profile :=
        { source := "not-evaluated", reason, evidence := ["routing skipped for non-allow verdict"] }
      evidence := [reason]
      warnings := [] }
  else
    match matchRoute idx input.dst with
    | some best =>
        { profile :=
            { evaluated := true, matched := true, source := "static"
              destination := best.pfx.string, nextHop := best.route.via
              egressInterface := best.route.interface, metric := best.route.metric
              reason := "static route " ++ best.pfx.string ++ " selected for destination " ++
                input.dst.string ++ " by longest-prefix match"
              evidence := [routeLine best] }
          evidence := ["route decision: " ++ routeLine best]
          warnings := [] }
    | none =>
        let reason := "no OpenNGFW static route matched destination " ++ input.dst.string
        let dynamic := routingEnabled idx.policy
        { profile :=
            { evaluated := true, source := "kernel-unresolved", reason
              evidence := ["no static route entry matched the post-DNAT destination",
                if dynamic then
                  "FRR dynamic routing is enabled, but live kernel/FRR route state is outside this pure policy explanation"
                else
                  "connected and default kernel routes are outside this pure policy explanation"] }
          evidence := ["route decision unresolved in policy model: " ++ reason]
          warnings := [
            if dynamic then
              "no static route matched; live FRR/kernel route state is not included in ExplainFlow yet"
            else
              "no static route matched; connected/default kernel route state is not included in ExplainFlow yet"] }

/-! ### Inspection

Whether Suricata sees a flow is decided by the policy alone: by the mode, and by what lets flows
past it. -/

/-- `inspectionExplanation`: the report with its evidence. -/
structure InspectionExplanation where
  state : ExplainInspectionState
  profile : ExplainInspectionProfile
  evidence : List String
  warnings : List String

/-- `explainInspection`: how a flow that is let through is inspected. -/
def explainInspection (p : Phragma.Policy) : InspectionExplanation :=
  let ids := p.getIds
  let offload := p.getNetwork.enableFlowOffload
  let profile : ExplainInspectionProfile :=
    { idsEnabled := ids.enabled, idsMode := ids.mode, failureBehavior := ids.failureBehavior
      flowOffloadEnabled := offload, bypassPossible := offload
      bypassReason := if offload then
        "network.enable_flow_offload can fast-path established L3/L4 flows around userspace inspection; validation requires IDS/IPS disabled for this profile"
        else "" }
  let evidence := if offload then
    ["flowtable fast path enabled for established forwarded flows"] else []
  let warnings := if offload then
    ["flowtable fast path is enabled; established flows can bypass userspace inspection by policy"]
    else []
  if !ids.enabled then
    { state := .notInspected
      profile := { profile with
        engine := "none"
        inspectionOrder := "no IDS/IPS inspection engine is attached to the policy path"
        degradedBehavior := "engine outage has no IDS/IPS effect because inspection is disabled"
        evidence := ["IDS/IPS disabled"] }
      evidence := evidence ++ ["IDS/IPS disabled; flow is not inspected by the Suricata engine"]
      warnings }
  else if ids.mode = .prevent then
    let profile := { profile with
      engine := "suricata"
      inspectionOrder := "inline NFQUEUE handoff runs before the OpenNGFW policy rule/default verdict in the current nftables renderer" }
    if ids.failureBehavior = .failClosed then
      { state := .ipsPrevent
        profile := { profile with
          degradedBehavior := "fail-closed: if Suricata/NFQUEUE is unavailable, queued traffic is held or dropped instead of bypassing inspection"
          evidence := ["IPS prevent mode", "fail-closed NFQUEUE behavior"] }
        evidence := evidence ++
          ["IDS/IPS prevent mode enabled with fail-closed NFQUEUE behavior"]
        warnings }
    else
      let profile := { profile with
        bypassPossible := true
        bypassReason := "ids.failure_behavior is fail-open; if Suricata/NFQUEUE is unavailable, queued packets bypass inspection and continue to policy evaluation" }
      if ids.failureBehavior = .unspecified then
        { state := .ipsPrevent
          profile := { profile with
            degradedBehavior := "failure behavior is unspecified; policy validation rejects prevent mode until fail-open or fail-closed is declared"
            evidence := ["IPS prevent mode", "failure behavior unspecified"] }
          evidence := evidence ++
            ["IDS/IPS prevent mode enabled but failure behavior is unspecified"]
          warnings := warnings ++
            ["IDS/IPS prevent mode requires explicit fail-open or fail-closed behavior before commit"] }
      else
        { state := .ipsPrevent
          profile := { profile with
            degradedBehavior := "fail-open: if Suricata/NFQUEUE is unavailable, queued traffic bypasses inspection and continues to policy evaluation"
            evidence := ["IPS prevent mode", "fail-open NFQUEUE bypass behavior"] }
          evidence := evidence ++
            ["IDS/IPS prevent mode enabled with fail-open NFQUEUE bypass behavior"]
          warnings := warnings ++
            ["IDS/IPS prevent mode is configured fail-open; degraded Suricata/NFQUEUE can bypass inspection"] }
  else
    { state := .idsDetect
      profile := { profile with
        engine := "suricata"
        inspectionOrder := "passive AF_PACKET observation is outside the nftables forward verdict path"
        degradedBehavior := "engine outage stops detections and flow telemetry but does not change the OpenNGFW policy verdict"
        evidence := ["IDS detect mode", "passive Suricata observation"] }
      evidence := evidence ++
        ["IDS/IPS detect mode enabled; Suricata observes traffic passively"]
      warnings }

/-! ### Evidence about the matched rule -/

/-- `applicationEvidence`: by what an application of the rule was recognized. -/
def applicationEvidence (idx : Index) (input : FlowInput) (r : Rule) : List String :=
  if r.applications.isEmpty || containsAny r.applications then []
  else
    r.applications.flatMap fun ref =>
      match idx.apps.lookup ref with
      | none => []
      | some app =>
          let differs :=
            if input.appID ≠ "" ∧ input.appID ≠ ref ∧ !applicationSignalValue app input.appID then
              ["observed app_id " ++ quote input.appID ++ " differs from rule application " ++
                quote ref ++ "; current enforcement is by port hint, not engine signal"]
            else []
          if applicationPortMatches app input.proto input.dstPort then
            ["application " ++ quote ref ++ " matched TCP/UDP port-hint enforcement for " ++
              protocolName input.proto ++ "/" ++ decimal input.dstPort] ++ differs
          else if applicationSignalMatches app input.appID &&
              idsPreventFailClosed idx.policy.getIds then
            ["application " ++ quote ref ++ " matched Suricata App-ID signal " ++
              quote input.appID ++ " with IDS/IPS Prevent fail-closed"] ++ differs
          else []

/-- `applicationWarnings`: what the answer does not take into account. -/
def applicationWarnings (input : FlowInput) (r : Rule) : List String :=
  if r.applications.isEmpty || containsAny r.applications then []
  else
    ["application-scoped deny rules use TCP/UDP port hints, or supported Suricata App-ID signals when IDS/IPS is Prevent fail-closed"] ++
    (if input.appID = "" then
      ["no app_id was supplied; signal-only App-ID rules cannot be explained as matching without observed application evidence"]
    else [])

/-- The context of a rule, when it has one that is not empty
(`cloneRuleMatchContext`). -/
def ruleContext (r : Rule) : Option RuleMatchContext :=
  r.matchContext.filter fun m => !ruleContextEmpty m

/-- `ruleMatchContextSummary`: a context in one line. -/
def ruleMatchContextSummary (m : RuleMatchContext) : String :=
  let part (label : String) (values : List String) : List String :=
    if values.isEmpty then [] else [label ++ "=" ++ join values ","]
  join (part "users" m.users ++ part "groups" m.groups ++ part "devices" m.devices ++
    part "posture_labels" m.postureLabels) " "

/-- `ruleMatchContextEvidence`: the context of the rule, if it has one. -/
def ruleMatchContextEvidence (r : Rule) : List String :=
  match ruleContext r with
  | none => []
  | some m => ["matched rule identity/posture context: " ++ ruleMatchContextSummary m]

/-- `ruleMatchContextWarnings`: that the context was taken from the request. -/
def ruleMatchContextWarnings (r : Rule) : List String :=
  match ruleContext r with
  | none => []
  | some _ =>
      ["identity/posture context was matched from ExplainFlow request fields only; no live directory, group freshness, MDM, or step-up authentication lookup was performed"]

/-! ### Decision vocabulary -/

/-- `AnnotateDecisionVocabulary`: the terms, each once, in the order they are added. -/
def decisionTerms (verdict : ExplainVerdict) (state : ExplainInspectionState)
    (profile : ExplainInspectionProfile) : List ExplainDecisionTerm :=
  let added :=
    (match verdict with
      | .allowed => [.allowed]
      | .unspecified => []
      | _ => [.blocked]) ++
    (match state with
      | .notInspected => if verdict = .allowed then [.bypassed] else []
      | .idsDetect => [.partiallyInspected]
      | .ipsPrevent =>
          if profile.failureBehavior = .failClosed then [.fullyInspected]
          else [.partiallyInspected]
      | .blockedBeforeInspection => [.blocked]
      | .unspecified => []) ++
    (if profile.bypassPossible || profile.flowOffloadEnabled then [.bypassed] else []) ++
    (match profile.failureBehavior with
      | .failOpen => [.failOpen]
      | .failClosed => [.failClosed]
      | .unspecified => if profile.idsEnabled && profile.idsMode = .prevent then [.failed] else []
      | .unrecognized _ => [])
  added.foldl (fun terms t => if terms.contains t then terms else terms ++ [t]) []

/-- `decisionSummary`: the terms in one line. -/
def decisionSummary (terms : List ExplainDecisionTerm) : String :=
  join ((terms.map decisionTermName).filter fun label => label != "") ", "

/-! ### The explainer

The stages one after another: the request, the tables, the destination, the rules, the source, the
route, the inspection. What comes after the rules reports on the flow and does not change the
verdict. -/

/-- The rule loop: the first enabled rule that matches, with its position, and the trace
of the rules skipped before it. -/
def walkRules (idx : Index) (input : FlowInput) :
    List (Rule × Nat) → Except String (Option (Rule × Nat) × List String)
  | [] => .ok (none, [])
  | (r, i) :: rest => do
      let label := "rule[" ++ decimal i ++ "] " ++ quote r.name ++ " skipped: "
      if r.disabled then
        let (hit, trace) ← walkRules idx input rest
        return (hit, (label ++ "disabled") :: trace)
      match ← ruleMatches idx input r with
      | none => return (some (r, i), [])
      | some reason =>
          let (hit, trace) ← walkRules idx input rest
          return (hit, (label ++ reason) :: trace)

/-- A rule that is skipped, because it is disabled or because it does not match, leaves
the hit to the rules after it. -/
theorem walkRules_skip {idx : Index} {input : FlowInput} {r : Rule} {i : Nat}
    {rest : List (Rule × Nat)} {hit : Option (Rule × Nat)} {trace : List String}
    (hskip : r.disabled = true ∨ ∃ reason, ruleMatches idx input r = .ok (some reason))
    (hrest : walkRules idx input rest = .ok (hit, trace)) :
    ∃ trace', walkRules idx input ((r, i) :: rest) = .ok (hit, trace') := by
  unfold walkRules
  by_cases hd : r.disabled = true
  · rw [if_pos hd, hrest]
    exact ⟨_, rfl⟩
  · obtain ⟨reason, hreason⟩ := hskip.resolve_left hd
    rw [if_neg hd, hreason]
    simp only [bind, Except.bind, hrest]
    exact ⟨_, rfl⟩

theorem walkRules_hit {idx : Index} {input : FlowInput} {r : Rule} {i : Nat}
    {rest : List (Rule × Nat)} (hd : r.disabled = false)
    (hmatch : ruleMatches idx input r = .ok none) :
    walkRules idx input ((r, i) :: rest) = .ok (some (r, i), []) := by
  unfold walkRules
  rw [hd, hmatch]
  rfl

/-- `ExplainFlow`: the answer to a request, on the normalized policy. -/
def ExplainFlow (H : IdentityHash) (p : Phragma.Policy) (req : ExplainFlowRequest)
    (version : Nat) : Except String ExplainFlowResponse := do
  let p := normalizeIdentities H p
  let input ← parseInput req
  let idx ← newIndex p
  let warnings :=
    ["policy-model verdict; dynamic intel set contents and engine-native verdicts are not included yet"] ++
    (if req.fromZone = "" ∨ req.toZone = "" then
      ["from_zone and to_zone were not both provided; only wildcard zone rules can match missing zone context"]
    else [])
  let flowEvidence := "flow " ++ input.src.string ++ ":" ++ decimal input.srcPort ++ " -> " ++
    input.dst.string ++ ":" ++ decimal input.dstPort ++ " " ++ protocolName input.proto ++
    ", zones " ++ anyIfEmpty input.fromZone ++ " -> " ++ anyIfEmpty input.toZone
  let (natProfile, translated) ← applyDNAT idx input
  let dest := natProfile.destination
  let dnatTrace := if dest.matched then
    ["destination-nat " ++ quote dest.matchedRule ++ " matched before policy evaluation"] else []
  let evidence := [flowEvidence] ++ (if dest.matched then dest.evidence else [])
  let (hit, trace) ← walkRules idx translated p.rules.zipIdx
  let inspection := explainInspection p
  match hit with
  | some (r, i) =>
      let verdict := verdictForAction r.action
      let route := explainRoute idx translated verdict
      let (natProfile, snatEvidence) :=
        if verdict = .allowed then evaluateSNAT idx translated natProfile
        else (markSNATSkipped natProfile verdict, [])
      let terms := decisionTerms verdict inspection.state inspection.profile
      return {
        policySource := sourceOrRunning req.policySource, policyVersion := version
        verdict
        matchedRule := r.name, matchedRuleId := r.id, matchedRuleIndex := i % 2 ^ 32
        matchedRuleContext := ruleContext r
        inspectionState := inspection.state, inspectionProfile := inspection.profile
        reason := "first matching policy rule " ++ quote r.name ++ " returned " ++
          actionName r.action
        evidence := evidence ++ ["matched rule " ++ quote r.name ++ " at index " ++ decimal i,
            "rule action " ++ actionName r.action] ++
          applicationEvidence idx translated r ++ ruleMatchContextEvidence r ++
          inspection.evidence ++ route.evidence ++ snatEvidence
        warnings := warnings ++ applicationWarnings translated r ++ ruleMatchContextWarnings r ++
          inspection.warnings ++ route.warnings
        trace := dnatTrace ++ trace
        routeProfile := route.profile, natProfile
        decisionTerms := terms, decisionSummary := decisionSummary terms }
  | none =>
      let verdict := .defaultDrop
      let route := explainRoute idx translated verdict
      let terms := decisionTerms verdict inspection.state inspection.profile
      return {
        policySource := sourceOrRunning req.policySource, policyVersion := version
        verdict, defaultPolicy := true
        inspectionState := inspection.state, inspectionProfile := inspection.profile
        reason := "no enabled security rule matched; nftables forward chain policy drops by default"
        evidence := evidence ++ ["default forward-chain policy is drop"] ++ inspection.evidence ++
          route.evidence
        warnings := warnings ++ inspection.warnings ++ route.warnings
        trace := dnatTrace ++ trace
        routeProfile := route.profile, natProfile := markSNATSkipped natProfile verdict
        decisionTerms := terms, decisionSummary := decisionSummary terms }

/-- The verdict the explainer gives for the outcome of the rule loop. -/
def hitVerdict : Option (Rule × Nat) → ExplainVerdict
  | none => .defaultDrop
  | some (r, _) => verdictForAction r.action

/-- Once the input is parsed, the index built and both loops have run, the response
follows from the rule that was hit. -/
theorem ExplainFlow_of_hit {H : IdentityHash} {p : Phragma.Policy} {req : ExplainFlowRequest}
    (version : Nat) {input out : FlowInput} {idx : Index} {nat : ExplainNatProfile}
    {hit : Option (Rule × Nat)} {trace : List String} (hinput : parseInput req = .ok input)
    (hidx : newIndex (normalizeIdentities H p) = .ok idx)
    (hdnat : applyDNAT idx input = .ok (nat, out))
    (hwalk : walkRules idx out (normalizeIdentities H p).rules.zipIdx = .ok (hit, trace)) :
    ∃ resp, ExplainFlow H p req version = .ok resp ∧ resp.verdict = hitVerdict hit ∧
      (resp.verdict = .allowed → resp.natProfile = (evaluateSNAT idx out nat).1) := by
  unfold ExplainFlow
  simp only [hinput, hidx, hdnat, hwalk, bind, Except.bind]
  cases hit with
  | none => exact ⟨_, rfl, rfl, by intro h; cases h⟩
  | some hit =>
      obtain ⟨r, i⟩ := hit
      refine ⟨_, rfl, rfl, ?_⟩
      intro h
      simp only at h
      simp [h]

end Phragma.Explain
