import Phragma.Lib.Resolve
import Phragma.Policy.Validate
import Phragma.Compiler.CompileRouting

/-!
# Phragma.Compiler.Compile

From a policy to the intermediate representation (`internal/compiler/compile.go`,
`compile_network.go`).

`Compile` normalizes identities, validates what it is given and resolves every
reference, failing on the first one that dangles. The three ways it resolves a
reference list (zones to interfaces, addresses to prefixes, services to matches) are one
loop, `resolveRefs`, at three tables.

Fixed-width fields are truncated where the source converts (`uint16`). Of a netip parse
error only the text around it is kept; after validation none can occur. Telemetry,
dynamic routing and VPN are compiled by functions of their own, in
`Phragma.Compiler.CompileRouting`.
-/

namespace Phragma.Compiler

open Lib Go Policy

/-! ### Tables

References are names. The compiler looks them up in tables that it builds first, one for each kind
of object; of two objects with one name, the table has the later one. -/

/-- `map[string]netip.Prefix` over the addresses, failing on the first CIDR that does
not parse. The explainer builds the same map with another error text. -/
def addressIndex (err : Address → String) :
    List (String × Prefix) → List Address → Except String (List (String × Prefix))
  | m, [] => .ok m
  | m, a :: as =>
      match parsePrefix a.cidr with
      | none => .error (err a)
      | some pfx => addressIndex err ((a.name, pfx) :: m) as

/-- The port ranges of a service or hint, truncated to `uint16`. -/
def compilePorts (ports : List Policy.PortRange) : List PortRange :=
  ports.map fun pr =>
    let stop := uint16 pr.stop
    ⟨uint16 pr.start, if stop = 0 then uint16 pr.start else stop⟩

/-- `serviceMatch`: a service as the packet filter matches it. A protocol that is not set is
refused. -/
def serviceMatch (s : Service) : Except String ServiceMatch :=
  match s.protocol with
  | .tcp => .ok ⟨.tcp, compilePorts s.ports⟩
  | .udp => .ok ⟨.udp, compilePorts s.ports⟩
  | .icmp => .ok ⟨.icmp, compilePorts s.ports⟩
  | .any => .ok ⟨.any, compilePorts s.ports⟩
  | _ => .error ("service " ++ quote s.name ++ ": protocol unset")

/-- `applicationServiceMatches`: the port hints of an application as services. A hint without ports,
or for another protocol than TCP and UDP, gives nothing. -/
def applicationServiceMatches (app : Application) : List ServiceMatch :=
  app.ports.filterMap fun hint =>
    if hint.ports.isEmpty then none
    else
      match hint.protocol with
      | .tcp => some ⟨.tcp, compilePorts hint.ports⟩
      | .udp => some ⟨.udp, compilePorts hint.ports⟩
      | _ => none

/-- `compilation`: the tables references are resolved in. -/
structure Compilation where
  zoneIfaces : List (String × List String)
  addrs : List (String × Prefix)
  svcs : List (String × ServiceMatch)
  apps : List (String × Application)
  securityProfiles : List (String × SecurityProfile)
  qosProfiles : List (String × QosProfile)
  zoneProtections : List (String × ZoneProtectionProfile)

/-- The tables of a policy. -/
def newCompilation (p : Phragma.Policy) : Except String Compilation := do
  let addrs ← addressIndex (fun a => "address " ++ quote a.name ++ ": netip.ParsePrefix(" ++
    quote a.cidr ++ ")") [] p.addresses
  let svcs ← p.services.mapM fun s => do
    let m ← serviceMatch s
    pure (s.name, m)
  pure {
    zoneIfaces := tableOf Zone.name Zone.interfaces p.zones
    addrs
    svcs := svcs.reverse
    apps := tableOf Application.name id p.applications
    securityProfiles := tableOf SecurityProfile.name id p.securityProfiles
    qosProfiles := tableOf QosProfile.name id p.qosProfiles
    zoneProtections := tableOf ZoneProtectionProfile.name id p.zoneProtectionProfiles }

/-! ### References

The wildcard among references makes the list empty, which means "any": it takes back what the names
before it gave, and nothing after it is looked up. -/

/-- `resolveIfaces`: the interfaces of the zones of a rule. -/
def resolveIfaces (c : Compilation) (refs : List String) : Except String (List String) :=
  resolveRefs Any (fun r => c.zoneIfaces.lookup r) (fun r => "unknown zone " ++ quote r) [] refs

/-- `resolvePrefixes`: the prefixes of its address objects. -/
def resolvePrefixes (c : Compilation) (refs : List String) : Except String (List Prefix) :=
  resolveRefs Any (fun r => (c.addrs.lookup r).map ([·]))
    (fun r => "unknown address " ++ quote r) [] refs

/-- The service loop of rules and host-input rules. -/
def resolveServices (c : Compilation) (refs : List String) : Except String (List ServiceMatch) :=
  resolveRefs Any (fun r => (c.svcs.lookup r).map ([·]))
    (fun r => "unknown service " ++ quote r) [] refs

/-! ### Rules

A rule is compiled part by part, and the first part that fails gives its error. Application loop and
service list share an accumulator, since the hints of an application count as services of the
rule. -/

/-- `supportedAppIDSignals`: the supported signals of an application, each once. -/
def supportedAppIDSignals (signals : List String) : List String :=
  signals.foldl (fun out signal =>
    let normalized := toLower (trimSpace signal)
    if ["http", "tls", "dns", "ssh"].contains normalized && !out.contains normalized then
      out ++ [normalized]
    else out) []

/-- What the application loop of `compileRule` accumulates. -/
structure AppLoop where
  applications : List String := []
  signals : List AppIDSignalIR := []
  services : List ServiceMatch

/-- The application loop of `compileRule`. The wildcard clears the names but keeps what
was gathered before it. -/
def compileApplications (c : Compilation) (rule : String) :
    AppLoop → List String → Except String AppLoop
  | s, [] => .ok s
  | s, ref :: refs =>
      if ref = Any then .ok { s with applications := [] }
      else
        match c.apps.lookup ref with
        | none => .error ("rule " ++ quote rule ++ ": unknown application " ++ quote ref)
        | some app =>
            let signals := supportedAppIDSignals app.engineSignals
            compileApplications c rule
              { applications := s.applications ++ [ref]
                signals := if signals.isEmpty then s.signals else s.signals ++ [⟨ref, signals⟩]
                services := s.services ++ applicationServiceMatches app } refs

/-- The security-profile loop of `compileRule`: the profiles that require inspection. -/
def compileSecurityProfiles (c : Compilation) (rule : String) (refs : List String) :
    Except String (List String) := do
  let required ← refs.mapM fun ref =>
    match c.securityProfiles.lookup ref with
    | none => .error ("rule " ++ quote rule ++ ": unknown security profile " ++ quote ref)
    | some profile => .ok (securityProfileRequiresInlineInspection profile)
  pure ((refs.zip required).filterMap fun r => if r.2 then some r.1 else none)

/-- `actionFromProto`: the action of a rule or a default. A default may be left open, and then
allows; a rule may not. -/
def actionFromProto (ctx : String) (action : Action) (allowUnspecified : Bool) :
    Except String RuleAction :=
  match action with
  | .unspecified =>
      if allowUnspecified then .ok .allow else .error (ctx ++ ": action unset")
  | .allow => .ok .allow
  | .deny => .ok .deny
  | .reject => .ok .reject
  | .unrecognized _ => .error (ctx ++ ": action unset")

/-- `compileRuleMatchContext`: the context is copied. -/
def compileRuleMatchContext : Option RuleMatchContext → RuleMatchContextIR
  | none => {}
  | some m => ⟨m.users, m.groups, m.devices, m.postureLabels⟩

/-- The QoS reference of a rule. -/
def compileQosRef (c : Compilation) (ref : String) : Except String String :=
  if ref ≠ "" ∧ (c.qosProfiles.lookup ref).isNone then
    .error ("unknown QoS profile " ++ quote ref)
  else .ok ref

/-- `compileRule`: one enabled rule, with every reference resolved. The errors name the rule. -/
def compileRule (c : Compilation) (r : Rule) : Except String RuleIR := do
  let inRule (e : String) : String := "rule " ++ quote r.name ++ ": " ++ e
  let fromIfaces ← (resolveIfaces c r.fromZones).mapError inRule
  let toIfaces ← (resolveIfaces c r.toZones).mapError inRule
  let srcPrefixes ← (resolvePrefixes c r.sourceAddresses).mapError inRule
  let dstPrefixes ← (resolvePrefixes c r.destinationAddresses).mapError inRule
  let services ← (resolveServices c r.services).mapError inRule
  let apps ← compileApplications c r.name { services } r.applications
  let profiles ← compileSecurityProfiles c r.name r.securityProfiles
  let qosProfile ← (compileQosRef c r.qosProfile).mapError inRule
  let action ← actionFromProto ("rule " ++ r.name) r.action false
  pure {
    id := r.id, name := r.name, log := r.log
    fromIfaces, toIfaces, srcPrefixes, dstPrefixes
    matchContext := compileRuleMatchContext r.matchContext
    applications := apps.applications
    appIDSignals := apps.signals
    services := apps.services
    appIDOnly := !r.applications.isEmpty && r.services.isEmpty && apps.services.isEmpty &&
      !apps.signals.isEmpty
    securityProfiles := profiles
    inspectionRequired := !profiles.isEmpty
    qosProfile
    action }

/-- `compileHostInputRule`: the same for a rule on traffic to the firewall itself, which has neither
applications nor destinations. -/
def compileHostInputRule (c : Compilation) (r : HostInputRule) : Except String RuleIR := do
  let inRule (e : String) : String := "host-input rule " ++ quote r.name ++ ": " ++ e
  let fromIfaces ← (resolveIfaces c r.fromZones).mapError inRule
  let srcPrefixes ← (resolvePrefixes c r.sourceAddresses).mapError inRule
  let services ← (resolveServices c r.services).mapError inRule
  let action ← actionFromProto ("host-input rule " ++ r.name) r.action false
  pure { id := r.id, name := r.name, log := r.log, fromIfaces, srcPrefixes, services, action }

/-! ### Address translation

A translation names one zone and single address objects. -/

/-- An address reference of a translation. -/
def natAddress (c : Compilation) (ctx ref : String) : Except String Prefix :=
  match c.addrs.lookup ref with
  | none => .error (ctx ++ ": unknown address " ++ quote ref)
  | some pfx => .ok pfx

/-- The source match of a source translation: none for an empty or wildcard
reference. -/
def snatSource (c : Compilation) (ctx : String) (sn : SourceNat) : Except String (Option Prefix) :=
  if sn.sourceAddress ≠ "" ∧ sn.sourceAddress ≠ Any then
    some <$> natAddress c ctx sn.sourceAddress
  else .ok none

/-- The target of a source translation: none when it masquerades. -/
def snatTarget (c : Compilation) (ctx : String) (sn : SourceNat) : Except String (Option Addr) :=
  if sn.masquerade then .ok none
  else (fun pfx => some pfx.addr) <$> natAddress c ctx sn.translatedAddress

/-- `compileSNAT`: a source translation, to the address of the interface or to a given one. -/
def compileSNAT (c : Compilation) (sn : SourceNat) : Except String SNATIR := do
  let ctx := "source-nat " ++ quote sn.name
  let outIfaces ← (resolveIfaces c [sn.toZone]).mapError fun e => ctx ++ ": " ++ e
  let srcPrefix ← snatSource c ctx sn
  let translateTo ← snatTarget c ctx sn
  pure { id := sn.id, name := sn.name, masquerade := sn.masquerade, outIfaces, srcPrefix,
         translateTo }

/-- The service of a destination translation. -/
def dnatService (c : Compilation) (ctx ref : String) : Except String ServiceMatch :=
  match c.svcs.lookup ref with
  | none => .error (ctx ++ ": unknown service " ++ quote ref)
  | some m => .ok m

/-- `compileDNAT`: a destination translation of one service of one address. -/
def compileDNAT (c : Compilation) (dn : DestinationNat) : Except String DNATIR := do
  let ctx := "destination-nat " ++ quote dn.name
  let inIfaces ← (resolveIfaces c [dn.fromZone]).mapError fun e => ctx ++ ": " ++ e
  let m ← dnatService c ctx dn.service
  let dst ← natAddress c ctx dn.destinationAddress
  let target ← natAddress c ctx dn.translatedAddress
  pure { id := dn.id, name := dn.name, toPort := uint16 dn.translatedPort, inIfaces,
         protocol := m.protocol, ports := m.ports, matchDst := dst.addr,
         translateTo := target.addr }

/-! ### Routes, IDS, network, proxy

The other sections do not look at the rules, but for the generated Suricata rules: these are made
from the compiled rules, and only where Suricata enforces them. -/

/-- `compileRoute`: a static route. -/
def compileRoute (sr : StaticRoute) : Except String RouteIR := do
  let err := "static route " ++ quote sr.destination ++ ": netip"
  let destination ← (parsePrefix sr.destination).elim (.error err) .ok
  let via ←
    if sr.via = "" then pure none
    else (parseAddr sr.via).elim (.error err) fun a => .ok (some a)
  pure { destination, via, interface := sr.interface, metric := sr.metric }

/-- `rfc1918`: the private networks, which are the home networks unless the policy names some. -/
def rfc1918 : List Prefix := ["10.0.0.0/8", "172.16.0.0/12", "192.168.0.0/16"].filterMap parsePrefix

/-- One active exception. -/
def compileIDSException (addrs : List (String × Prefix)) (ex : IdsException) :
    Except String IDSExceptionIR :=
  let ir : IDSExceptionIR :=
    { name := ex.name, signatureID := ex.signatureId, threatID := ex.threatId,
      description := ex.description, owner := ex.owner, ticketID := ex.ticketId,
      reviewDate := ex.reviewDate, expiresAt := ex.expiresAt, pcapSHA256 := ex.pcapSha256,
      regression := ex.regressionRef }
  let unknown (side ref : String) : String :=
    "ids exception " ++ quote ex.name ++ ": unknown " ++ side ++ " address " ++ quote ref
  if ex.sourceAddress ≠ "" then
    match addrs.lookup ex.sourceAddress with
    | none => .error (unknown "source" ex.sourceAddress)
    | some pfx => .ok { ir with track := "by_src", address := some pfx }
  else if ex.destinationAddress ≠ "" then
    match addrs.lookup ex.destinationAddress with
    | none => .error (unknown "destination" ex.destinationAddress)
    | some pfx => .ok { ir with track := "by_dst", address := some pfx }
  else .ok ir

/-- The interfaces to monitor: the configured ones, or those of all zones. -/
def idsInterfaces (p : Phragma.Policy) : List String :=
  if p.getIds.monitorInterfaces.isEmpty then p.zones.flatMap Zone.interfaces
  else p.getIds.monitorInterfaces

/-- `compileIDs`: the inspection section, if it is enabled. Nothing listens for prevention: packets
come from the queue. -/
def compileIDs (p : Phragma.Policy) (addrs : List (String × Prefix)) :
    Except String (Option IDsIR) :=
  let ids := p.getIds
  let prevent := ids.mode == .prevent
  if !ids.enabled then .ok none
  else if !prevent && (idsInterfaces p).isEmpty then
    .error "ids: detect mode needs zone interfaces or monitor_interfaces"
  else do
    let homeNets ← ids.homeNetworks.mapM fun hn =>
      (parsePrefix hn).elim (.error ("ids: invalid home network " ++ quote hn)) .ok
    let exceptions ← (ids.exceptions.filter fun ex => !ex.disabled).mapM (compileIDSException addrs)
    pure (some {
      prevent
      failOpen := prevent && ids.failureBehavior == .failOpen
      interfaces := idsInterfaces p
      homeNets := if homeNets.isEmpty then rfc1918 else homeNets
      ruleFiles := if ids.ruleFiles.isEmpty then ["local.rules"] else ids.ruleFiles
      exceptions
      queueNum := uint16 ids.queueNum })

/-- `appIDControlSIDBase`: the signature ids of application controls are above this one. -/
def appIDControlSIDBase : Nat := 4200000

/-- `securityProfileRuleSIDBase`: and those of profile rules above this one. -/
def securityProfileRuleSIDBase : Nat := 4300000

/-- Are generated Suricata rules enforced: prevent mode, failing closed? -/
def enforcedInline : Option IDsIR → Bool
  | none => false
  | some ids => ids.prevent && !ids.failOpen

/-- Number generated rules: the `i`-th gets the sid `base + i + 1`, in `uint32`. -/
def numberSIDs {α β : Type} (base : Nat) (mk : α → Nat → β) (items : List α) : List β :=
  items.zipIdx.map fun r => mk r.1 ((base + (r.2 + 1)) % 2 ^ 32)

/-- `compileAppIDControls`: one control for each signal of each application of a rule and each
service of the rule, whichever application the service is a hint of. -/
def compileAppIDControls (rules : List RuleIR) (ids : Option IDsIR) : List AppIDControlIR :=
  if !enforcedInline ids then []
  else
    let controls : List (Nat → AppIDControlIR) :=
      rules.flatMap fun rule =>
        if rule.action = .reject then []
        else
          rule.appIDSignals.flatMap fun app => app.signals.flatMap fun signal =>
            let services := if rule.services.isEmpty then [⟨.any, []⟩] else rule.services
            services.map fun service sid =>
              { ruleName := rule.name, ruleID := rule.id, application := app.application
                engineSignal := signal, action := rule.action, srcPrefixes := rule.srcPrefixes
                dstPrefixes := rule.dstPrefixes, service, sid }
    numberSIDs appIDControlSIDBase (fun mk sid => mk sid) controls

/-- `compileAppIDDrops`: the controls of deny rules. -/
def compileAppIDDrops (controls : List AppIDControlIR) : List AppIDDropIR :=
  controls.filterMap fun control =>
    if control.action = .deny then
      some ⟨control.ruleName, control.application, control.engineSignal, control.sid⟩
    else none

/-- `securityProfileControls`: control and protocol. -/
def securityProfileControls (profile : SecurityProfile) : List (String × String) :=
  (if profile.tlsInspection = .decryptionRequired then
    [("tls-inspection:decryption-required", "tls")] else []) ++
  (profile.urlCategories.map fun category => ("url-category:" ++ category, "http")) ++
  (if profile.dnsSecurity = .blockMalicious then
    [("dns-security:block-malicious", "dns")] else []) ++
  (match profile.fileSecurity with
    | .blockExecutables => [("file-security:block-executables", "http")]
    | .blockHighRisk => [("file-security:block-high-risk", "http")]
    | _ => [])

/-- `compileSecurityProfileRules`: one rule for each control of each profile of an allow rule that
requires inspection. -/
def compileSecurityProfileRules (rules : List RuleIR) (ids : Option IDsIR)
    (profiles : List (String × SecurityProfile)) : List SecurityProfileRuleIR :=
  if !enforcedInline ids then []
  else
    let controls : List (Nat → SecurityProfileRuleIR) :=
      rules.flatMap fun rule =>
        if rule.action ≠ .allow ∨ !rule.inspectionRequired then []
        else
          rule.securityProfiles.flatMap fun ref =>
            ((profiles.lookup ref).elim [] securityProfileControls).map fun control sid =>
              ⟨rule.name, ref, control.1, control.2, sid⟩
    numberSIDs securityProfileRuleSIDBase (fun mk sid => mk sid) controls

/-- `qosPriorityLabel`: a priority as a text. -/
def qosPriorityLabel : QosPriority → String
  | .low => "low"
  | .medium => "medium"
  | .high => "high"
  | .critical => "critical"
  | _ => "unspecified"

/-- `compileQoSControls`: the shaping of each rule that names a profile there is. -/
def compileQoSControls (rules : List RuleIR) (profiles : List (String × QosProfile)) :
    List QoSControlIR :=
  rules.filterMap fun rule =>
    if rule.qosProfile = "" then none
    else
      (profiles.lookup rule.qosProfile).map fun profile =>
        { ruleName := rule.name, ruleID := rule.id, profileName := rule.qosProfile
          maxBandwidthKbps := profile.maxBandwidthKbps
          guaranteedBandwidthKbps := profile.guaranteedBandwidthKbps
          priority := qosPriorityLabel profile.priority
          dscpMark := profile.dscpMark, burstKBytes := profile.burstKbytes }

/-- `zoneProtectionActionLabel`: what is done beyond a limit, as a text. -/
def zoneProtectionActionLabel : ZoneProtectionAction → String
  | .alert => "alert"
  | .drop => "drop"
  | _ => "unspecified"

/-- `compileZoneProtections`: the limits of each zone that names a profile there is. -/
def compileZoneProtections (zones : List ZoneIR)
    (profiles : List (String × ZoneProtectionProfile)) : List ZoneProtectionIR :=
  zones.filterMap fun zone =>
    if zone.zoneProtectionProfile = "" then none
    else
      (profiles.lookup zone.zoneProtectionProfile).map fun profile =>
        { zoneName := zone.name, interfaces := zone.interfaces
          profileName := zone.zoneProtectionProfile, enabled := profile.enabled
          synFloodPPS := profile.synFloodPps, udpFloodPPS := profile.udpFloodPps
          icmpFloodPPS := profile.icmpFloodPps
          maxConcurrentConnections := profile.maxConcurrentConnections
          action := zoneProtectionActionLabel profile.action, auditLog := profile.auditLog }

/-- Keep the first occurrence of every element (the `seen` loops). -/
def uniqueStrings (items : List String) : List String :=
  items.foldl (fun out item => if out.contains item then out else out ++ [item]) []

/-- `compileNetwork`: the settings of interfaces. A packet size for all zones gives each of their
interfaces a link; sizes of single interfaces take precedence, and add links of their own. -/
def compileNetwork (p : Phragma.Policy) (ids : Option IDsIR) : Option NetworkIR :=
  match p.network with
  | none => none
  | some net =>
      let zoneInterfaces := uniqueStrings (p.zones.flatMap Zone.interfaces)
      let override := tableOf InterfaceMtu.interface InterfaceMtu.mtu net.interfaceMtus
      let zoneLinks : List LinkIR :=
        if net.mtu = 0 then []
        else zoneInterfaces.map fun ifc => ⟨ifc, (override.lookup ifc).getD net.mtu⟩
      -- Overrides of interfaces outside the zones come last, the first entry of each.
      let links := net.interfaceMtus.foldl (fun (links : List LinkIR) im =>
        if links.any fun l => l.interface == im.interface then links
        else links ++ [⟨im.interface, im.mtu⟩]) zoneLinks
      let out : NetworkIR :=
        { links
          clampMSS := net.clampMssToPmtu
          maxMTU := links.foldl (fun m l => if m < l.mtu then l.mtu else m) 0
          offloadOffIfaces :=
            match ids with
            | some ids => if net.manageNicOffloads && !ids.prevent then ids.interfaces else []
            | none => []
          flowOffloadDevices :=
            if net.enableFlowOffload && ids.isNone then zoneInterfaces else [] }
      if out.links.isEmpty && !out.clampMSS && out.offloadOffIfaces.isEmpty &&
          out.flowOffloadDevices.isEmpty then none
      else some out

/-- `wafModeString`: the mode of the web application firewall, as a text. -/
def wafModeString : WafMode → String
  | .detect => "detect"
  | .block => "block"
  | _ => "unspecified"

/-- `compileProxy`: the proxy section, if there is anything in it. -/
def compileProxy (p : Phragma.Policy) : Option ProxyIR :=
  match p.proxy with
  | none => none
  | some proxy =>
      if proxy.virtualServices.isEmpty && proxy.wafPolicies.isEmpty then none
      else some {
        wafPolicies := proxy.wafPolicies.map fun waf =>
          { name := waf.name, mode := wafModeString waf.mode
            ruleSets := waf.ruleSets.map fun rs => ⟨rs.name, rs.version, rs.source, rs.sha256⟩
            requestBodyLimitKB := waf.requestBodyLimitKb, auditLogging := waf.auditLogging
            redactRequestBody := waf.redactRequestBody, description := waf.description }
        virtualServices := proxy.virtualServices.map fun vs =>
          { name := vs.name, enabled := vs.enabled, hostnames := vs.hostnames
            description := vs.description
            listener :=
              match vs.listener with
              | none => {}
              | some l => ⟨l.bindAddress, l.port, l.tls, l.tlsSecretRef⟩
            routes := vs.routes.map fun route =>
              { name := route.name, pathPrefix := route.pathPrefix
                backends := route.backends.map fun b => ⟨b.name, b.url, b.weight⟩
                wafPolicy := route.wafPolicy, requireMTLSToBackend := route.requireMtlsToBackend
                stripPrefix := route.stripPrefix } } }

/-- The threat-intel switch: any enabled feed or custom feed turns it on. -/
def compileIntel (p : Phragma.Policy) : Option IntelIR :=
  match p.intel with
  | none => none
  | some intel =>
      if !intel.customFeeds.isEmpty || intel.feeds.any FeedEnable.enabled then some ⟨true⟩
      else none

/-! ### The pass

The policy is normalized and validated first, and only one that passes is compiled. Every error
after that is one that the validator has let through. -/

/-- The host-input section. -/
def compileHostInput (c : Compilation) :
    Option HostInput → Except String (Option RuleAction × List RuleIR)
  | none => .ok (none, [])
  | some hi => do
      let action ← actionFromProto "host_input default_action" hi.defaultAction true
      let rules ← (hi.rules.filter fun r => !r.disabled).mapM (compileHostInputRule c)
      pure (some action, rules)

/-- The part of `Compile` after normalization and validation. -/
def compileValid (p : Phragma.Policy) : Except String IR := do
  let c ← newCompilation p
  let zones : List ZoneIR := p.zones.map fun z => ⟨z.name, z.interfaces, z.zoneProtectionProfile⟩
  let rules ← (p.rules.filter fun r => !r.disabled).mapM (compileRule c)
  let hostInput ← compileHostInput c p.hostInput
  let snat ← p.getNat.source.mapM (compileSNAT c)
  let dnat ← p.getNat.destination.mapM (compileDNAT c)
  let routes ← p.staticRoutes.mapM compileRoute
  let ids ← compileIDs p c.addrs
  let routing ← compileRouting p.getBgp p.getOspf
  let vpn ← compileVPN p.getVpn
  let controls := compileAppIDControls rules ids
  pure {
    zones, rules, snat, dnat, routes, ids, routing, vpn
    telemetry := compileTelemetry p.getTelemetry
    appIDControls := controls
    appIDDrops := compileAppIDDrops controls
    securityProfileRules := compileSecurityProfileRules rules ids c.securityProfiles
    qosControls := compileQoSControls rules c.qosProfiles
    zoneProtections := compileZoneProtections zones c.zoneProtections
    network := compileNetwork p ids
    proxy := compileProxy p
    intel := compileIntel p
    hostInputDefault := hostInput.1
    hostInputRules := hostInput.2 }

/-- `Compile`: the IR of a policy, or why there is none. -/
def Compile (H : IdentityHash) (p : Phragma.Policy) : Except String IR :=
  let p := normalizeIdentities H p
  match Validate p with
  | [] => compileValid p
  | err :: errs =>
      .error ("policy invalid: " ++ err ++ " (and " ++ decimal errs.length ++ " more)")

end Phragma.Compiler
