import Phragma.Policy.ValidateRouting

/-!
# Phragma.Policy.Validate

The policy validator (`internal/policy/validate.go`, `validate_network.go`; the checks of
`validate_routing.go` are in `Phragma.Policy.ValidateRouting`).

`Validate` walks the sections of a policy and returns every problem it finds as a
message; no message means the policy is accepted. The first sections also fill the
maps of named objects that the later ones resolve references in (`Objects`).

The sections for telemetry, threat intel and proxy virtual services only add messages of
their own and are left out, so what is proved of every policy accepted here holds of every
policy accepted by the full validator.
-/

namespace Phragma.Policy

open Lib Go

/-! ### Collecting the objects

Every list of objects is walked once. The walk checks each object and its name, and enters it into
the table in which references are looked up later. -/

/-- The maps of the validator that later sections resolve references in. -/
structure Objects where
  zones : List String := []
  addresses : List (String × Address) := []
  services : List (String × Service) := []
  apps : List (String × Application) := []
  securityProfiles : List (String × SecurityProfile) := []
  qosProfiles : List (String × QosProfile) := []
  zoneProtections : List (String × ZoneProtectionProfile) := []

/-- State of `collectZones`: the zone set and the owner of every interface. -/
structure ZoneState where
  zones : List String := []
  ifaceOwner : List (String × String) := []

/-- One interface of a zone. -/
def ifaceStep (zone : String) (owner : List (String × String)) (ifc : String) :
    List String × List (String × String) :=
  if ifc = "" then (["zone " ++ quote zone ++ " has an empty interface name"], owner)
  else
    match owner.lookup ifc with
    | some other =>
        (["interface " ++ quote ifc ++ " is in both zone " ++ quote other ++ " and zone " ++
          quote zone], owner)
    | none => ([], (ifc, zone) :: owner)

/-- One zone. -/
def zoneStep : ZoneState → Zone → List String × ZoneState :=
  named "zone" Zone.name (fun s n => s.zones.contains n) fun s z =>
    let r := collect (ifaceStep z.name) s.ifaceOwner z.interfaces
    (r.1, ⟨z.name :: s.zones, r.2⟩)

/-- `collectZones`: besides its name every zone is checked for interfaces that another zone has. -/
def collectZones (zones : List Zone) : List String × ZoneState := collect zoneStep {} zones

/-- A loop that checks named objects and enters those worth keeping into a map. -/
def collectObjects {α : Type} (kind : String) (name : α → String) (check : α → List String)
    (keep : α → Bool) (objects : List α) : List String × List (String × α) :=
  collect
    (named kind name (fun (m : List (String × α)) n => (m.lookup n).isSome) fun m a =>
      (check a, if keep a then (name a, a) :: m else m))
    [] objects

/-- `collectAddresses`. An address whose CIDR does not parse is not entered. -/
def collectAddresses (addrs : List Address) : List String × List (String × Address) :=
  collectObjects "address" Address.name
    (fun a => errIf (parsePrefix a.cidr).isNone
      ("address " ++ quote a.name ++ ": invalid CIDR " ++ quote a.cidr ++
        " (host addresses need /32 or /128)"))
    (fun a => (parsePrefix a.cidr).isSome) addrs

/-- The generated names of `Protocol`. -/
def Protocol.string : Protocol → String
  | .unspecified => "PROTOCOL_UNSPECIFIED"
  | .tcp => "PROTOCOL_TCP"
  | .udp => "PROTOCOL_UDP"
  | .icmp => "PROTOCOL_ICMP"
  | .any => "PROTOCOL_ANY"
  | .unrecognized n => toString n

/-- The two checks of one port range, shared by services and applications. -/
def checkPortRange (ctx : String) (pr : PortRange) : List String :=
  errIf (pr.start == 0 || decide (65535 < pr.start))
      (ctx ++ ": port " ++ decimal pr.start ++ " out of range 1-65535") ++
    errIf (pr.stop != 0 && (decide (65535 < pr.stop) || decide (pr.stop < pr.start)))
      (ctx ++ ": invalid port range " ++ decimal pr.start ++ "-" ++ decimal pr.stop)

/-- The body of `collectServices`. -/
def checkService (s : Service) : List String :=
  let ctx := "service " ++ quote s.name
  match s.protocol with
  | .tcp | .udp => s.ports.flatMap (checkPortRange ctx)
  | .icmp | .any =>
      errIf (!s.ports.isEmpty) (ctx ++ ": protocol " ++ s.protocol.string ++ " cannot have ports")
  | _ => [ctx ++ ": protocol must be set"]

/-- `collectServices`: the services by name. -/
def collectServices (svcs : List Service) : List String × List (String × Service) :=
  collectObjects "service" Service.name checkService (fun _ => true) svcs

/-- `checkApplicationPort`: a port hint is for TCP or UDP and has ports. -/
def checkApplicationPort (ctx : String) (index : Nat) (port : ApplicationPort) : List String :=
  let portCtx := ctx ++ " port[" ++ decimal index ++ "]"
  match port.protocol with
  | .tcp | .udp =>
      if port.ports.isEmpty then [portCtx ++ ": at least one port range is required"]
      else port.ports.flatMap (checkPortRange portCtx)
  | _ => [portCtx ++ ": protocol must be TCP or UDP"]

/-- One engine signal of an application, against the signals seen before. -/
def signalStep (ctx : String) (seen : List String) (signal : String) :
    List String × List String :=
  let normalized := toLower (trimSpace signal)
  if normalized = "" then ([ctx ++ ": engine_signals cannot contain an empty value"], seen)
  else if !appSignalRE normalized.toList then
    ([ctx ++ ": engine_signal " ++ quote signal ++
      " is invalid (lowercase app label characters: letters, digits, '_', '.', '-')"], seen)
  else if seen.contains normalized then
    ([ctx ++ ": duplicate engine_signal " ++ quote normalized], seen)
  else ([], normalized :: seen)

/-- The body of `collectApplications`. -/
def checkApplication (app : Application) : List String :=
  let ctx := "application " ++ quote app.name
  (if app.category = "" then [ctx ++ ": category must be set"]
    else errIf (!nameRE app.category.toList)
      (ctx ++ ": category " ++ quote app.category ++
        " is invalid (lowercase alphanumeric, '-', '_', max 64 chars)")) ++
  errIf (app.engineSignals.isEmpty && app.ports.isEmpty)
    (ctx ++ ": at least one engine_signal or port hint is required") ++
  (collect (signalStep ctx) [] app.engineSignals).1 ++
  (app.ports.zipIdx.flatMap fun p => checkApplicationPort ctx p.2 p.1)

/-- `collectApplications`: the applications by name. -/
def collectApplications (apps : List Application) : List String × List (String × Application) :=
  collectObjects "application" Application.name checkApplication (fun _ => true) apps

/-- One URL category of a security profile. -/
def categoryStep (ctx : String) (seen : List String) (category : String) :
    List String × List String :=
  let normalized := trimSpace category
  if normalized = "" then ([ctx ++ ": url_categories cannot contain an empty value"], seen)
  else if normalized ≠ category then
    ([ctx ++ ": url category " ++ quote category ++
      " must not contain leading or trailing whitespace"], seen)
  else if !tagRE normalized.toList then
    ([ctx ++ ": url category " ++ quote category ++
      " is invalid (lowercase alphanumeric plus '-', '_', '.', ':', max 64 chars)"], seen)
  else if seen.contains normalized then
    ([ctx ++ ": duplicate url category " ++ quote normalized], seen)
  else ([], normalized :: seen)

/-- The body of `collectSecurityProfiles`. -/
def checkSecurityProfile (profile : SecurityProfile) : List String :=
  let ctx := "security profile " ++ quote profile.name
  errIf (profile.tlsInspection == .decryptionRequired && trimSpace profile.description == "")
    (ctx ++ ": decryption-required profiles need a description documenting operator intent and external certificate/broker prerequisites") ++
  (collect (categoryStep ctx) [] profile.urlCategories).1

/-- `collectSecurityProfiles`: the security profiles by name. -/
def collectSecurityProfiles (profiles : List SecurityProfile) :
    List String × List (String × SecurityProfile) :=
  collectObjects "security profile" SecurityProfile.name checkSecurityProfile (fun _ => true)
    profiles

/-- The body of `collectQoSProfiles`. -/
def checkQoSProfile (profile : QosProfile) : List String :=
  let ctx := "QoS profile " ++ quote profile.name
  let maxRate := profile.maxBandwidthKbps
  let guaranteed := profile.guaranteedBandwidthKbps
  errIf (maxRate == 0 && guaranteed == 0 && profile.dscpMark == 0)
    (ctx ++ ": at least one of max_bandwidth_kbps, guaranteed_bandwidth_kbps, or dscp_mark must be set") ++
  errIf (decide (maxQoSRateKbps < maxRate))
    (ctx ++ ": max_bandwidth_kbps " ++ decimal maxRate ++ " exceeds supported bound " ++
      decimal maxQoSRateKbps) ++
  errIf (decide (maxQoSRateKbps < guaranteed))
    (ctx ++ ": guaranteed_bandwidth_kbps " ++ decimal guaranteed ++ " exceeds supported bound " ++
      decimal maxQoSRateKbps) ++
  errIf (decide (0 < maxRate) && decide (maxRate < guaranteed))
    (ctx ++ ": guaranteed_bandwidth_kbps cannot exceed max_bandwidth_kbps") ++
  (match profile.priority with
    | .unrecognized _ => [ctx ++ ": priority is invalid"]
    | _ => []) ++
  errIf (decide (63 < profile.dscpMark))
    (ctx ++ ": dscp_mark " ++ decimal profile.dscpMark ++ " out of range 0-63") ++
  errIf (decide (maxQoSBurstKBytes < profile.burstKbytes))
    (ctx ++ ": burst_kbytes " ++ decimal profile.burstKbytes ++ " exceeds supported bound " ++
      decimal maxQoSBurstKBytes)

/-- `collectQoSProfiles`: the QoS profiles by name. -/
def collectQoSProfiles (profiles : List QosProfile) : List String × List (String × QosProfile) :=
  collectObjects "QoS profile" QosProfile.name checkQoSProfile (fun _ => true) profiles

/-- `checkZoneProtectionRate`: a rate has an upper bound. No rate is no limit. -/
def checkZoneProtectionRate (ctx field : String) (value : Nat) : List String :=
  errIf (decide (maxZoneProtectionRatePPS < value))
    (ctx ++ ": " ++ field ++ " " ++ decimal value ++ " exceeds supported bound " ++
      decimal maxZoneProtectionRatePPS)

/-- The body of `collectZoneProtectionProfiles`. -/
def checkZoneProtectionProfile (profile : ZoneProtectionProfile) : List String :=
  let ctx := "zone protection profile " ++ quote profile.name
  (if profile.enabled then
    errIf (profile.action != .alert && profile.action != .drop)
      (ctx ++ ": enabled profile requires action ALERT or DROP") ++
    errIf (profile.synFloodPps == 0 && profile.udpFloodPps == 0 && profile.icmpFloodPps == 0 &&
        profile.maxConcurrentConnections == 0)
      (ctx ++ ": enabled profile requires at least one flood or connection threshold")
  else []) ++
  checkZoneProtectionRate ctx "syn_flood_pps" profile.synFloodPps ++
  checkZoneProtectionRate ctx "udp_flood_pps" profile.udpFloodPps ++
  checkZoneProtectionRate ctx "icmp_flood_pps" profile.icmpFloodPps ++
  errIf (decide (maxZoneProtectionConnections < profile.maxConcurrentConnections))
    (ctx ++ ": max_concurrent_connections " ++ decimal profile.maxConcurrentConnections ++
      " exceeds supported bound " ++ decimal maxZoneProtectionConnections)

/-- `collectZoneProtectionProfiles`: the protection profiles by name. -/
def collectZoneProtectionProfiles (profiles : List ZoneProtectionProfile) :
    List String × List (String × ZoneProtectionProfile) :=
  collectObjects "zone protection profile" ZoneProtectionProfile.name checkZoneProtectionProfile
    (fun _ => true) profiles

/-- The object maps of a policy, with the messages of collecting them. -/
def collectAll (p : Phragma.Policy) : List String × Objects :=
  let zones := collectZones p.zones
  let addresses := collectAddresses p.addresses
  let services := collectServices p.services
  let apps := collectApplications p.applications
  let profiles := collectSecurityProfiles p.securityProfiles
  let qos := collectQoSProfiles p.qosProfiles
  let protections := collectZoneProtectionProfiles p.zoneProtectionProfiles
  (zones.1 ++ addresses.1 ++ services.1 ++ apps.1 ++ profiles.1 ++ qos.1 ++ protections.1,
    { zones := zones.2.zones, addresses := addresses.2, services := services.2, apps := apps.2,
      securityProfiles := profiles.2, qosProfiles := qos.2, zoneProtections := protections.2 })

/-! ### References

A reference is the wildcard or a name in the table of its kind. -/

/-- `checkZoneRefs`: zones, or the wildcard. -/
def checkZoneRefs (v : Objects) (ctx : String) (refs : List String) : List String :=
  refs.flatMap fun r =>
    errIf (r != Any && !v.zones.contains r) (ctx ++ " references unknown zone " ++ quote r)

/-- `checkAddressRefs`: addresses, or the wildcard. -/
def checkAddressRefs (v : Objects) (ctx : String) (refs : List String) : List String :=
  refs.flatMap fun r =>
    errIf (r != Any && (v.addresses.lookup r).isNone)
      (ctx ++ " references unknown address " ++ quote r)

/-- The service references of rules and host-input rules. -/
def checkServiceRefs (v : Objects) (ctx : String) (refs : List String) : List String :=
  refs.flatMap fun r =>
    errIf (r != Any && (v.services.lookup r).isNone)
      (ctx ++ " references unknown service " ++ quote r)

/-- The applications a rule names, wildcards and unknown names left out. -/
def referencedApplications (v : Objects) (refs : List String) : List Application :=
  refs.filterMap fun r => if r = Any then none else v.apps.lookup r

/-- The messages of `checkApplicationRefs`. -/
def checkApplicationRefs (v : Objects) (ctx : String) (refs : List String) : List String :=
  refs.flatMap fun r =>
    errIf (r != Any && (v.apps.lookup r).isNone)
      (ctx ++ " references unknown application " ++ quote r)

/-- One reference of `checkSecurityProfileRefs`; the state is the names seen and the
profiles resolved, both newest first. -/
def securityProfileRefStep (v : Objects) (ctx : String)
    (s : List String × List SecurityProfile) (r : String) :
    List String × List String × List SecurityProfile :=
  if r = "" then ([ctx ++ ": security profiles cannot contain an empty value"], s)
  else if r = Any then
    ([ctx ++ ": security profiles must name explicit profile objects, not " ++ quote Any], s)
  else if s.1.contains r then ([ctx ++ ": duplicate security profile " ++ quote r], s)
  else
    match v.securityProfiles.lookup r with
    | none => ([ctx ++ " references unknown security profile " ++ quote r], s)
    | some profile => ([], r :: s.1, profile :: s.2)

/-- `checkSecurityProfileRefs`: the messages, and the profiles resolved (in reverse). -/
def checkSecurityProfileRefs (v : Objects) (ctx : String) (refs : List String) :
    List String × List SecurityProfile :=
  let r := collect (securityProfileRefStep v ctx) ([], []) refs
  (errIf (decide (maxRuleSecurityProfiles < refs.length))
      (ctx ++ ": too many security profiles (" ++ decimal refs.length ++ " > " ++
        decimal maxRuleSecurityProfiles ++ ")") ++ r.1,
    r.2.2)

/-- `checkZoneProtectionRefs`: the profile a zone names, if it names one. There is no wildcard
here. -/
def checkZoneProtectionRefs (v : Objects) (zones : List Zone) : List String :=
  zones.flatMap fun zone =>
    let ref := trimSpace zone.zoneProtectionProfile
    if ref = "" then []
    else if ref ≠ zone.zoneProtectionProfile then
      ["zone " ++ quote zone.name ++ ": zone_protection_profile " ++
        quote zone.zoneProtectionProfile ++ " must not contain leading or trailing whitespace"]
    else errIf (v.zoneProtections.lookup ref).isNone
      ("zone " ++ quote zone.name ++ " references unknown zone protection profile " ++ quote ref)

/-! ### Rules

A rule is checked field by field, and every finding is reported. Some checks depend on whether
Suricata will be in the way, since rules that are left to it do nothing otherwise. -/

/-- `hasSpecificRefs`: does a list name anything, the wildcard apart? -/
def hasSpecificRefs (refs : List String) : Bool := refs.any fun r => r != "" && r != Any

/-- `hasSupportedAppIDSignal`: is there a signal that Suricata reports? -/
def hasSupportedAppIDSignal (signals : List String) : Bool :=
  signals.any fun s => ["dns", "http", "ssh", "tls"].contains (toLower (trimSpace s))

/-- `securityProfileRequiresInlineInspection`: does a profile ask for anything that only works with
Suricata in the way? -/
def securityProfileRequiresInlineInspection (profile : SecurityProfile) : Bool :=
  profile.tlsInspection == .decryptionRequired || !profile.urlCategories.isEmpty ||
    profile.dnsSecurity == .blockMalicious || profile.fileSecurity == .blockExecutables ||
    profile.fileSecurity == .blockHighRisk

/-- `idsPreventFailClosed`: does inspection stand in the way, and stay there when Suricata is
gone? -/
def idsPreventFailClosed (ids : Ids) : Bool :=
  ids.enabled && ids.mode == .prevent && ids.failureBehavior == .failClosed

/-- One value of a `match_context` list. -/
def contextValueStep (ctx field : String) (seen : List String) (value : String) :
    List String × List String :=
  let at_ := ctx ++ ": match_context." ++ field
  if value = "" then ([at_ ++ " cannot contain an empty value"], seen)
  else if value = Any then ([at_ ++ " must use explicit labels, not " ++ quote Any], seen)
  else if trimSpace value ≠ value then
    ([at_ ++ " value " ++ quote value ++ " must not contain leading or trailing whitespace"], seen)
  else if !contextRE value.toList then
    ([at_ ++ " value " ++ quote value ++
      " is invalid (lowercase label, email, or provider-scoped id, max 128 chars)"], seen)
  else if seen.contains value then
    ([ctx ++ ": duplicate match_context." ++ field ++ " value " ++ quote value], seen)
  else ([], value :: seen)

/-- `checkRuleContextList`: not too many values, each well formed and different from the others. -/
def checkRuleContextList (ctx field : String) (values : List String) : List String :=
  errIf (decide (maxRuleContextValues < values.length))
    (ctx ++ ": match_context." ++ field ++ " has too many values (" ++ decimal values.length ++
      " > " ++ decimal maxRuleContextValues ++ ")") ++
  (collect (contextValueStep ctx field) [] values).1

/-- `checkRuleMatchContext`: a context that is there has to say something. -/
def checkRuleMatchContext (ctx : String) : Option RuleMatchContext → List String
  | none => []
  | some m =>
      if m.users.isEmpty && m.groups.isEmpty && m.devices.isEmpty && m.postureLabels.isEmpty then
        [ctx ++ ": match_context must contain at least one user, group, device, or posture label"]
      else
        checkRuleContextList ctx "users" m.users ++ checkRuleContextList ctx "groups" m.groups ++
          checkRuleContextList ctx "devices" m.devices ++
          checkRuleContextList ctx "posture_labels" m.postureLabels

/-- One tag of a rule. -/
def tagStep (ctx : String) (seen : List String) (tag : String) : List String × List String :=
  if tag = "" then ([ctx ++ ": tags cannot contain an empty value"], seen)
  else if trimSpace tag ≠ tag then
    ([ctx ++ ": tag " ++ quote tag ++ " must not contain leading or trailing whitespace"], seen)
  else if !tagRE tag.toList then
    ([ctx ++ ": tag " ++ quote tag ++
      " is invalid (lowercase alphanumeric plus '-', '_', '.', ':', max 64 chars)"], seen)
  else if seen.contains tag then ([ctx ++ ": duplicate tag " ++ quote tag], seen)
  else ([], tag :: seen)

/-- `checkRuleTags`: not too many tags, each well formed and different from the others. -/
def checkRuleTags (ctx : String) (tags : List String) : List String :=
  errIf (decide (maxRuleTags < tags.length))
    (ctx ++ ": too many tags (" ++ decimal tags.length ++ " > " ++ decimal maxRuleTags ++ ")") ++
  (collect (tagStep ctx) [] tags).1

/-- The identity check of a rule, against the ids of earlier rules. -/
def checkRuleID (ctx : String) (seenIDs : List (String × String)) (r : Rule) :
    List String × List (String × String) :=
  if r.id = "" then
    ([ctx ++ ": id is required; server-side rule identity normalization must run before validation"],
      seenIDs)
  else if trimSpace r.id ≠ r.id then
    ([ctx ++ ": id " ++ quote r.id ++ " must not contain leading or trailing whitespace"], seenIDs)
  else if !ValidRuleID r.id then
    ([ctx ++ ": id " ++ quote r.id ++
      " is invalid (lowercase alphanumeric plus '-', '_', '.', ':', max 128 chars)"], seenIDs)
  else
    match seenIDs.lookup r.id with
    | some other =>
        ([ctx ++ ": duplicate rule id " ++ quote r.id ++ " also used by rule " ++ quote other],
          seenIDs)
    | none => ([], (r.id, r.name) :: seenIDs)

/-- The `qos_profile` reference of a rule. -/
def checkQosRef (v : Objects) (ctx : String) (r : Rule) : List String :=
  let ref := trimSpace r.qosProfile
  if ref = "" then []
  else if ref ≠ r.qosProfile then
    [ctx ++ ": qos_profile " ++ quote r.qosProfile ++
      " must not contain leading or trailing whitespace"]
  else if ref = Any then
    [ctx ++ ": qos_profile must name an explicit QoS profile, not " ++ quote Any]
  else errIf (v.qosProfiles.lookup ref).isNone
    (ctx ++ " references unknown QoS profile " ++ quote ref)

/-- What a rule with a signal-only application must satisfy. -/
def checkSignalOnly (ctx : String) (ids : Ids) (r : Rule) (app : Application) : List String :=
  if app.ports.isEmpty then
    errIf (r.action == .allow)
      (ctx ++ ": signal-only App-ID allow requires TCP/UDP port hints so nftables can preserve a bounded forwarding path") ++
    errIf (!idsPreventFailClosed ids)
      (ctx ++ ": application " ++ quote app.name ++
        " has no TCP/UDP port hints; engine-signal-only App-ID enforcement requires ids enabled with mode IDS_MODE_PREVENT and failure_behavior IDS_FAILURE_BEHAVIOR_FAIL_CLOSED") ++
    errIf (!hasSupportedAppIDSignal app.engineSignals)
      (ctx ++ ": application " ++ quote app.name ++
        " has no supported Suricata App-ID engine_signal (supported: dns, http, ssh, tls)") ++
    errIf (hasSpecificRefs r.fromZones || hasSpecificRefs r.toZones)
      (ctx ++ ": signal-only App-ID rules cannot be scoped only by From/To zones because the current Suricata control path cannot enforce interface zones; add TCP/UDP port hints or use Source/Destination address scope")
  else []

/-- The application dimension of a rule. -/
def checkRuleApplications (v : Objects) (ctx : String) (ids : Ids) (r : Rule) : List String :=
  if hasSpecificRefs r.applications then
    errIf (hasSpecificRefs r.services)
      (ctx ++ ": services and applications cannot be combined in the current v1 renderer; application objects supply the enforced TCP/UDP port hints") ++
    (referencedApplications v r.applications).flatMap (checkSignalOnly ctx ids r)
  else []

/-- State of `checkRules`: names and ids seen. -/
structure RuleState where
  seen : List String := []
  seenIDs : List (String × String) := []

/-- The body of `checkRules`. -/
def checkRule (v : Objects) (ids : Ids) (s : RuleState) (r : Rule) : List String × RuleState :=
  let ctx := "rule " ++ quote r.name
  let idCheck := checkRuleID ctx s.seenIDs r
  let profiles := checkSecurityProfileRefs v ctx r.securityProfiles
  (idCheck.1 ++
    errIf (r.action == .unspecified) (ctx ++ ": action must be set") ++
    checkZoneRefs v ctx r.fromZones ++ checkZoneRefs v ctx r.toZones ++
    checkAddressRefs v ctx r.sourceAddresses ++ checkAddressRefs v ctx r.destinationAddresses ++
    checkServiceRefs v ctx r.services ++ checkApplicationRefs v ctx r.applications ++
    profiles.1 ++ checkQosRef v ctx r ++
    errIf (r.action == .allow && profiles.2.any securityProfileRequiresInlineInspection &&
        !idsPreventFailClosed ids)
      (ctx ++ ": blocking security profiles on ACTION_ALLOW rules require ids enabled with mode IDS_MODE_PREVENT and failure_behavior IDS_FAILURE_BEHAVIOR_FAIL_CLOSED") ++
    checkRuleApplications v ctx ids r ++ checkRuleMatchContext ctx r.matchContext ++
    checkRuleTags ctx r.tags,
    ⟨r.name :: s.seen, idCheck.2⟩)

/-- `checkRules`: every rule, and their names. -/
def checkRules (v : Objects) (ids : Ids) (rules : List Rule) : List String :=
  (collect (named "rule" Rule.name (fun s n => s.seen.contains n) (checkRule v ids)) {} rules).1

/-! ### Host input and address translation

Rules on traffic to the firewall are checked as rules are. A policy that denies by default has to
allow something, so that the firewall can still be managed. -/

/-- `hasActiveHostInputAllow`: is there an allow rule that is not disabled? Where it stands is not
looked at. -/
def hasActiveHostInputAllow (rules : List HostInputRule) : Bool :=
  rules.any fun r => !r.disabled && r.action == .allow

/-- The body of `checkHostInput`'s loop. -/
def checkHostInputRule (v : Objects) (r : HostInputRule) : List String :=
  let ctx := "host-input rule " ++ quote r.name
  errIf (r.action == .unspecified) (ctx ++ ": action must be set") ++
    checkZoneRefs v ctx r.fromZones ++ checkAddressRefs v ctx r.sourceAddresses ++
    checkServiceRefs v ctx r.services

/-- `checkHostInput`: the default action and every rule. -/
def checkHostInput (v : Objects) : Option HostInput → List String
  | none => []
  | some hi =>
      errIf (hi.defaultAction != .unspecified && hi.defaultAction != .allow &&
          hi.defaultAction != .deny)
        "host_input: default_action must be ACTION_ALLOW or ACTION_DENY" ++
      errIf (hi.defaultAction == .deny && !hasActiveHostInputAllow hi.rules)
        "host_input: default_action ACTION_DENY requires at least one enabled ACTION_ALLOW host-input rule to prevent management lockout" ++
      checkEach "host-input rule" HostInputRule.name (checkHostInputRule v) hi.rules

/-- `hostAddress`: does a reference name a single-host address object? -/
def hostAddress (v : Objects) (ref : String) : Bool :=
  match v.addresses.lookup ref with
  | none => false
  | some a => ((parsePrefix a.cidr).map Prefix.isSingleIP).getD false

/-- A zone field of a translation: set, and the wildcard or a known zone. -/
def checkNatZone (v : Objects) (ctx field zone : String) : List String :=
  errIf (zone == "" || (zone != Any && !v.zones.contains zone))
    (ctx ++ ": " ++ field ++ " " ++ quote zone ++ " is not a known zone")

/-- The source part of `checkNat`. -/
def checkSourceNat (v : Objects) (sn : SourceNat) : List String :=
  let ctx := "source-nat " ++ quote sn.name
  checkNatZone v ctx "to_zone" sn.toZone ++
  (if sn.sourceAddress ≠ "" then checkAddressRefs v ctx [sn.sourceAddress] else []) ++
  (if sn.masquerade && sn.translatedAddress != "" then
    [ctx ++ ": masquerade and translated_address are mutually exclusive"]
  else if !sn.masquerade && sn.translatedAddress == "" then
    [ctx ++ ": one of masquerade or translated_address is required"]
  else errIf (sn.translatedAddress != "" && !hostAddress v sn.translatedAddress)
    (ctx ++ ": translated_address " ++ quote sn.translatedAddress ++
      " must be a /32 or /128 address object"))

/-- The destination part of `checkNat`. -/
def checkDestinationNat (v : Objects) (dn : DestinationNat) : List String :=
  let ctx := "destination-nat " ++ quote dn.name
  checkNatZone v ctx "from_zone" dn.fromZone ++
  (match v.services.lookup dn.service with
    | none => [ctx ++ ": service " ++ quote dn.service ++ " is not a known service"]
    | some svc => errIf (svc.protocol != .tcp && svc.protocol != .udp)
        (ctx ++ ": service " ++ quote dn.service ++ " must be TCP or UDP")) ++
  errIf (!hostAddress v dn.destinationAddress)
    (ctx ++ ": destination_address " ++ quote dn.destinationAddress ++
      " must be a /32 or /128 address object") ++
  errIf (!hostAddress v dn.translatedAddress)
    (ctx ++ ": translated_address " ++ quote dn.translatedAddress ++
      " must be a /32 or /128 address object") ++
  errIf (decide (65535 < dn.translatedPort))
    (ctx ++ ": translated_port " ++ decimal dn.translatedPort ++ " out of range")

/-- `checkNat`: both lists of translations, each with names of its own. -/
def checkNat (v : Objects) (nat : NatRules) : List String :=
  checkEach "source-nat" SourceNat.name (checkSourceNat v) nat.source ++
  checkEach "destination-nat" DestinationNat.name (checkDestinationNat v) nat.destination

/-! ### Routes, IDS, network -/

/-- `checkRoutes`: every static route, which errors name by its position. -/
def checkRoutes (routes : List StaticRoute) : List String :=
  routes.zipIdx.flatMap fun (r, i) =>
    let ctx := "static route #" ++ decimal (i + 1) ++ " (" ++ r.destination ++ ")"
    errIf (parsePrefix r.destination).isNone (ctx ++ ": invalid destination CIDR") ++
    errIf (r.via == "" && r.interface == "") (ctx ++ ": one of via or interface is required") ++
    errIf (r.via != "" && (parseAddr r.via).isNone)
      (ctx ++ ": invalid via address " ++ quote r.via)

/-- `checkIDSExceptionMetadata`. Lengths are in bytes. -/
def checkIDSExceptionMetadata (ctx : String) (e : IdsException) : List String :=
  errIf (decide (80 < e.owner.utf8ByteSize)) (ctx ++ ": owner must be at most 80 characters") ++
  errIf (decide (80 < e.ticketId.utf8ByteSize))
    (ctx ++ ": ticket_id must be at most 80 characters") ++
  errIf (decide (160 < e.regressionRef.utf8ByteSize))
    (ctx ++ ": regression_ref must be at most 160 characters") ++
  errIf (e.reviewDate != "" && !isDate e.reviewDate)
    (ctx ++ ": review_date must use YYYY-MM-DD") ++
  errIf (e.expiresAt != "" && !isDate e.expiresAt) (ctx ++ ": expires_at must use YYYY-MM-DD") ++
  errIf (e.pcapSha256 != "" && !sha256RE e.pcapSha256.toList)
    (ctx ++ ": pcap_sha256 must be a 64-character hex SHA-256")

/-- `addressCIDROrRef`: what an address name stands for, or the text itself. -/
def addressCIDROrRef (v : Objects) (ref : String) : String :=
  match v.addresses.lookup ref with
  | some addr => addr.cidr
  | none => ref

/-- `idsExceptionScopeKey`: what an exception is limited to. Two exceptions of one signature must
not have the same. -/
def idsExceptionScopeKey (v : Objects) (e : IdsException) : String :=
  if e.sourceAddress ≠ "" then "src:" ++ addressCIDROrRef v e.sourceAddress
  else if e.destinationAddress ≠ "" then "dst:" ++ addressCIDROrRef v e.destinationAddress
  else "global"

/-- State of `checkIDSExceptions`: names seen, and the active exception of every
signature and scope. -/
structure ExceptionState where
  seen : List String := []
  activeScopes : List (String × String) := []

/-- The body of `checkIDSExceptions`. -/
def checkIDSException (v : Objects) (s : ExceptionState) (e : IdsException) :
    List String × ExceptionState :=
  let ctx := "ids exception " ++ quote e.name
  let seen := e.name :: s.seen
  if e.disabled then (checkIDSExceptionMetadata ctx e, { s with seen })
  else
    let semanticKey := toString e.signatureId ++ "/" ++ idsExceptionScopeKey v e
    let errs := checkIDSExceptionMetadata ctx e ++
      errIf (decide (e.signatureId ≤ 0))
        (ctx ++ ": signature_id must be set to a positive Suricata SID") ++
      errIf (e.threatId != "" && !threatIDRE e.threatId.toList)
        (ctx ++ ": threat_id " ++ quote e.threatId ++
          " is invalid (lowercase alphanumeric plus '.', ':', '-', '_', max 128 chars)") ++
      errIf (e.sourceAddress != "" && e.destinationAddress != "")
        (ctx ++ ": source_address and destination_address are mutually exclusive") ++
      (if e.sourceAddress ≠ "" then checkAddressRefs v ctx [e.sourceAddress] else []) ++
      (if e.destinationAddress ≠ "" then checkAddressRefs v ctx [e.destinationAddress] else [])
    match s.activeScopes.lookup semanticKey with
    | some other =>
        (errs ++ [ctx ++ " duplicates active ids exception " ++ quote other ++
          " for signature_id and scope"], { s with seen })
    | none => (errs, ⟨seen, (semanticKey, e.name) :: s.activeScopes⟩)

/-- `checkIDSExceptions`: the names of all exceptions, and the rest of those that are not
disabled. -/
def checkIDSExceptions (v : Objects) (exceptions : List IdsException) : List String :=
  (collect (named "ids exception" IdsException.name (fun s n => s.seen.contains n)
    (checkIDSException v)) {} exceptions).1

/-- The failure-behavior part of `checkIDs`. -/
def checkFailureBehavior (ids : Ids) : List String :=
  match ids.failureBehavior with
  | .unspecified => errIf (ids.mode == .prevent)
      "ids: failure_behavior must be set to FAIL_OPEN or FAIL_CLOSED when prevent mode is enabled"
  | .failOpen | .failClosed => errIf (ids.mode != .prevent)
      "ids: failure_behavior applies only when mode is IDS_MODE_PREVENT"
  | .unrecognized n => ["ids: unknown failure_behavior " ++ toString n]

/-- `checkIDs`: the inspection section. Of one that is not enabled only the exceptions are
checked. -/
def checkIDs (v : Objects) (ids : Ids) : List String :=
  if !ids.enabled then checkIDSExceptions v ids.exceptions
  else
    errIf (ids.mode == .unspecified) "ids: mode must be set when enabled" ++
    checkFailureBehavior ids ++
    (ids.homeNetworks.flatMap fun hn =>
      errIf (parsePrefix hn).isNone ("ids: invalid home network CIDR " ++ quote hn)) ++
    (ids.ruleFiles.flatMap fun rf =>
      errIf (rf == "" || decide (Contains rf "..") || hasPrefixList rf.toList ['/'])
        ("ids: rule file " ++ quote rf ++ " must be a relative path inside the rules directory")) ++
    errIf (decide (65535 < ids.queueNum))
      ("ids: queue_num " ++ decimal ids.queueNum ++ " out of range") ++
    checkIDSExceptions v ids.exceptions

/-- One entry of `interface_mtus`. -/
def interfaceMtuStep (seen : List String) (im : InterfaceMtu) : List String × List String :=
  if im.interface = "" then (["network: interface_mtus entry with empty interface"], seen)
  else if seen.contains im.interface then
    (["network: duplicate interface_mtus entry for " ++ quote im.interface], seen)
  else
    (errIf (decide (im.mtu < minMTU) || decide (maxMTU < im.mtu))
      ("network: interface " ++ quote im.interface ++ " mtu " ++ decimal im.mtu ++
        " out of range " ++ decimal minMTU ++ "-" ++ decimal maxMTU),
      im.interface :: seen)

/-- `checkNetwork`: packet sizes within bounds, on interfaces that are given once. -/
def checkNetwork (p : Phragma.Policy) : Option Network → List String
  | none => []
  | some n =>
      errIf (n.mtu != 0 && (decide (n.mtu < minMTU) || decide (maxMTU < n.mtu)))
        ("network: mtu " ++ decimal n.mtu ++ " out of range " ++ decimal minMTU ++ "-" ++
          decimal maxMTU) ++
      (collect interfaceMtuStep [] n.interfaceMtus).1 ++
      (if n.enableFlowOffload then
        errIf p.getIds.enabled
          "network: enable_flow_offload cannot be used with IDS/IPS enabled because offloaded flows can bypass inspection" ++
        errIf (p.zones.all fun z => z.interfaces.isEmpty)
          "network: enable_flow_offload requires at least one zone interface"
      else [])

/-! ### WAF policies

The part of the proxy section that the validator knows. -/

/-- One rule set of a WAF policy. -/
def checkWAFRuleSet (ctx : String) (i : Nat) (rs : WafRuleSet) : List String :=
  let rsCtx := ctx ++ " rule_set[" ++ decimal i ++ "]"
  match checkName rsCtx rs.name with
  | [] =>
      errIf (trimSpace rs.version == "") (rsCtx ++ ": version is required for provenance") ++
      errIf (trimSpace rs.source == "") (rsCtx ++ ": source is required for provenance") ++
      errIf (!sha256RE (trimSpace rs.sha256).toList)
        (rsCtx ++ ": sha256 must be a 64-character hex digest")
  | errs => errs

/-- `checkWAFPolicy`: a mode, rule sets with digests, and a bound on what is inspected. -/
def checkWAFPolicy (waf : WafPolicy) : List String :=
  let ctx := "WAF policy " ++ quote waf.name
  errIf (waf.mode != .detect && waf.mode != .block) (ctx ++ ": mode must be detect or block") ++
  errIf waf.ruleSets.isEmpty (ctx ++ ": at least one rule_set is required") ++
  (waf.ruleSets.zipIdx.flatMap fun r => checkWAFRuleSet ctx r.2 r.1) ++
  errIf (waf.requestBodyLimitKb == 0 || decide (maxWAFRequestBodyKB < waf.requestBodyLimitKb))
    (ctx ++ ": request_body_limit_kb must be between 1 and " ++ decimal maxWAFRequestBodyKB) ++
  errIf (!waf.redactRequestBody)
    (ctx ++ ": redact_request_body must be true until request-body privacy custody is configured")

/-- The WAF part of `checkProxy`. -/
def checkProxy : Option Proxy → List String
  | none => []
  | some proxy => checkEach "WAF policy" WafPolicy.name checkWAFPolicy proxy.wafPolicies

/-! ### The validator

The findings of all sections, in the order in which the source reports them. -/

/-- `Validate`: everything that is wrong with a policy. It is accepted if that is nothing. -/
def Validate (p : Phragma.Policy) : List String :=
  let objects := collectAll p
  let v := objects.2
  objects.1 ++ checkZoneProtectionRefs v p.zones ++ checkRules v p.getIds p.rules ++
    checkNat v p.getNat ++ checkRoutes p.staticRoutes ++ checkIDs v p.getIds ++
    checkRouting p.getBgp p.getOspf ++ checkVPN p.getVpn ++ checkNetwork p p.network ++ checkHostInput v p.hostInput ++ checkProxy p.proxy

example : Validate { zones := [{ name := "lan", interfaces := ["eth0"] }] } = [] := by decide

end Phragma.Policy
