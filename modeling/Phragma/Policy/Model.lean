import Mathlib.Tactic.Common

/-!
# Phragma.Policy.Model

The declarative policy (`api/proto/openngfw/v1/policy.proto` and the messages it
embeds): one record per message, under the field names of the generated getters.

Two things of protobuf are kept. An enumeration is open: a field may hold any
number, so each enumeration has an `unrecognized` constructor besides its named
values. An absent sub-message (a nil pointer) is `none`, and the getters on it
return the empty message, as the generated code does.

Every section of the message is here, also those that only their own renderer reads.
-/

namespace Phragma.Policy

/-! ### Objects

Named things that rules refer to. Every message field has its proto3 default, and an optional
message is an `Option`. -/

/-- `Zone`: interfaces grouped into a security zone. -/
structure Zone where
  name : String := ""
  interfaces : List String := []
  description : String := ""
  zoneProtectionProfile : String := ""
  deriving DecidableEq, Repr

/-- `Address`: a named prefix in CIDR form. -/
structure Address where
  name : String := ""
  cidr : String := ""
  description : String := ""
  deriving DecidableEq, Repr

/-- `Protocol`: of a service or a port hint. An enumeration of proto3 is open, so there are
unrecognized values. -/
inductive Protocol
  | unspecified
  | tcp
  | udp
  | icmp
  | any
  | unrecognized (n : Int)
  deriving DecidableEq, Repr

/-- `PortRange`: a single port when `stop` is zero (the message's `end` field). -/
structure PortRange where
  start : Nat := 0
  stop : Nat := 0
  deriving DecidableEq, Repr

/-- `Service`: a named L4 matcher. -/
structure Service where
  name : String := ""
  protocol : Protocol := .unspecified
  ports : List PortRange := []
  description : String := ""
  deriving DecidableEq, Repr

/-- `ApplicationPort`: a protocol and port hint of an application. -/
structure ApplicationPort where
  protocol : Protocol := .unspecified
  ports : List PortRange := []
  deriving DecidableEq, Repr

/-- `Application`: an App-ID definition. -/
structure Application where
  name : String := ""
  displayName : String := ""
  category : String := ""
  engineSignals : List String := []
  ports : List ApplicationPort := []
  description : String := ""
  deriving DecidableEq, Repr

/-- `TlsInspectionMode`: what a profile asks of encrypted flows. -/
inductive TlsInspectionMode
  | unspecified
  | metadataOnly
  | decryptionRequired
  | bypass
  | unrecognized (n : Int)
  deriving DecidableEq, Repr

/-- `DnsSecurityMode`: what a profile asks of name lookups. -/
inductive DnsSecurityMode
  | unspecified
  | logOnly
  | blockMalicious
  | unrecognized (n : Int)
  deriving DecidableEq, Repr

/-- `FileSecurityMode`: what a profile asks of downloads. -/
inductive FileSecurityMode
  | unspecified
  | logOnly
  | blockExecutables
  | blockHighRisk
  | unrecognized (n : Int)
  deriving DecidableEq, Repr

/-- `SecurityProfile`: inspection intent attached to rules. -/
structure SecurityProfile where
  name : String := ""
  description : String := ""
  tlsInspection : TlsInspectionMode := .unspecified
  urlCategories : List String := []
  dnsSecurity : DnsSecurityMode := .unspecified
  fileSecurity : FileSecurityMode := .unspecified
  deriving DecidableEq, Repr

/-- `QosPriority`: how flows are ranked under load. -/
inductive QosPriority
  | unspecified
  | low
  | medium
  | high
  | critical
  | unrecognized (n : Int)
  deriving DecidableEq, Repr

/-- `QosProfile`: shaping intent attached to rules. -/
structure QosProfile where
  name : String := ""
  description : String := ""
  maxBandwidthKbps : Nat := 0
  guaranteedBandwidthKbps : Nat := 0
  priority : QosPriority := .unspecified
  dscpMark : Nat := 0
  burstKbytes : Nat := 0
  deriving DecidableEq, Repr

/-- `ZoneProtectionAction`: what happens beyond a limit of a zone. -/
inductive ZoneProtectionAction
  | unspecified
  | alert
  | drop
  | unrecognized (n : Int)
  deriving DecidableEq, Repr

/-- `ZoneProtectionProfile`: flood thresholds attached to zones. -/
structure ZoneProtectionProfile where
  name : String := ""
  description : String := ""
  enabled : Bool := false
  synFloodPps : Nat := 0
  udpFloodPps : Nat := 0
  icmpFloodPps : Nat := 0
  maxConcurrentConnections : Nat := 0
  action : ZoneProtectionAction := .unspecified
  auditLog : Bool := false
  deriving DecidableEq, Repr

/-! ### Rules

Rules refer to objects by their names. They are matched in order, and translations before or after
them. -/

/-- `Action`: of a rule or a default. -/
inductive Action
  | unspecified
  | allow
  | deny
  | reject
  | unrecognized (n : Int)
  deriving DecidableEq, Repr

/-- `RuleMatchContext`: identity and posture labels a rule is restricted to. -/
structure RuleMatchContext where
  users : List String := []
  groups : List String := []
  devices : List String := []
  postureLabels : List String := []
  deriving DecidableEq, Repr

/-- `Rule`: a forwarding rule; rules are evaluated in list order. -/
structure Rule where
  name : String := ""
  fromZones : List String := []
  toZones : List String := []
  sourceAddresses : List String := []
  destinationAddresses : List String := []
  services : List String := []
  action : Action := .unspecified
  log : Bool := false
  disabled : Bool := false
  description : String := ""
  applications : List String := []
  tags : List String := []
  securityProfiles : List String := []
  id : String := ""
  matchContext : Option RuleMatchContext := none
  qosProfile : String := ""
  deriving DecidableEq, Repr

/-- `HostInputRule`: a rule for traffic addressed to the firewall itself. -/
structure HostInputRule where
  name : String := ""
  fromZones : List String := []
  sourceAddresses : List String := []
  services : List String := []
  action : Action := .unspecified
  log : Bool := false
  disabled : Bool := false
  description : String := ""
  id : String := ""
  deriving DecidableEq, Repr

/-- `HostInput`: rules on traffic to the firewall itself, and what happens to the rest of it. -/
structure HostInput where
  defaultAction : Action := .unspecified
  rules : List HostInputRule := []
  deriving DecidableEq, Repr

/-- `SourceNat`: exactly one of `masquerade` and `translatedAddress`. -/
structure SourceNat where
  name : String := ""
  toZone : String := ""
  sourceAddress : String := ""
  masquerade : Bool := false
  translatedAddress : String := ""
  id : String := ""
  deriving DecidableEq, Repr

/-- `DestinationNat`; a zero `translatedPort` keeps the original port. -/
structure DestinationNat where
  name : String := ""
  fromZone : String := ""
  service : String := ""
  destinationAddress : String := ""
  translatedAddress : String := ""
  translatedPort : Nat := 0
  id : String := ""
  deriving DecidableEq, Repr

/-- The `Nat` message: source and destination translations. -/
structure NatRules where
  source : List SourceNat := []
  destination : List DestinationNat := []
  deriving DecidableEq, Repr

/-- `StaticRoute`: a destination, by a gateway, an interface or both. -/
structure StaticRoute where
  destination : String := ""
  via : String := ""
  interface : String := ""
  metric : Nat := 0
  deriving DecidableEq, Repr

/-! ### Engine sections

What the engines besides the packet filter are configured by. -/

/-- `IdsMode`: whether Suricata watches or stands in the way. -/
inductive IdsMode
  | unspecified
  | detect
  | prevent
  | unrecognized (n : Int)
  deriving DecidableEq, Repr

/-- `IdsFailureBehavior`: what becomes of packets when Suricata, standing in the way, is gone. -/
inductive IdsFailureBehavior
  | unspecified
  | failOpen
  | failClosed
  | unrecognized (n : Int)
  deriving DecidableEq, Repr

/-- `IdsException`: a false-positive suppression. -/
structure IdsException where
  name : String := ""
  disabled : Bool := false
  signatureId : Int := 0
  threatId : String := ""
  sourceAddress : String := ""
  destinationAddress : String := ""
  description : String := ""
  owner : String := ""
  ticketId : String := ""
  reviewDate : String := ""
  expiresAt : String := ""
  pcapSha256 : String := ""
  regressionRef : String := ""
  deriving DecidableEq, Repr

/-- `Ids`: intrusion detection and prevention. -/
structure Ids where
  enabled : Bool := false
  mode : IdsMode := .unspecified
  monitorInterfaces : List String := []
  homeNetworks : List String := []
  ruleFiles : List String := []
  queueNum : Nat := 0
  failureBehavior : IdsFailureBehavior := .unspecified
  exceptions : List IdsException := []
  deriving DecidableEq, Repr

/-- `FeedEnable`: a registry feed switched on or off. -/
structure FeedEnable where
  name : String := ""
  enabled : Bool := false
  deriving DecidableEq, Repr

/-- `CustomFeed`: an operator-defined feed. -/
structure CustomFeed where
  name : String := ""
  url : String := ""
  description : String := ""
  deriving DecidableEq, Repr

/-- `Intel`: the threat feeds that are blocked. -/
structure Intel where
  feeds : List FeedEnable := []
  customFeeds : List CustomFeed := []
  commercialUse : Bool := false
  refreshIntervalMinutes : Nat := 0
  deriving DecidableEq, Repr

/-- `TelemetryExportType`: how events are exported. -/
inductive TelemetryExportType
  | unspecified
  | jsonFile
  | jsonTcp
  | jsonUdp
  | unrecognized (n : Int)
  deriving DecidableEq, Repr

/-- `TelemetryExport`: an additional sink for events. -/
structure TelemetryExport where
  name : String := ""
  enabled : Bool := false
  type : TelemetryExportType := .unspecified
  target : String := ""
  deriving DecidableEq, Repr

/-- `Telemetry`: where events are stored and exported to. -/
structure Telemetry where
  enabled : Bool := false
  clickhouseUrl : String := ""
  database : String := ""
  exports : List TelemetryExport := []
  deriving DecidableEq, Repr

/-- `BgpNeighbor`: a peer of the BGP router. -/
structure BgpNeighbor where
  address : String := ""
  remoteAsn : Nat := 0
  description : String := ""
  deriving DecidableEq, Repr

/-- `Bgp`: the BGP router. -/
structure Bgp where
  enabled : Bool := false
  asn : Nat := 0
  routerId : String := ""
  neighbors : List BgpNeighbor := []
  announceNetworks : List String := []
  deriving DecidableEq, Repr

/-- `OspfArea`: an area with its networks. -/
structure OspfArea where
  area : String := ""
  networks : List String := []
  deriving DecidableEq, Repr

/-- `Ospf`: the OSPF router. -/
structure Ospf where
  enabled : Bool := false
  routerId : String := ""
  areas : List OspfArea := []
  deriving DecidableEq, Repr

/-- `Routing`: the dynamic routing protocols. -/
structure Routing where
  bgp : Option Bgp := none
  ospf : Option Ospf := none
  deriving DecidableEq, Repr

/-- `IpsecTunnel`: a tunnel between two gateways. -/
structure IpsecTunnel where
  name : String := ""
  localAddress : String := ""
  remoteAddress : String := ""
  localSubnets : List String := []
  remoteSubnets : List String := []
  pskFile : String := ""
  ikeProposal : String := ""
  espProposal : String := ""
  initiate : Bool := false
  deriving DecidableEq, Repr

/-- `WireguardPeer`: a peer of an interface, by its key. -/
structure WireguardPeer where
  name : String := ""
  publicKey : String := ""
  endpoint : String := ""
  allowedIps : List String := []
  persistentKeepalive : Nat := 0
  deriving DecidableEq, Repr

/-- `WireguardInterface`: an interface with its peers. -/
structure WireguardInterface where
  name : String := ""
  address : String := ""
  listenPort : Nat := 0
  privateKeyFile : String := ""
  peers : List WireguardPeer := []
  deriving DecidableEq, Repr

/-- `Vpn`: the tunnels of both kinds. -/
structure Vpn where
  ipsecTunnels : List IpsecTunnel := []
  wireguardInterfaces : List WireguardInterface := []
  deriving DecidableEq, Repr

/-- `InterfaceMtu`: the packet size of one interface. -/
structure InterfaceMtu where
  interface : String := ""
  mtu : Nat := 0
  deriving DecidableEq, Repr

/-- `Network`: the settings of interfaces and of forwarding. -/
structure Network where
  mtu : Nat := 0
  interfaceMtus : List InterfaceMtu := []
  clampMssToPmtu : Bool := false
  manageNicOffloads : Bool := false
  enableFlowOffload : Bool := false
  deriving DecidableEq, Repr

/-- `WafMode`: whether the web application firewall watches or blocks. -/
inductive WafMode
  | unspecified
  | detect
  | block
  | unrecognized (n : Int)
  deriving DecidableEq, Repr

/-- `WafRuleSet`: a set of rules, by name and digest. -/
structure WafRuleSet where
  name : String := ""
  version : String := ""
  source : String := ""
  sha256 : String := ""
  deriving DecidableEq, Repr

/-- `WafPolicy`: how requests are inspected. -/
structure WafPolicy where
  name : String := ""
  mode : WafMode := .unspecified
  ruleSets : List WafRuleSet := []
  requestBodyLimitKb : Nat := 0
  auditLogging : Bool := false
  redactRequestBody : Bool := false
  description : String := ""
  deriving DecidableEq, Repr

/-- `ProxyBackend`: a server that requests are passed to. -/
structure ProxyBackend where
  name : String := ""
  url : String := ""
  weight : Nat := 0
  deriving DecidableEq, Repr

/-- `ProxyRoute`: the requests below a path. -/
structure ProxyRoute where
  name : String := ""
  pathPrefix : String := ""
  backends : List ProxyBackend := []
  wafPolicy : String := ""
  requireMtlsToBackend : Bool := false
  stripPrefix : Bool := false
  deriving DecidableEq, Repr

/-- `ProxyListener`: where a virtual service listens. -/
structure ProxyListener where
  bindAddress : String := ""
  port : Nat := 0
  tls : Bool := false
  tlsSecretRef : String := ""
  deriving DecidableEq, Repr

/-- `VirtualService`: hosts with a listener and routes. -/
structure VirtualService where
  name : String := ""
  enabled : Bool := false
  hostnames : List String := []
  listener : Option ProxyListener := none
  routes : List ProxyRoute := []
  description : String := ""
  deriving DecidableEq, Repr

/-- `Proxy`: reverse-proxy and WAF intent. -/
structure Proxy where
  virtualServices : List VirtualService := []
  wafPolicies : List WafPolicy := []
  deriving DecidableEq, Repr

/-! ### The policy

One message with all sections. The accessors give an absent section its default, as the generated
ones do. -/

end Phragma.Policy

namespace Phragma

open Policy

/-- `Policy`: the complete declarative configuration of one node. -/
structure Policy where
  zones : List Zone := []
  addresses : List Address := []
  services : List Service := []
  rules : List Rule := []
  nat : Option NatRules := none
  staticRoutes : List StaticRoute := []
  ids : Option Ids := none
  telemetry : Option Telemetry := none
  routing : Option Routing := none
  vpn : Option Vpn := none
  intel : Option Intel := none
  network : Option Network := none
  hostInput : Option HostInput := none
  applications : List Application := []
  securityProfiles : List SecurityProfile := []
  proxy : Option Proxy := none
  qosProfiles : List QosProfile := []
  zoneProtectionProfiles : List ZoneProtectionProfile := []
  deriving DecidableEq, Repr

namespace Policy

/-- `policy.Any`, the reserved wildcard reference. -/
def Any : String := "any"

/-- `GetNat`: the empty message when absent. -/
def getNat (p : Phragma.Policy) : NatRules := p.nat.getD {}

/-- `GetIds`: the empty message when absent. -/
def getIds (p : Phragma.Policy) : Ids := p.ids.getD {}

/-- `GetNetwork`: the empty message when absent. -/
def getNetwork (p : Phragma.Policy) : Network := p.network.getD {}

/-- `GetTelemetry`: the empty message when absent. -/
def getTelemetry (p : Phragma.Policy) : Telemetry := p.telemetry.getD {}

/-- `GetRouting().GetBgp()`: the empty message when absent. -/
def getBgp (p : Phragma.Policy) : Bgp := (p.routing.bind Routing.bgp).getD {}

/-- `GetRouting().GetOspf()`: the empty message when absent. -/
def getOspf (p : Phragma.Policy) : Ospf := (p.routing.bind Routing.ospf).getD {}

/-- `GetVpn`: the empty message when absent. -/
def getVpn (p : Phragma.Policy) : Vpn := p.vpn.getD {}

end Policy

end Phragma
