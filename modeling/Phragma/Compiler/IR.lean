import Phragma.Go.Netip

/-!
# Phragma.Compiler.IR

The engine-neutral intermediate representation (`internal/compiler/ir.go`): the fully
resolved form of a policy, in which every name is expanded, disabled rules are dropped
and a wildcard is an **empty list**.

That encoding is the one thing to keep in mind about this type: an empty interface or
prefix list means "any", whichever way it came to be empty.
-/

namespace Phragma.Compiler

open Go

/-- `RuleAction`: what is done with a flow that a rule matches. A reject is a deny that answers. -/
inductive RuleAction
  | allow
  | deny
  | reject
  deriving DecidableEq, Repr

/-- `Proto`: the transport a service is about. `any` is every one, ports or not. -/
inductive Proto
  | tcp
  | udp
  | icmp
  | any
  deriving DecidableEq, Repr

/-- `PortRange`: inclusive, with `start = stop` for a single port. -/
structure PortRange where
  start : Nat
  stop : Nat
  deriving DecidableEq, Repr

/-- `ServiceMatch`: no ports means every port. -/
structure ServiceMatch where
  protocol : Proto
  ports : List PortRange := []
  deriving DecidableEq, Repr

/-- `ZoneIR`: a zone with the interfaces it stands for, and the name of its protection profile, if
it has one. -/
structure ZoneIR where
  name : String
  interfaces : List String
  zoneProtectionProfile : String
  deriving DecidableEq, Repr

/-- `AppIDSignalIR`: what Suricata can see of an application, the engine signals that are
supported. -/
structure AppIDSignalIR where
  application : String
  signals : List String
  deriving DecidableEq, Repr

/-- `RuleMatchContextIR`: who a rule is about. The packet filter cannot tell, so this is carried
along and shown, not enforced. -/
structure RuleMatchContextIR where
  users : List String := []
  groups : List String := []
  devices : List String := []
  postureLabels : List String := []
  deriving DecidableEq, Repr

/-- `RuleIR`: empty lists mean "match any". -/
structure RuleIR where
  id : String
  name : String
  fromIfaces : List String := []
  toIfaces : List String := []
  srcPrefixes : List Prefix := []
  dstPrefixes : List Prefix := []
  matchContext : RuleMatchContextIR := {}
  applications : List String := []
  appIDSignals : List AppIDSignalIR := []
  appIDOnly : Bool := false
  securityProfiles : List String := []
  inspectionRequired : Bool := false
  qosProfile : String := ""
  services : List ServiceMatch := []
  action : RuleAction
  log : Bool := false
  deriving DecidableEq, Repr

/-- `AppIDControlIR`: one generated Suricata rule on a flow that is let through by the packet
filter: the action, for one signal of one application, between the prefixes and on the service of
its rule. -/
structure AppIDControlIR where
  ruleName : String
  ruleID : String
  application : String
  engineSignal : String
  action : RuleAction
  srcPrefixes : List Prefix
  dstPrefixes : List Prefix
  service : ServiceMatch
  sid : Nat
  deriving DecidableEq, Repr

/-- `AppIDDropIR`: the controls that drop, as they are counted and reported. -/
structure AppIDDropIR where
  ruleName : String
  application : String
  engineSignal : String
  sid : Nat
  deriving DecidableEq, Repr

/-- `SecurityProfileRuleIR`: one generated Suricata rule for one control of a security profile. -/
structure SecurityProfileRuleIR where
  ruleName : String
  profileName : String
  control : String
  protocol : String
  sid : Nat
  deriving DecidableEq, Repr

/-- `QoSControlIR`: the shaping that a rule asks for, with the numbers of its profile. -/
structure QoSControlIR where
  ruleName : String
  ruleID : String
  profileName : String
  maxBandwidthKbps : Nat
  guaranteedBandwidthKbps : Nat
  priority : String
  dscpMark : Nat
  burstKBytes : Nat
  deriving DecidableEq, Repr

/-- `ZoneProtectionIR`: the limits of a zone's protection profile on the zone's interfaces. -/
structure ZoneProtectionIR where
  zoneName : String
  interfaces : List String
  profileName : String
  enabled : Bool
  synFloodPPS : Nat
  udpFloodPPS : Nat
  icmpFloodPPS : Nat
  maxConcurrentConnections : Nat
  action : String
  auditLog : Bool
  deriving DecidableEq, Repr

/-- `SNATIR`. `translateTo` is absent exactly when the rule masquerades. -/
structure SNATIR where
  id : String
  name : String
  outIfaces : List String
  srcPrefix : Option Prefix
  masquerade : Bool
  translateTo : Option Addr
  deriving DecidableEq, Repr

/-- `DNATIR`; a zero `toPort` keeps the original port. -/
structure DNATIR where
  id : String
  name : String
  inIfaces : List String
  protocol : Proto
  ports : List PortRange
  matchDst : Addr
  translateTo : Addr
  toPort : Nat
  deriving DecidableEq, Repr

/-- `RouteIR`: a static route, by a gateway, an interface or both. -/
structure RouteIR where
  destination : Prefix
  via : Option Addr
  interface : String
  metric : Nat
  deriving DecidableEq, Repr

/-- `IDSExceptionIR`. A global exception has no track and no address. -/
structure IDSExceptionIR where
  name : String
  signatureID : Int
  threatID : String
  description : String
  owner : String
  ticketID : String
  reviewDate : String
  expiresAt : String
  pcapSHA256 : String
  regression : String
  track : String := ""
  address : Option Prefix := none
  deriving DecidableEq, Repr

/-- `IDsIR`: the inspection section as Suricata is configured by it. `failOpen` only means something
with `prevent`. -/
structure IDsIR where
  prevent : Bool
  failOpen : Bool
  interfaces : List String
  homeNets : List Prefix
  ruleFiles : List String
  exceptions : List IDSExceptionIR
  queueNum : Nat
  queueCount : Nat := 0
  deriving DecidableEq, Repr

/-- `TelemetryExportIR`: one more place that events are sent to. -/
structure TelemetryExportIR where
  name : String
  type : String
  target : String
  deriving DecidableEq, Repr

/-- `TelemetryIR`: where events go, with the defaults filled in. -/
structure TelemetryIR where
  clickHouseURL : String
  database : String
  exports : List TelemetryExportIR
  deriving DecidableEq, Repr

/-- `BGPNeighborIR`: a peer, by address and number. -/
structure BGPNeighborIR where
  address : Addr
  remoteASN : Nat
  description : String
  deriving DecidableEq, Repr

/-- `BGPIR`: the BGP router and what it announces. -/
structure BGPIR where
  asn : Nat
  routerID : String
  neighbors : List BGPNeighborIR
  announce : List Prefix
  deriving DecidableEq, Repr

/-- `OSPFAreaIR`: an area and the networks in it. -/
structure OSPFAreaIR where
  area : String
  networks : List Prefix
  deriving DecidableEq, Repr

/-- `OSPFIR`: the OSPF router and its areas. -/
structure OSPFIR where
  routerID : String
  areas : List OSPFAreaIR
  deriving DecidableEq, Repr

/-- `RoutingIR`: dynamic routing, with a part for each protocol that is enabled. -/
structure RoutingIR where
  bgp : Option BGPIR
  ospf : Option OSPFIR
  deriving DecidableEq, Repr

/-- `IpsecIR`: a tunnel between two gateways and the networks behind them. -/
structure IpsecIR where
  name : String
  localAddress : String
  remoteAddress : String
  localSubnets : List Prefix
  remoteSubnets : List Prefix
  pskFile : String
  ikeProposal : String
  espProposal : String
  initiate : Bool
  deriving DecidableEq, Repr

/-- `WireguardPeerIR`: a peer, by its key, with the networks that are routed to it. -/
structure WireguardPeerIR where
  name : String
  publicKey : String
  endpoint : String
  allowedIPs : List Prefix
  keepalive : Nat
  deriving DecidableEq, Repr

/-- `WireguardIR`: an interface and its peers. The key stays in a file. -/
structure WireguardIR where
  name : String
  address : Prefix
  listenPort : Nat
  privateKeyFile : String
  peers : List WireguardPeerIR
  deriving DecidableEq, Repr

/-- `VPNIR`: the tunnels of both kinds. -/
structure VPNIR where
  ipsec : List IpsecIR
  wireguard : List WireguardIR
  deriving DecidableEq, Repr

/-- `IntelIR`: that threat feeds are blocked. The feeds themselves are read from the policy. -/
structure IntelIR where
  enabled : Bool
  deriving DecidableEq, Repr

/-- `LinkIR`: the size of packets on an interface. -/
structure LinkIR where
  interface : String
  mtu : Nat
  deriving DecidableEq, Repr

/-- `NetworkIR`: the settings of interfaces, of which those that concern the forwarding of segments
(`clampMSS`, `flowOffloadDevices`) end up in the ruleset. -/
structure NetworkIR where
  links : List LinkIR
  clampMSS : Bool
  offloadOffIfaces : List String
  flowOffloadDevices : List String
  maxMTU : Nat
  deriving DecidableEq, Repr

/-- `WAFRuleSetIR`: a set of rules of the web application firewall, by name and digest. -/
structure WAFRuleSetIR where
  name : String
  version : String
  source : String
  sha256 : String
  deriving DecidableEq, Repr

/-- `WAFPolicyIR`: how requests are inspected, and what is kept of them. -/
structure WAFPolicyIR where
  name : String
  mode : String
  ruleSets : List WAFRuleSetIR
  requestBodyLimitKB : Nat
  auditLogging : Bool
  redactRequestBody : Bool
  description : String
  deriving DecidableEq, Repr

/-- `ProxyBackendIR`: a server that requests are passed to, with its share of them. -/
structure ProxyBackendIR where
  name : String
  url : String
  weight : Nat
  deriving DecidableEq, Repr

/-- `ProxyRouteIR`: the requests below a path, and where they go. -/
structure ProxyRouteIR where
  name : String
  pathPrefix : String
  backends : List ProxyBackendIR
  wafPolicy : String
  requireMTLSToBackend : Bool
  stripPrefix : Bool
  deriving DecidableEq, Repr

/-- `ProxyListenerIR`: where the proxy listens. -/
structure ProxyListenerIR where
  bindAddress : String := ""
  port : Nat := 0
  tls : Bool := false
  tlsSecretRef : String := ""
  deriving DecidableEq, Repr

/-- `VirtualServiceIR`: the hosts that are served by one listener, and their routes. -/
structure VirtualServiceIR where
  name : String
  enabled : Bool
  hostnames : List String
  listener : ProxyListenerIR
  routes : List ProxyRouteIR
  description : String
  deriving DecidableEq, Repr

/-- `ProxyIR`: the virtual services, and the inspections that their routes name. -/
structure ProxyIR where
  virtualServices : List VirtualServiceIR
  wafPolicies : List WAFPolicyIR
  deriving DecidableEq, Repr

/-- `IR`. An absent `hostInputDefault` is the zero value: the legacy default, allow. -/
structure IR where
  zones : List ZoneIR := []
  rules : List RuleIR := []
  appIDDrops : List AppIDDropIR := []
  appIDControls : List AppIDControlIR := []
  securityProfileRules : List SecurityProfileRuleIR := []
  qosControls : List QoSControlIR := []
  zoneProtections : List ZoneProtectionIR := []
  snat : List SNATIR := []
  dnat : List DNATIR := []
  routes : List RouteIR := []
  ids : Option IDsIR := none
  telemetry : Option TelemetryIR := none
  routing : Option RoutingIR := none
  vpn : Option VPNIR := none
  intel : Option IntelIR := none
  network : Option NetworkIR := none
  proxy : Option ProxyIR := none
  hostInputDefault : Option RuleAction := none
  hostInputRules : List RuleIR := []
  deriving DecidableEq, Repr

end Phragma.Compiler
