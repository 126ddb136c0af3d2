import Phragma.Go.Lines
import Phragma.Compiler.IR

/-!
# Phragma.Renderers.Plain

The renderers that **cannot fail**: static routes (`iproute`), telemetry (`vector`), dynamic
routing (`frr`), IPsec (`strongswan`), WireGuard (`wireguard`) and link settings (`netdev`),
from the packages of these names under `internal/renderers`.

Each writes its section of the IR line by line. Names, paths and keys are written as they
are: no format here has quoting, except the paths of Vector's YAML.
-/

namespace Phragma.Renderers

open Go Compiler

/-- The line every generated file starts with. -/
def generatedBy : String :=
  "# Generated by OpenNGFW controld. Do not edit; overwritten on every commit."

/-- `strings.Join` over prefixes. -/
def joinPrefixes (prefixes : List Prefix) : String := join (prefixes.map Prefix.string) ","

/-! ### Static routes

One line of `ip route` for each route, without the `ip`. The engine reads it back by its words. -/

namespace Iproute

/-- `Line`. -/
def Line (r : RouteIR) : String :=
  join (["route", "replace", r.destination.string] ++
    (match r.via with
      | some via => ["via", via.string]
      | none => []) ++
    (if r.interface = "" then [] else ["dev", r.interface]) ++
    (if r.metric = 0 then [] else ["metric", decimal r.metric])) " "

/-- `Render`. -/
def Render (ir : IR) : String := unlines (ir.routes.map Line)

end Iproute

/-! ### Telemetry

The configuration of Vector. Its first line says whether it is to run. -/

namespace Vector

/-- `Options`: where the events are, and where Vector keeps its data. -/
structure Options where
  evePath : String
  dataDir : String
  deriving DecidableEq, Repr

def ModeMarker : String := "# openngfw-mode: "
def ModeDisabled : String := "disabled"
def ModeEnabled : String := "enabled"

/-- `strings.ReplaceAll(name, "-", "_")`: a name as the name of a sink. -/
def underscored (name : String) : String :=
  String.ofList (name.toList.map fun c => if c = '-' then '_' else c)

/-- `writeExportSink`: the sink of one export. -/
def exportSink (e : TelemetryExportIR) : List String :=
  let sinkID := "  event_export_" ++ underscored e.name ++ ":"
  if e.type = "TELEMETRY_EXPORT_TYPE_JSON_FILE" then
    [sinkID, "    type: file", "    inputs: [eve_parsed]", "    path: " ++ quote e.target,
      "    encoding:", "      codec: json"]
  else if e.type = "TELEMETRY_EXPORT_TYPE_JSON_TCP" ∨ e.type = "TELEMETRY_EXPORT_TYPE_JSON_UDP" then
    let udp := e.type = "TELEMETRY_EXPORT_TYPE_JSON_UDP"
    [sinkID, "    type: socket", "    inputs: [eve_parsed]", "    address: " ++ quote e.target,
      "    mode: " ++ (if udp then "udp" else "tcp")] ++
    (if udp then [] else ["    framing:", "      method: newline_delimited"]) ++
    ["    encoding:", "      codec: json"]
  else []

/-- One of the two ClickHouse sinks. -/
def clickhouseSink (tel : TelemetryIR) (name input table : String) : List String :=
  ["  " ++ name ++ ":", "    type: clickhouse", "    inputs: [" ++ input ++ "]",
    "    endpoint: " ++ tel.clickHouseURL, "    database: " ++ tel.database,
    "    table: " ++ table, "    skip_unknown_fields: true"]

/-- `Render`. -/
def Render (ir : IR) (opts : Options) : String :=
  match ir.telemetry with
  | none => unlines [ModeMarker ++ ModeDisabled]
  | some tel =>
      unlines ([ModeMarker ++ ModeEnabled, generatedBy, "", "data_dir: " ++ opts.dataDir, "",
        "sources:", "  suricata_eve:", "    type: file",
        "    include: [" ++ quote opts.evePath ++ "]", "",
        "transforms:", "  eve_parsed:", "    type: remap", "    inputs: [suricata_eve]",
        "    source: |", "      . = parse_json!(.message)", "      .ingested_at = now()",
        "  eve_alerts:", "    type: filter", "    inputs: [eve_parsed]",
        "    condition: .event_type == \"alert\"", "", "sinks:"] ++
        clickhouseSink tel "clickhouse_events" "eve_parsed" "events" ++
        clickhouseSink tel "clickhouse_alerts" "eve_alerts" "alerts" ++
        tel.exports.flatMap exportSink)

end Vector

/-! ### Dynamic routing

The configuration of FRR. Its first line names the daemons that are needed. -/

namespace Frr

def ModeMarker : String := "! openngfw-daemons: "
def ModeDisabled : String := "none"

/-- The BGP section. -/
def bgpLines (bgp : BGPIR) : List String :=
  ["router bgp " ++ decimal bgp.asn, " bgp router-id " ++ bgp.routerID,
    " no bgp ebgp-requires-policy"] ++
  (bgp.neighbors.flatMap fun n =>
    [" neighbor " ++ n.address.string ++ " remote-as " ++ decimal n.remoteASN] ++
    (if n.description = "" then []
      else [" neighbor " ++ n.address.string ++ " description " ++ n.description])) ++
  (if bgp.announce.isEmpty then []
    else [" address-family ipv4 unicast"] ++
      (bgp.announce.map fun pfx => "  network " ++ pfx.string) ++ [" exit-address-family"]) ++
  ["!"]

/-- The OSPF section. -/
def ospfLines (ospf : OSPFIR) : List String :=
  ["router ospf"] ++
  (if ospf.routerID = "" then [] else [" ospf router-id " ++ ospf.routerID]) ++
  (ospf.areas.flatMap fun area =>
    area.networks.map fun net => " network " ++ net.string ++ " area " ++ area.area) ++
  ["!"]

/-- `Render`. -/
def Render (ir : IR) : String :=
  match ir.routing with
  | none => unlines [ModeMarker ++ ModeDisabled]
  | some r =>
      let daemons := (if r.bgp.isSome then ["bgpd"] else []) ++
        (if r.ospf.isSome then ["ospfd"] else [])
      unlines ([ModeMarker ++ join daemons ",",
        "! Generated by OpenNGFW controld. Do not edit; overwritten on every commit.",
        "frr defaults traditional", "hostname openngfw", "!"] ++
        r.bgp.elim [] bgpLines ++ r.ospf.elim [] ospfLines)

end Frr

/-! ### IPsec

The configuration of strongSwan, a connection for each tunnel. Keys are in files, which are
included. -/

namespace Strongswan

def ModeMarker : String := "# openngfw-mode: "
def ModeDisabled : String := "disabled"
def ModeEnabled : String := "enabled"

/-- One connection. -/
def connectionLines (t : IpsecIR) : List String :=
  ["    " ++ t.name ++ " \x7b", "        version = 2",
    "        local_addrs = " ++ t.localAddress, "        remote_addrs = " ++ t.remoteAddress,
    "        proposals = " ++ t.ikeProposal,
    "        local \x7b", "            auth = psk", "        \x7d",
    "        remote \x7b", "            auth = psk", "        \x7d",
    "        children \x7b", "            " ++ t.name ++ " \x7b",
    "                local_ts = " ++ joinPrefixes t.localSubnets,
    "                remote_ts = " ++ joinPrefixes t.remoteSubnets,
    "                esp_proposals = " ++ t.espProposal,
    "                start_action = " ++ (if t.initiate then "start" else "trap"),
    "            \x7d", "        \x7d", "    \x7d"]

/-- The PSK snippets to include, each once. -/
def includes (tunnels : List IpsecIR) : List String :=
  tunnels.foldl (fun out t => if out.contains t.pskFile then out else out ++ [t.pskFile]) []

/-- `Render`. -/
def Render (ir : IR) : String :=
  match ir.vpn.elim [] VPNIR.ipsec with
  | [] => unlines [ModeMarker ++ ModeDisabled]
  | tunnels =>
      unlines ([ModeMarker ++ ModeEnabled, generatedBy, "", "connections \x7b"] ++
        tunnels.flatMap connectionLines ++ ["\x7d", ""] ++
        (includes tunnels).map fun file => "include " ++ file)

end Strongswan

/-! ### WireGuard

One section for each interface, behind a marker that the engine cuts the text at. -/

namespace Wireguard

/-- `InterfaceMarker`: what marks the start of a section. -/
def InterfaceMarker : String := "interface "

/-- The lines of a peer. -/
def peerLines (p : WireguardPeerIR) : List String :=
  ["peer " ++ p.publicKey] ++
  (if p.endpoint = "" then [] else ["  endpoint " ++ p.endpoint]) ++
  ["  allowed-ips " ++ joinPrefixes p.allowedIPs] ++
  (if p.keepalive = 0 then [] else ["  keepalive " ++ decimal p.keepalive])

/-- The block of an interface. -/
def interfaceLines (w : WireguardIR) : List String :=
  [InterfaceMarker ++ w.name, "address " ++ w.address.string] ++
  (if w.listenPort = 0 then [] else ["listen-port " ++ decimal w.listenPort]) ++
  ["private-key-file " ++ w.privateKeyFile] ++ w.peers.flatMap peerLines

/-- `Render`. -/
def Render (ir : IR) : String :=
  unlines ([generatedBy] ++ (ir.vpn.elim [] VPNIR.wireguard).flatMap interfaceLines)

end Wireguard

/-! ### Link settings

One line of words for each setting. Texts are cleaned of white space, so that each is one word. -/

namespace Netdev

/-- `token`: a text as one word. -/
def token (value : String) : String :=
  if value = "" then "-"
  else replaceAll [(" ", "_"), ("\t", "_"), ("\n", "_"), ("\r", "_")] value

/-- A managed MTU. -/
def linkLine (l : LinkIR) : String := "link " ++ l.interface ++ " mtu " ++ decimal l.mtu

/-- An interface whose offloads are switched off. -/
def offloadLine (ifc : String) : String := "offload " ++ ifc ++ " off"

/-- A planned QoS control. -/
def qosLine (c : QoSControlIR) : String :=
  "qos-plan rule " ++ (token c.ruleName ++ " profile " ++ token c.profileName ++
    " state planned runtime unsupported max-kbps " ++ decimal c.maxBandwidthKbps ++
    " guaranteed-kbps " ++ decimal c.guaranteedBandwidthKbps ++ " priority " ++
    token c.priority ++ " dscp " ++ decimal c.dscpMark ++ " burst-kbytes " ++ decimal c.burstKBytes)

/-- A planned zone protection. -/
def protectionLine (z : ZoneProtectionIR) : String :=
  "zone-protection-plan zone " ++ (token z.zoneName ++ " profile " ++ token z.profileName ++
    " state planned runtime unsupported enabled " ++ toString z.enabled ++ " action " ++
    token z.action ++ " audit-log " ++ toString z.auditLog ++ " interfaces " ++
    token (join z.interfaces ",") ++ " syn-pps " ++ decimal z.synFloodPPS ++ " udp-pps " ++
    decimal z.udpFloodPPS ++ " icmp-pps " ++ decimal z.icmpFloodPPS ++ " max-connections " ++
    decimal z.maxConcurrentConnections)

/-- The managed links of the IR. -/
def links (ir : IR) : List LinkIR := ir.network.elim [] NetworkIR.links

/-- The interfaces of the IR whose offloads are switched off. -/
def offloads (ir : IR) : List String := ir.network.elim [] NetworkIR.offloadOffIfaces

/-- `Render`. -/
def Render (ir : IR) : String :=
  unlines ([generatedBy] ++ (links ir).map linkLine ++ (offloads ir).map offloadLine ++
    ir.qosControls.map qosLine ++ ir.zoneProtections.map protectionLine)

end Netdev

end Phragma.Renderers
