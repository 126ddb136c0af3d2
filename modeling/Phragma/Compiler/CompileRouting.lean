import Phragma.Policy.Model
import Phragma.Compiler.IR

/-!
# Phragma.Compiler.CompileRouting

The sections of the compiler that refer to no object of the policy: telemetry
(`internal/compiler/compile.go`), dynamic routing and VPN (`compile_routing.go`).

They parse addresses and prefixes and fill in defaults; a text that does not parse ends the
compilation.
-/

namespace Phragma.Compiler

open Go Policy

/-- Conversion to `uint16`. -/
def uint16 (n : Nat) : Nat := n % 65536

/-- The generated names of `TelemetryExportType`. -/
def exportTypeString : TelemetryExportType → String
  | .unspecified => "TELEMETRY_EXPORT_TYPE_UNSPECIFIED"
  | .jsonFile => "TELEMETRY_EXPORT_TYPE_JSON_FILE"
  | .jsonTcp => "TELEMETRY_EXPORT_TYPE_JSON_TCP"
  | .jsonUdp => "TELEMETRY_EXPORT_TYPE_JSON_UDP"
  | .unrecognized n => toString n

/-- `compileTelemetry`: where events go, if telemetry is enabled, with the database of a local
installation unless another one is given. -/
def compileTelemetry (tel : Telemetry) : Option TelemetryIR :=
  if !tel.enabled then none
  else some {
    clickHouseURL := if tel.clickhouseUrl = "" then "http://127.0.0.1:8123" else tel.clickhouseUrl
    database := if tel.database = "" then "openngfw" else tel.database
    exports := (tel.exports.filter TelemetryExport.enabled).map fun e =>
      ⟨e.name, exportTypeString e.type, e.target⟩ }

/-- The value of a parse, or an error. -/
def required {α : Type} (err : String) : Option α → Except String α
  | some a => .ok a
  | none => .error err

/-- `parsePrefixList`: prefixes, of which each has to parse. -/
def parsePrefixList (ctx : String) (cidrs : List String) : Except String (List Prefix) :=
  cidrs.mapM fun c => required (ctx ++ " " ++ quote c ++ ": invalid CIDR") (parsePrefix c)

/-- The BGP half of `compileRouting`. -/
def compileBGP (bgp : Bgp) : Except String BGPIR := do
  let neighbors ← bgp.neighbors.mapM fun n => do
    let address ← required ("bgp neighbor " ++ quote n.address ++ ": invalid address")
      (parseAddr n.address)
    pure (⟨address, n.remoteAsn, n.description⟩ : BGPNeighborIR)
  let announce ← bgp.announceNetworks.mapM fun net =>
    required ("bgp announce network " ++ quote net ++ ": invalid CIDR") (parsePrefix net)
  pure ⟨bgp.asn, bgp.routerId, neighbors, announce⟩

/-- One OSPF area. -/
def compileOSPFArea (a : OspfArea) : Except String OSPFAreaIR := do
  let networks ← a.networks.mapM fun net =>
    required ("ospf area " ++ quote a.area ++ " network " ++ quote net ++ ": invalid CIDR")
      (parsePrefix net)
  pure ⟨a.area, networks⟩

/-- The OSPF half of `compileRouting`. -/
def compileOSPF (ospf : Ospf) : Except String OSPFIR := do
  let areas ← ospf.areas.mapM compileOSPFArea
  pure ⟨ospf.routerId, areas⟩

/-- Compile a section only where it is switched on. -/
def whenEnabled {α : Type} (enabled : Bool) (x : Except String α) : Except String (Option α) :=
  if enabled then some <$> x else .ok none

/-- `compileRouting`: a part for each protocol that is enabled, and nothing if none is. -/
def compileRouting (bgp : Bgp) (ospf : Ospf) : Except String (Option RoutingIR) :=
  if !bgp.enabled && !ospf.enabled then .ok none
  else do
    let b ← whenEnabled bgp.enabled (compileBGP bgp)
    let o ← whenEnabled ospf.enabled (compileOSPF ospf)
    pure (some ⟨b, o⟩)

/-- One IPsec tunnel. -/
def compileIpsec (t : IpsecTunnel) : Except String IpsecIR := do
  let localSubnets ← parsePrefixList ("ipsec tunnel " ++ t.name ++ " local subnet") t.localSubnets
  let remoteSubnets ←
    parsePrefixList ("ipsec tunnel " ++ t.name ++ " remote subnet") t.remoteSubnets
  pure {
    name := t.name, remoteAddress := t.remoteAddress, pskFile := t.pskFile
    initiate := t.initiate, localSubnets, remoteSubnets
    localAddress := if t.localAddress = "" then "%any" else t.localAddress
    ikeProposal := if t.ikeProposal = "" then "aes256-sha256-modp2048" else t.ikeProposal
    espProposal := if t.espProposal = "" then "aes256-sha256-modp2048" else t.espProposal }

/-- One WireGuard peer. -/
def compileWireguardPeer (peer : WireguardPeer) : Except String WireguardPeerIR := do
  let allowedIPs ← parsePrefixList ("wireguard peer " ++ peer.name ++ " allowed ip") peer.allowedIps
  pure { name := peer.name, publicKey := peer.publicKey, endpoint := peer.endpoint, allowedIPs
         keepalive := uint16 peer.persistentKeepalive }

/-- One WireGuard interface. -/
def compileWireguard (w : WireguardInterface) : Except String WireguardIR := do
  let address ← required
    ("wireguard " ++ quote w.name ++ ": invalid address " ++ quote w.address) (parsePrefix w.address)
  let peers ← w.peers.mapM compileWireguardPeer
  pure { name := w.name, listenPort := uint16 w.listenPort, privateKeyFile := w.privateKeyFile
         address, peers }

/-- `compileVPN`: the tunnels, if there are any. -/
def compileVPN (vpn : Vpn) : Except String (Option VPNIR) :=
  if vpn.ipsecTunnels.isEmpty && vpn.wireguardInterfaces.isEmpty then .ok none
  else do
    let ipsec ← vpn.ipsecTunnels.mapM compileIpsec
    let wireguard ← vpn.wireguardInterfaces.mapM compileWireguard
    pure (some ⟨ipsec, wireguard⟩)

end Phragma.Compiler
