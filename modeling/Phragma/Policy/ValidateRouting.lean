import Phragma.Go.Text
import Phragma.Policy.Check

/-!
# Phragma.Policy.ValidateRouting

The validator's checks of dynamic routing and VPN (`internal/policy/validate_routing.go`).

The renderers of these sections write names, paths, keys and endpoints into line-oriented
configuration without quoting, so the checks here are about **which characters** a text may
hold: `hasSpaceOrControl` for whatever stands alone on a line, base64 for public keys.
-/

namespace Phragma.Policy

open Lib Go

/-! ### Texts

Texts that end up in configuration files of other programs must not break their lines. -/

/-- `hasControl`: is there a control character? -/
def hasControl (s : String) : Bool := s.toList.any isControl

/-- `hasSpaceOrControl`: is there white space or a control character? -/
def hasSpaceOrControl (s : String) : Bool := s.toList.any fun c => isSpace c || isControl c

/-- `hasParentComponent`: does a path go up anywhere? -/
def hasParentComponent (path : String) : Bool := (splitOn '/' path.toList).any (· == ['.', '.'])

/-- `checkCIDRList`: prefixes that parse. -/
def checkCIDRList (ctx : String) (cidrs : List String) : List String :=
  cidrs.flatMap fun c => errIf (parsePrefix c).isNone (ctx ++ ": invalid CIDR " ++ quote c)

/-- `checkConfigToken`; the function returns true exactly when it adds no message. -/
def checkConfigToken (ctx field value : String) (required : Bool) : List String :=
  if value = "" then errIf required (ctx ++ ": " ++ field ++ " is required")
  else errIf (hasSpaceOrControl value || containsAny value "\x7b\x7d\"'\x60#;")
    (ctx ++ ": " ++ field ++ " contains characters unsafe for rendered engine config")

/-- `ipsecSecretRoots`: where the shared secrets of tunnels may lie. -/
def ipsecSecretRoots : List String := ["/etc/phragma/secrets", "/etc/openngfw/secrets"]

/-- `wireguardKeyRoots`: where private keys may lie. -/
def wireguardKeyRoots : List String := ["/etc/phragma/keys", "/etc/openngfw/keys"]

/-- Is a path a file below one of the roots? -/
def underRoot (roots : List String) (path : String) : Bool :=
  roots.any fun root =>
    let dir := (cleanPath root).toList ++ ['/']
    hasPrefixList path.toList dir && decide (dir.length < path.toList.length)

/-- `checkManagedFilePath`: an absolute path below one of the given directories. -/
def checkManagedFilePath (ctx field value : String) (roots : List String) : List String :=
  if value = "" then [ctx ++ ": " ++ field ++ " must reference an operator-provisioned file"]
  else if hasSpaceOrControl value then
    [ctx ++ ": " ++ field ++ " must not contain whitespace or control characters"]
  else if !hasPrefixList value.toList ['/'] then
    [ctx ++ ": " ++ field ++ " must be an absolute path"]
  else if cleanPath value ≠ value || hasParentComponent value then
    [ctx ++ ": " ++ field ++ " must be normalized and must not contain path traversal"]
  else errIf (!underRoot roots (cleanPath value))
    (ctx ++ ": " ++ field ++ " must be under " ++ join roots " or ")

/-! ### Dynamic routing -/

/-- Does a text name an IPv4 address? -/
def isIPv4 (s : String) : Bool := ((parseAddr s).map Addr.is4).getD false

/-- One BGP neighbor. -/
def checkBgpNeighbor (n : BgpNeighbor) : List String :=
  let ctx := "bgp neighbor " ++ quote n.address
  errIf (parseAddr n.address).isNone (ctx ++ ": invalid address") ++
  errIf (n.remoteAsn == 0) (ctx ++ ": remote_asn must be set") ++
  errIf (hasControl n.description) (ctx ++ ": description must not contain control characters")

/-- The BGP half of `checkRouting`. -/
def checkBgp (bgp : Bgp) : List String :=
  if !bgp.enabled then []
  else
    errIf (bgp.asn == 0) "bgp: asn must be set" ++
    (if bgp.routerId = "" then ["bgp: router_id must be set"]
      else errIf (!isIPv4 bgp.routerId)
        ("bgp: router_id " ++ quote bgp.routerId ++ " must be an IPv4 address")) ++
    errIf bgp.neighbors.isEmpty "bgp: at least one neighbor is required" ++
    bgp.neighbors.flatMap checkBgpNeighbor ++
    checkCIDRList "bgp announce_networks" bgp.announceNetworks

/-- One OSPF area. -/
def checkOspfArea (a : OspfArea) : List String :=
  let ctx := "ospf area " ++ quote a.area
  errIf (!isIPv4 a.area) (ctx ++ ": must be in dotted form (e.g. 0.0.0.0)") ++
  errIf a.networks.isEmpty (ctx ++ ": at least one network is required") ++
  checkCIDRList (ctx ++ " networks") a.networks

/-- The OSPF half of `checkRouting`. -/
def checkOspf (ospf : Ospf) : List String :=
  if !ospf.enabled then []
  else
    errIf (ospf.routerId != "" && !isIPv4 ospf.routerId)
      ("ospf: router_id " ++ quote ospf.routerId ++ " must be an IPv4 address") ++
    errIf ospf.areas.isEmpty "ospf: at least one area is required" ++
    ospf.areas.flatMap checkOspfArea

/-- `checkRouting`: the sections of both protocols. -/
def checkRouting (bgp : Bgp) (ospf : Ospf) : List String := checkBgp bgp ++ checkOspf ospf

/-! ### VPN -/

/-- The body of `checkVPN`'s loop over IPsec tunnels. -/
def checkIpsecTunnel (t : IpsecTunnel) : List String :=
  let ctx := "ipsec tunnel " ++ quote t.name
  errIf (t.remoteAddress == "") (ctx ++ ": remote_address is required") ++
  checkConfigToken ctx "local_address" t.localAddress false ++
  checkConfigToken ctx "remote_address" t.remoteAddress true ++
  checkConfigToken ctx "ike_proposal" t.ikeProposal false ++
  checkConfigToken ctx "esp_proposal" t.espProposal false ++
  errIf (t.localSubnets.isEmpty || t.remoteSubnets.isEmpty)
    (ctx ++ ": local_subnets and remote_subnets are required") ++
  checkCIDRList (ctx ++ " local_subnets") t.localSubnets ++
  checkCIDRList (ctx ++ " remote_subnets") t.remoteSubnets ++
  checkManagedFilePath ctx "psk_file" t.pskFile ipsecSecretRoots

/-- One WireGuard peer. A bad endpoint ends the checks of the peer. -/
def checkWireguardPeer (ctx : String) (p : WireguardPeer) : List String :=
  let pctx := ctx ++ " peer " ++ quote p.name
  let keepalive := errIf (decide (65535 < p.persistentKeepalive))
    (pctx ++ ": persistent_keepalive out of range")
  errIf ((base64Decode p.publicKey).map List.length != some 32)
    (pctx ++ ": public_key must be a base64 32-byte key") ++
  errIf p.allowedIps.isEmpty (pctx ++ ": allowed_ips is required") ++
  checkCIDRList (pctx ++ " allowed_ips") p.allowedIps ++
  (if p.endpoint = "" then keepalive
    else
      match checkConfigToken pctx "endpoint" p.endpoint false with
      | [] =>
          errIf (splitHostPort p.endpoint).isNone
            (pctx ++ ": endpoint " ++ quote p.endpoint ++ " must be host:port") ++ keepalive
      | errs => errs)

/-- The body of `checkVPN`'s loop over WireGuard interfaces. -/
def checkWireguardInterface (w : WireguardInterface) : List String :=
  let ctx := "wireguard " ++ quote w.name
  errIf (parsePrefix w.address).isNone
    (ctx ++ ": address " ++ quote w.address ++ " must be CIDR (e.g. 10.99.0.1/24)") ++
  errIf (decide (65535 < w.listenPort)) (ctx ++ ": listen_port out of range") ++
  checkManagedFilePath ctx "private_key_file" w.privateKeyFile wireguardKeyRoots ++
  w.peers.flatMap (checkWireguardPeer ctx)

/-- Is a WireGuard interface name unusable? The length is in bytes. -/
def badInterfaceName (name : String) : Bool :=
  name == "" || decide (15 < name.utf8ByteSize) || containsAny name "/" || hasSpaceOrControl name

/-- One WireGuard interface, against the names seen before. -/
def wireguardStep (seen : List String) (w : WireguardInterface) : List String × List String :=
  if badInterfaceName w.name then
    (["wireguard interface " ++ quote w.name ++ ": invalid interface name"], seen)
  else if seen.contains w.name then (["duplicate wireguard interface " ++ quote w.name], seen)
  else (checkWireguardInterface w, w.name :: seen)

/-- `checkVPN`: the tunnels of both kinds. -/
def checkVPN (vpn : Vpn) : List String :=
  checkEach "ipsec tunnel" IpsecTunnel.name checkIpsecTunnel vpn.ipsecTunnels ++
  (collect wireguardStep [] vpn.wireguardInterfaces).1

end Phragma.Policy
