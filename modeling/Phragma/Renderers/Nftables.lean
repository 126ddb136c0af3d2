import Phragma.Compiler.IR
import Phragma.Nft.Ruleset

/-!
# Phragma.Renderers.Nftables

The nftables renderer (`internal/renderers/nftables/render.go`): from the intermediate
representation to one ruleset, as a `Ruleset` value and as the text of the generated
file.

One IR rule becomes one line for every address family and service it can apply to.
`ruleLines_run` undoes that expansion: run over a packet, the lines of a rule have the
rule's verdict exactly when the packet matches the rule (`RuleIR.matchesPacket`).
-/

namespace Phragma.Renderers.Nftables

open Lib Go Compiler Nft

/-- `TableName`: the table that belongs to the firewall. -/
def TableName : String := "openngfw"

/-! ### Lines of a rule

A line is for one address family and one service, so a rule becomes as many as there are pairs of
them. Sets of interfaces and prefixes fit into one line. -/

/-- `family`: which variant of a rule line to emit. -/
inductive Fam
  | any
  | v4
  | v6
  deriving DecidableEq, Repr

/-- The IPv4 half of `splitFamily`. -/
def split4 (ps : List Prefix) : List Prefix := ps.filter fun p => p.addr.is4

/-- The IPv6 half of `splitFamily`. -/
def split6 (ps : List Prefix) : List Prefix := ps.filter fun p => !p.addr.is4

/-- The families a rule is emitted for: both, unless one side excludes one. -/
def families (r : RuleIR) : List Fam :=
  if r.srcPrefixes.isEmpty && r.dstPrefixes.isEmpty then [.any]
  else
    let v4OK := (r.srcPrefixes.isEmpty || !(split4 r.srcPrefixes).isEmpty) &&
      (r.dstPrefixes.isEmpty || !(split4 r.dstPrefixes).isEmpty)
    let v6OK := (r.srcPrefixes.isEmpty || !(split6 r.srcPrefixes).isEmpty) &&
      (r.dstPrefixes.isEmpty || !(split6 r.dstPrefixes).isEmpty)
    (if v4OK then [.v4] else []) ++ (if v6OK then [.v6] else [])

/-- `ifaceMatch`: no interfaces, no match. -/
def ifaceMatch (key : List String → Match) (ifaces : List String) : List Match :=
  if ifaces.isEmpty then [] else [key ifaces]

/-- An address match, when there are prefixes to match. -/
def prefixMatch (fam : Family) (side : Side) (ps : List Prefix) : List Match :=
  if ps.isEmpty then [] else [.addr fam side (.prefixes ps)]

/-- The address part of a rule line. -/
def addrMatches (r : RuleIR) : Fam → List Match
  | .any => []
  | .v4 => prefixMatch .ip .saddr (split4 r.srcPrefixes) ++
      prefixMatch .ip .daddr (split4 r.dstPrefixes)
  | .v6 => prefixMatch .ip6 .saddr (split6 r.srcPrefixes) ++
      prefixMatch .ip6 .daddr (split6 r.dstPrefixes)

/-- The ranges of a port match. -/
def portRanges (ports : List PortRange) : List (Nat × Nat) := ports.map fun pr => (pr.start, pr.stop)

/-- `serviceMatch`: what a line asks of the transport. -/
def serviceMatch (m : ServiceMatch) (fam : Fam) : List Match :=
  let ported (l4 : L4) : List Match :=
    if m.ports.isEmpty then [.l4proto [l4]] else [.dport l4 (portRanges m.ports)]
  match m.protocol with
  | .tcp => ported .tcp
  | .udp => ported .udp
  | .icmp =>
      match fam with
      | .v4 => [.l4proto [.icmp]]
      | .v6 => [.l4proto [.icmpv6]]
      | .any => [.l4proto [.icmp, .icmpv6]]
  | .any => []

/-- `verdict`: what nftables does for an action. -/
def verdict : RuleAction → Verdict
  | .allow => .accept
  | .reject => .reject
  | .deny => .drop

/-- `commentWithID`: the comment of a rule, with its id if it has one. -/
def commentWithID (pfx name id : String) : String :=
  if id = "" then pfx ++ ":" ++ name else pfx ++ ":" ++ name ++ " id=" ++ id

/-- The comment of a rule line. -/
def ruleComment (r : RuleIR) (commentPrefix : String) : String :=
  commentWithID commentPrefix r.name r.id ++
    (if r.applications.isEmpty then ""
    else " app-id=" ++ join r.applications "," ++
      (if r.appIDSignals.isEmpty then "" else " l7-signal=suricata") ++
      (if r.appIDOnly then "" else " appid-path=port-hints")) ++
    (if r.inspectionRequired && r.action = .allow then " inspection=ips-fail-closed" else "")

/-- The matches of a rule line. -/
def ruleConds (r : RuleIR) (fam : Fam) (svc : ServiceMatch) : List Match :=
  ifaceMatch .iifname r.fromIfaces ++ ifaceMatch .oifname r.toIfaces ++ addrMatches r fam ++
    serviceMatch svc fam

/-- The lines for one family and service: an inspection counter for allowed traffic that
must be inspected, then the rule itself. -/
def ruleLine (r : RuleIR) (commentPrefix : String) (fam : Fam) (svc : ServiceMatch) : List Line :=
  let conds := ruleConds r fam svc
  (if r.inspectionRequired && r.action = .allow then
    [⟨conds, [.counter, .comment ("profile-inspection:" ++ r.name)]⟩] else []) ++
  [⟨conds, (if r.log then [.log ("ngfw:" ++ r.name ++ ": ")] else []) ++
    [.counter, .verdict (verdict r.action), .comment (ruleComment r commentPrefix)]⟩]

/-- The services a rule is emitted for. -/
def lineServices (r : RuleIR) : List ServiceMatch :=
  if r.services.isEmpty then [⟨.any, []⟩] else r.services

/-- `ruleLinesWithComment`: the lines of a rule. A rule without a family is an error. -/
def ruleLinesWithComment (r : RuleIR) (commentPrefix : String) : Except String (List Line) :=
  if (families r).isEmpty then
    .error ("rule " ++ quote r.name ++ ": source and destination address families do not overlap")
  else .ok ((families r).flatMap fun fam =>
    (lineServices r).flatMap fun svc => ruleLine r commentPrefix fam svc)

/-! ### Translations

A translation is one line, of the family of the address it matches. -/

/-- The keyword of an address's family. -/
def ipKw (a : Addr) : Family := if a.is6 then .ip6 else .ip

/-- The line of a destination translation for one transport protocol. -/
def dnatPortLine (d : DNATIR) (l4 : L4) : Except String Line :=
  if d.ports.isEmpty then
    .error ("destination-nat " ++ quote d.name ++ ": service must define ports")
  else .ok ⟨ifaceMatch .iifname d.inIfaces ++
      [.addr (ipKw d.matchDst) .daddr (.host d.matchDst), .dport l4 (portRanges d.ports)],
    [.counter, .dnat d.translateTo d.toPort, .comment (commentWithID "dnat" d.name d.id)]⟩

/-- `dnatLine`: the line of a destination translation, of TCP or UDP. -/
def dnatLine (d : DNATIR) : Except String Line :=
  match d.protocol with
  | .tcp => dnatPortLine d .tcp
  | .udp => dnatPortLine d .udp
  | _ => .error ("destination-nat " ++ quote d.name ++ ": protocol must be TCP or UDP")

/-- `snatLine`. A rule that does not masquerade has a translated address. -/
def snatLine (s : SNATIR) : Line :=
  ⟨ifaceMatch .oifname s.outIfaces ++
      (match s.srcPrefix with
        | none => []
        | some pfx => [.addr (ipKw pfx.addr) .saddr (.prefixes [pfx])]),
    [.counter,
      match s.translateTo with
        | some target => if s.masquerade then .masquerade else .snat target
        | none => .masquerade,
      .comment (commentWithID "snat" s.name s.id)]⟩

/-! ### The ruleset

One table, and one chain for each hook. `Rendered` says what each chain is made of. -/

/-- `queueStatement`: the line that hands packets over to Suricata. The last queue is computed in 16
bits. -/
def queueStatement (ids : IDsIR) : Line :=
  ⟨[], [.counter,
    .queue ⟨ids.queueNum, (ids.queueNum + ids.queueCount - 1) % 65536,
      decide (1 < ids.queueCount), ids.failOpen⟩,
    .comment "ips-inspect"]⟩

/-- `inputDefaultPolicy`: the policy of the input chain, which only a deny makes a drop. -/
def inputDefaultPolicy (action : Option RuleAction) : Verdict :=
  if action = some .deny then .drop else .accept

/-- The table of a generated file. -/
structure Ruleset where
  intelSets : Bool
  flowtable : List String
  input : Chain
  forward : Chain
  natPrerouting : Option Chain
  natPostrouting : Option Chain
  deriving DecidableEq, Repr

/-- Is threat intel enabled? -/
def intelEnabled (ir : IR) : Bool := (ir.intel.map IntelIR.enabled).getD false

/-- The devices of the flowtable; none when flow offload is off. -/
def flowOffloadDevices (ir : IR) : List String := (ir.network.map NetworkIR.flowOffloadDevices).getD []

/-- Rules common to both filter chains. -/
def establishedAccept : Line := ⟨[.ctState [.established, .related]], [.verdict .accept]⟩

def invalidDrop : Line := ⟨[.ctState [.invalid]], [.verdict .drop]⟩

/-- A threat-intel rule. -/
def intelLine (fam : Family) (side : Side) (set comment : String) : Line :=
  ⟨[.addr fam side (.named set)],
    [.log "ngfw:intel-block: ", .counter, .verdict .drop, .comment comment]⟩

/-- What the forward chain does before the policy's rules. -/
def forwardPreamble (ir : IR) : List Line :=
  (match ir.ids with
    | some ids => if ids.prevent then [queueStatement ids] else []
    | none => []) ++
  (if (ir.network.map NetworkIR.clampMSS).getD false then
    [⟨[.tcpFlagsSyn], [.clampMss, .counter, .comment "mss-clamp"]⟩] else []) ++
  (if (flowOffloadDevices ir).isEmpty then [] else
    [⟨[.ctState [.established, .related]],
      [.counter, .flowAdd "fastpath", .verdict .accept, .comment "flow-offload"]⟩]) ++
  [establishedAccept, invalidDrop] ++
  (if intelEnabled ir then
    [intelLine .ip .saddr "intel4" "intel-block-src", intelLine .ip .daddr "intel4" "intel-block-dst",
      intelLine .ip6 .saddr "intel6" "intel-block-src6",
      intelLine .ip6 .daddr "intel6" "intel-block-dst6"] else [])

/-- `Render`, up to the text. -/
def renderRuleset (ir : IR) : Except String Ruleset := do
  let hostLines ← ir.hostInputRules.mapM fun r => ruleLinesWithComment r "host-input"
  let ruleLines ← (ir.rules.filter fun r => !r.appIDOnly).mapM fun r =>
    ruleLinesWithComment r "rule"
  let dnatLines ← ir.dnat.mapM dnatLine
  pure {
    intelSets := intelEnabled ir
    flowtable := flowOffloadDevices ir
    input := {
      name := "input"
      decl := "type filter hook input priority filter; policy " ++
        (inputDefaultPolicy ir.hostInputDefault).text ++ ";"
      lines := [⟨[.iifname ["lo"]], [.verdict .accept]⟩, establishedAccept, invalidDrop] ++
        hostLines.flatten ++
        (if ir.hostInputDefault = some .deny then
          [⟨[], [.counter, .comment "default-input-drop"]⟩] else []) }
    forward := {
      name := "forward"
      decl := "type filter hook forward priority filter; policy drop;"
      lines := forwardPreamble ir ++ ruleLines.flatten ++
        [⟨[], [.counter, .comment "default-drop"]⟩] }
    natPrerouting :=
      if ir.dnat.isEmpty then none
      else some ⟨"nat_prerouting", "type nat hook prerouting priority dstnat; policy accept;",
        dnatLines⟩
    natPostrouting :=
      if ir.snat.isEmpty then none
      else some ⟨"nat_postrouting", "type nat hook postrouting priority srcnat; policy accept;",
        ir.snat.map snatLine⟩ }

/-- The rules of a chain that may be missing. -/
def chainLines : Option Chain → List Line
  | none => []
  | some c => c.lines

/-- **What the renderer emits**: chain by chain, the blocks of lines of the IR's elements
in order. -/
structure Rendered (ir : IR) (rs : Ruleset) : Prop where
  input : ∃ blocks, List.Forall₂ (fun r ls => ruleLinesWithComment r "host-input" = .ok ls)
      ir.hostInputRules blocks ∧
    rs.input.lines = [⟨[.iifname ["lo"]], [.verdict .accept]⟩, establishedAccept, invalidDrop] ++
      blocks.flatten ++ (if ir.hostInputDefault = some .deny then
        [⟨[], [.counter, .comment "default-input-drop"]⟩] else [])
  forward : ∃ blocks, List.Forall₂ (fun r ls => ruleLinesWithComment r "rule" = .ok ls)
      (ir.rules.filter fun r => !r.appIDOnly) blocks ∧
    rs.forward.lines = forwardPreamble ir ++ blocks.flatten ++
      [⟨[], [.counter, .comment "default-drop"]⟩]
  prerouting : List.Forall₂ (fun d l => dnatLine d = .ok l) ir.dnat (chainLines rs.natPrerouting)
  postrouting : chainLines rs.natPostrouting = ir.snat.map snatLine

theorem rendered_of_renderRuleset {ir : IR} {rs : Ruleset} (h : renderRuleset ir = .ok rs) :
    Rendered ir rs := by
  unfold renderRuleset at h
  obtain ⟨hostLines, hhost, h⟩ := bind_ok.mp h
  obtain ⟨ruleLines, hrules, h⟩ := bind_ok.mp h
  obtain ⟨dnatLines, hdnat, h⟩ := bind_ok.mp h
  cases h
  have hdnat := mapM_ok.mp hdnat
  refine {
    input := ⟨hostLines, mapM_ok.mp hhost, rfl⟩
    forward := ⟨ruleLines, mapM_ok.mp hrules, rfl⟩
    prerouting := ?_
    postrouting := ?_ }
  · cases hd : ir.dnat with
    | nil => exact .nil
    | cons d ds =>
        rw [hd] at hdnat
        exact hdnat
  · cases hs : ir.snat with
    | nil => rfl
    | cons s ss => rfl

/-- The generated file. -/
def Ruleset.text (r : Ruleset) : String :=
  "#!/usr/sbin/nft -f\n" ++
  "# Generated by OpenNGFW controld. Do not edit; overwritten on every commit.\n\n" ++
  "table inet " ++ TableName ++ "\n" ++ "delete table inet " ++ TableName ++ "\n\n" ++
  "table inet " ++ TableName ++ " \x7b\n" ++
  (if r.intelSets then
    "\tset intel4 \x7b\n\t\ttype ipv4_addr\n\t\tflags interval\n\t\x7d\n\n" ++
    "\tset intel6 \x7b\n\t\ttype ipv6_addr\n\t\tflags interval\n\t\x7d\n\n" else "") ++
  (if r.flowtable.isEmpty then "" else
    "\tflowtable fastpath \x7b\n\t\thook ingress priority 0; devices = \x7b " ++
      join (r.flowtable.map quote) ", " ++ " \x7d;\n\t\x7d\n\n") ++
  r.input.text ++ "\n" ++ r.forward.text ++
  (r.natPrerouting.elim "" fun c => "\n" ++ c.text) ++
  (r.natPostrouting.elim "" fun c => "\n" ++ c.text) ++ "\x7d\n"

/-- `Render`: the ruleset as text. -/
def Render (ir : IR) : Except String String := Ruleset.text <$> renderRuleset ir

/-! ### What the lines of a rule match

Families and services that a rule is expanded to cover what it matches, and none matches anything
else. So some line of a rule matches a packet exactly when the rule does. -/

/-- An interface list admits an interface: it is empty, or holds it. -/
def ifacesOK (ifaces : List String) (ifc : String) : Bool := ifaces.isEmpty || ifaces.contains ifc

/-- A prefix list admits an address: it is empty, or one of its prefixes covers it. -/
def prefixesOK (ps : List Prefix) (a : Addr) : Bool := ps.isEmpty || ps.any fun p => covers p a

/-- A service match admits a packet. -/
def serviceOK (m : ServiceMatch) (pkt : Packet) : Bool :=
  let ported (l4 : L4) : Bool := decide (pkt.l4 = l4) && (m.ports.isEmpty ||
    m.ports.any fun pr => decide (pr.start ≤ pkt.dport ∧ pkt.dport ≤ pr.stop))
  match m.protocol with
  | .tcp => ported .tcp
  | .udp => ported .udp
  | .icmp => decide (pkt.l4 = .icmp) || decide (pkt.l4 = .icmpv6)
  | .any => true

/-- Does a packet match an IR rule: every dimension admits it. -/
def matchesRule (r : RuleIR) (pkt : Packet) : Bool :=
  ifacesOK r.fromIfaces pkt.iif && ifacesOK r.toIfaces pkt.oif &&
    (prefixesOK r.srcPrefixes pkt.src && prefixesOK r.dstPrefixes pkt.dst) &&
    (r.services.isEmpty || r.services.any fun m => serviceOK m pkt)

section Lines

variable {env : Env} {pkt : Packet}

theorem ifaceMatch_all {key : List String → Match} (ifc : String)
    (hkey : ∀ names, (key names).holds env pkt = names.contains ifc) (ifaces : List String) :
    (ifaceMatch key ifaces).all (Match.holds env pkt) = ifacesOK ifaces ifc := by
  unfold ifaceMatch ifacesOK
  cases hempty : ifaces.isEmpty with
  | true => simp
  | false => simp [hkey]

/-- The prefixes of one family. -/
def splitOf : Family → List Prefix → List Prefix
  | .ip => split4
  | .ip6 => split6

/-- The line variant of one family. -/
def famOf : Family → Fam
  | .ip => .v4
  | .ip6 => .v6

/-- Can a prefix list match packets of a family at all? -/
def sideOK (f : Family) (ps : List Prefix) : Bool := ps.isEmpty || !(splitOf f ps).isEmpty

theorem side_is4 (side : Side) (pkt : Packet) :
    (side.of pkt).is4 = decide (pkt.family = .ip) := by
  cases side with
  | saddr => exact pkt.src_is4
  | daddr => exact pkt.dst_is4

/-- Prefixes of the other family cover nothing in the packet. -/
theorem splitOf_any (side : Side) (ps : List Prefix) :
    (splitOf pkt.family ps).any (fun p => covers p (side.of pkt)) =
      ps.any fun p => covers p (side.of pkt) := by
  have hfam : ∀ p : Prefix, covers p (side.of pkt) = true →
      p.addr.is4 = decide (pkt.family = .ip) := by
    intro p hp
    rw [family_of_covers hp, side_is4]
  cases hf : pkt.family with
  | ip =>
      simp only [splitOf, split4, List.any_filter]
      congr 1
      funext p
      cases hc : covers p (side.of pkt) with
      | false => simp
      | true => simp [hfam p hc, hf]
  | ip6 =>
      simp only [splitOf, split6, List.any_filter]
      congr 1
      funext p
      cases hc : covers p (side.of pkt) with
      | false => simp
      | true => simp [hfam p hc, hf]

/-- An address match on the packet's own family is a test of the whole list, as long as
the list can match the family. -/
theorem prefixMatch_all (side : Side) (ps : List Prefix) (h : sideOK pkt.family ps = true) :
    (prefixMatch pkt.family side (splitOf pkt.family ps)).all (Match.holds env pkt) =
      prefixesOK ps (side.of pkt) := by
  unfold prefixMatch prefixesOK
  unfold sideOK at h
  cases hps : ps.isEmpty with
  | true =>
      rw [List.isEmpty_iff] at hps
      subst hps
      cases pkt.family <;> simp [splitOf, split4, split6]
  | false =>
      simp only [hps, Bool.false_or, Bool.not_eq_true'] at h
      simp only [h, Bool.false_eq_true, if_false, List.all_cons, List.all_nil, Bool.and_true,
        Match.holds, AddrSet.has, decide_true, Bool.true_and, Bool.false_or]
      exact splitOf_any side ps

/-- A list that cannot match the packet's family admits none of its addresses. -/
theorem prefixesOK_of_not_sideOK (side : Side) (ps : List Prefix)
    (h : sideOK pkt.family ps = false) : prefixesOK ps (side.of pkt) = false := by
  unfold sideOK at h
  simp only [Bool.or_eq_false_iff, Bool.not_eq_false'] at h
  rw [prefixesOK, h.1, Bool.false_or, ← splitOf_any, List.isEmpty_iff.mp h.2, List.any_nil]

/-- An address match on another family never holds. -/
theorem prefixMatch_all_other {f : Family} (hf : pkt.family ≠ f) (side : Side) (ps : List Prefix) :
    (prefixMatch f side ps).all (Match.holds env pkt) = ps.isEmpty := by
  unfold prefixMatch
  cases hps : ps.isEmpty with
  | true => simp
  | false => simp [Match.holds, hf]

theorem addrMatches_famOf (r : RuleIR) (f : Family) :
    addrMatches r (famOf f) = prefixMatch f .saddr (splitOf f r.srcPrefixes) ++
      prefixMatch f .daddr (splitOf f r.dstPrefixes) := by
  cases f <;> rfl

/-- The families of a rule with prefixes: those both of its sides can match. -/
theorem families_any {r : RuleIR} (h : (r.srcPrefixes.isEmpty && r.dstPrefixes.isEmpty) = false)
    (S : Fam → Bool) :
    (families r).any S =
      ((sideOK .ip r.srcPrefixes && sideOK .ip r.dstPrefixes && S .v4) ||
        (sideOK .ip6 r.srcPrefixes && sideOK .ip6 r.dstPrefixes && S .v6)) := by
  simp only [families, h, Bool.false_eq_true, if_false, sideOK, splitOf]
  generalize ((r.srcPrefixes.isEmpty || !(split4 r.srcPrefixes).isEmpty) &&
    (r.dstPrefixes.isEmpty || !(split4 r.dstPrefixes).isEmpty)) = a
  generalize ((r.srcPrefixes.isEmpty || !(split6 r.srcPrefixes).isEmpty) &&
    (r.dstPrefixes.isEmpty || !(split6 r.dstPrefixes).isEmpty)) = b
  cases a <;> cases b <;> simp

/-- Of the lines of a rule with prefixes, only those of the packet's family can match, and
they match where both prefix lists admit the packet. -/
theorem families_addr_any {r : RuleIR}
    (h : (r.srcPrefixes.isEmpty && r.dstPrefixes.isEmpty) = false) (S : Fam → Bool) :
    (families r).any (fun fam => (addrMatches r fam).all (Match.holds env pkt) && S fam) =
      (prefixesOK r.srcPrefixes pkt.src && prefixesOK r.dstPrefixes pkt.dst &&
        S (famOf pkt.family)) := by
  -- The packet's own family.
  have own : (sideOK pkt.family r.srcPrefixes && sideOK pkt.family r.dstPrefixes &&
      ((addrMatches r (famOf pkt.family)).all (Match.holds env pkt) && S (famOf pkt.family))) =
      (prefixesOK r.srcPrefixes pkt.src && prefixesOK r.dstPrefixes pkt.dst &&
        S (famOf pkt.family)) := by
    rw [addrMatches_famOf, List.all_append]
    cases hs : sideOK pkt.family r.srcPrefixes with
    | false =>
        have := prefixesOK_of_not_sideOK .saddr r.srcPrefixes hs
        simp only [Side.of] at this
        simp [this]
    | true =>
        cases hd : sideOK pkt.family r.dstPrefixes with
        | false =>
            have := prefixesOK_of_not_sideOK .daddr r.dstPrefixes hd
            simp only [Side.of] at this
            simp [this]
        | true =>
            rw [prefixMatch_all .saddr r.srcPrefixes hs, prefixMatch_all .daddr r.dstPrefixes hd]
            simp only [Side.of, Bool.and_self, Bool.true_and]
  -- The other one.
  have other : ∀ f : Family, pkt.family ≠ f → (sideOK f r.srcPrefixes &&
      sideOK f r.dstPrefixes &&
      ((addrMatches r (famOf f)).all (Match.holds env pkt) && S (famOf f))) = false := by
    intro f hf
    rw [addrMatches_famOf, List.all_append, prefixMatch_all_other hf, prefixMatch_all_other hf]
    unfold sideOK
    cases hs : r.srcPrefixes.isEmpty with
    | true =>
        have hd : r.dstPrefixes.isEmpty = false := by simpa [hs] using h
        cases (splitOf f r.dstPrefixes).isEmpty <;> simp [hd]
    | false => cases (splitOf f r.srcPrefixes).isEmpty <;> simp
  rw [families_any h]
  cases hf : pkt.family with
  | ip =>
      have h6 := other .ip6 (by rw [hf]; decide)
      rw [hf] at own
      simp only [famOf] at own h6 ⊢
      rw [own, h6, Bool.or_false]
  | ip6 =>
      have h4 := other .ip (by rw [hf]; decide)
      rw [hf] at own
      simp only [famOf] at own h4 ⊢
      rw [own, h4, Bool.false_or]

/-- What a service match admits in the line of one family: ICMP is that of the family, or
either where the line has none. -/
def familyServiceOK (fam : Fam) (m : ServiceMatch) (pkt : Packet) : Bool :=
  match m.protocol, fam with
  | .icmp, .v4 => decide (pkt.l4 = .icmp)
  | .icmp, .v6 => decide (pkt.l4 = .icmpv6)
  | _, _ => serviceOK m pkt

theorem serviceMatch_all (m : ServiceMatch) (fam : Fam) :
    (serviceMatch m fam).all (Match.holds env pkt) = familyServiceOK fam m pkt := by
  have ported : ∀ l4 : L4,
      ((if m.ports.isEmpty then [Match.l4proto [l4]] else [Match.dport l4 (portRanges m.ports)]).all
        (Match.holds env pkt)) =
      (decide (pkt.l4 = l4) && (m.ports.isEmpty ||
        m.ports.any fun pr => decide (pr.start ≤ pkt.dport ∧ pkt.dport ≤ pr.stop))) := by
    intro l4
    cases hempty : m.ports.isEmpty with
    | true => simp [Match.holds]
    | false => simp [Match.holds, portRanges, List.any_map, Function.comp_def]
  cases hm : m.protocol with
  | tcp => simpa [serviceMatch, familyServiceOK, serviceOK, hm] using ported .tcp
  | udp => simpa [serviceMatch, familyServiceOK, serviceOK, hm] using ported .udp
  | any => simp [serviceMatch, familyServiceOK, serviceOK, hm]
  | icmp => cases fam <;> simp [serviceMatch, familyServiceOK, serviceOK, hm, Match.holds]

/-- Where each family carries its own ICMP, the lines that can see a packet agree about
services. -/
theorem familyServiceOK_eq (hp : pkt.Proper) (m : ServiceMatch) {fam : Fam}
    (hfam : fam = .any ∨ fam = famOf pkt.family) :
    familyServiceOK fam m pkt = serviceOK m pkt := by
  cases hm : m.protocol with
  | tcp => simp [familyServiceOK, hm]
  | udp => simp [familyServiceOK, hm]
  | any => simp [familyServiceOK, hm]
  | icmp =>
      rcases hfam with rfl | rfl
      · simp [familyServiceOK, hm]
      · cases hf : pkt.family with
        | ip => simp [famOf, familyServiceOK, serviceOK, hm, hp.1 hf]
        | ip6 => simp [famOf, familyServiceOK, serviceOK, hm, hp.2 hf]

/-- The effect of the lines for one family and service. -/
theorem ruleLine_run (r : RuleIR) (c : String) (fam : Fam) (svc : ServiceMatch) :
    (ruleLine r c fam svc).findSome? (Line.run env pkt) =
      if (ruleConds r fam svc).all (Match.holds env pkt) then
        some (.verdict (verdict r.action)) else none := by
  have main : ∀ stmts : List Stmt, stmts = [] ∨ stmts = [.log ("ngfw:" ++ r.name ++ ": ")] →
      Line.run env pkt ⟨ruleConds r fam svc, stmts ++
        [.counter, .verdict (verdict r.action), .comment (ruleComment r c)]⟩ =
      if (ruleConds r fam svc).all (Match.holds env pkt) then
        some (.verdict (verdict r.action)) else none := by
    intro stmts hs
    apply Line.run_eq
    rcases hs with rfl | rfl <;> rfl
  have inspect : Line.run env pkt ⟨ruleConds r fam svc,
      [.counter, .comment ("profile-inspection:" ++ r.name)]⟩ = none := by
    rw [Line.run_eq (e := none) rfl, ite_self]
  have hlog : (if r.log then [Stmt.log ("ngfw:" ++ r.name ++ ": ")] else []) = [] ∨
      (if r.log then [Stmt.log ("ngfw:" ++ r.name ++ ": ")] else []) =
        [.log ("ngfw:" ++ r.name ++ ": ")] := by
    cases r.log <;> simp
  unfold ruleLine
  simp only
  split
  · rw [List.findSome?_append, List.findSome?_singleton, List.findSome?_singleton, inspect,
      Option.none_or, main _ hlog]
  · rw [List.nil_append, List.findSome?_singleton, main _ hlog]

/-- The matches of a rule line, dimension by dimension. -/
theorem ruleConds_all (r : RuleIR) (fam : Fam) (svc : ServiceMatch) :
    (ruleConds r fam svc).all (Match.holds env pkt) =
      (ifacesOK r.fromIfaces pkt.iif && ifacesOK r.toIfaces pkt.oif &&
        (addrMatches r fam).all (Match.holds env pkt) &&
        (serviceMatch svc fam).all (Match.holds env pkt)) := by
  unfold ruleConds
  rw [List.all_append, List.all_append, List.all_append,
    ifaceMatch_all pkt.iif (fun _ => rfl), ifaceMatch_all pkt.oif (fun _ => rfl)]

theorem lineServices_any (r : RuleIR) (fam : Fam) :
    (lineServices r).any (fun svc => (serviceMatch svc fam).all (Match.holds env pkt)) =
      (r.services.isEmpty || r.services.any fun m => familyServiceOK fam m pkt) := by
  simp only [serviceMatch_all]
  unfold lineServices
  cases r.services.isEmpty with
  | true => simp [familyServiceOK, serviceOK]
  | false => simp

/-- The family of the lines of a rule that can see a packet. -/
def lineFam (r : RuleIR) (pkt : Packet) : Fam :=
  if r.srcPrefixes.isEmpty && r.dstPrefixes.isEmpty then .any else famOf pkt.family

/-- Does a packet match the lines of an IR rule: `matchesRule`, with ICMP read as the lines
that can see the packet read it. -/
def matchesLines (r : RuleIR) (pkt : Packet) : Bool :=
  ifacesOK r.fromIfaces pkt.iif && ifacesOK r.toIfaces pkt.oif &&
    (prefixesOK r.srcPrefixes pkt.src && prefixesOK r.dstPrefixes pkt.dst) &&
    (r.services.isEmpty || r.services.any fun m => familyServiceOK (lineFam r pkt) m pkt)

/-- **The lines of a rule are the rule.** Run over any packet, they have the rule's verdict
when the packet matches in every dimension, and no effect otherwise. -/
theorem ruleLines_run_any {r : RuleIR} {c : String} {lines : List Line}
    (h : ruleLinesWithComment r c = .ok lines) :
    lines.findSome? (Line.run env pkt) =
      if matchesLines r pkt then some (.verdict (verdict r.action)) else none := by
  unfold ruleLinesWithComment at h
  split at h
  · cases h
  · cases h
    rw [findSome?_flatMap]
    have hfam : ∀ fam : Fam, ((lineServices r).flatMap fun svc => ruleLine r c fam svc).findSome?
        (Line.run env pkt) =
        if (lineServices r).any (fun svc => (ruleConds r fam svc).all (Match.holds env pkt)) then
          some (.verdict (verdict r.action)) else none := by
      intro fam
      rw [findSome?_flatMap]
      simp only [ruleLine_run]
      exact findSome?_const _ _ _
    simp only [hfam]
    rw [findSome?_const]
    -- What remains is which lines have all their matches hold.
    congr 1
    simp only [ruleConds_all, ← List.and_any_distrib_left, Bool.and_assoc, matchesLines, lineFam]
    congr 2
    cases hempty : (r.srcPrefixes.isEmpty && r.dstPrefixes.isEmpty) with
    | true =>
        rw [Bool.and_eq_true, List.isEmpty_iff, List.isEmpty_iff] at hempty
        simp only [families, hempty.1, hempty.2, List.isEmpty_nil, Bool.and_self, if_true,
          List.any_cons, List.any_nil, Bool.or_false, addrMatches, List.all_nil, Bool.true_and,
          prefixesOK, Bool.true_or]
        rw [lineServices_any]
    | false =>
        simp only [Bool.false_eq_true, if_false]
        rw [families_addr_any hempty, lineServices_any, Bool.and_assoc]

/-- On packets whose ICMP is their own family's, the lines match where the rule does. -/
theorem matchesLines_eq (hp : pkt.Proper) (r : RuleIR) : matchesLines r pkt = matchesRule r pkt := by
  have hfam : lineFam r pkt = .any ∨ lineFam r pkt = famOf pkt.family := by
    unfold lineFam
    split
    · exact .inl rfl
    · exact .inr rfl
  simp only [matchesLines, matchesRule, familyServiceOK_eq hp _ hfam]

theorem ruleLines_run (hp : pkt.Proper) {r : RuleIR} {c : String} {lines : List Line}
    (h : ruleLinesWithComment r c = .ok lines) :
    lines.findSome? (Line.run env pkt) =
      if matchesRule r pkt then some (.verdict (verdict r.action)) else none := by
  rw [ruleLines_run_any h, matchesLines_eq hp]

/-! ### What translations match -/

/-- Does a destination translation match a packet? -/
def matchesDNAT (d : DNATIR) (pkt : Packet) : Bool :=
  ifacesOK d.inIfaces pkt.iif && decide (d.matchDst = pkt.dst) &&
    serviceOK ⟨d.protocol, d.ports⟩ pkt

/-- Does a source translation match a packet? -/
def matchesSNAT (s : SNATIR) (pkt : Packet) : Bool :=
  ifacesOK s.outIfaces pkt.oif && (s.srcPrefix.map fun pfx => covers pfx pkt.src).getD true

theorem ipKw_eq {a : Addr} : (pkt.family = ipKw a) ↔ a.is4 = decide (pkt.family = .ip) := by
  unfold ipKw
  cases hf : pkt.family <;> cases h4 : a.is4 <;> simp [h4]

/-- Where the line for one protocol applies. -/
theorem dnatPortLine_applies {d : DNATIR} {l4 : L4} {l : Line} (h : dnatPortLine d l4 = .ok l) :
    l.applies env pkt = (ifacesOK d.inIfaces pkt.iif && decide (d.matchDst = pkt.dst) &&
      (decide (pkt.l4 = l4) && (d.ports.isEmpty ||
        d.ports.any fun pr => decide (pr.start ≤ pkt.dport ∧ pkt.dport ≤ pr.stop)))) := by
  have hdst : (decide (pkt.family = ipKw d.matchDst) && decide (d.matchDst = pkt.dst)) =
      decide (d.matchDst = pkt.dst) := by
    by_cases heq : d.matchDst = pkt.dst
    · have hkw : pkt.family = ipKw d.matchDst := by rw [ipKw_eq, heq, pkt.dst_is4]
      simp only [← hkw, decide_true, Bool.true_and]
    · simp [heq]
  unfold dnatPortLine at h
  split at h
  · cases h
  · rename_i hports
    cases h
    rw [Bool.not_eq_true] at hports
    rw [Line.applies, List.all_append, ifaceMatch_all pkt.iif (fun _ => rfl)]
    simp only [List.all_cons, List.all_nil, Match.holds, AddrSet.has, Side.of, Bool.and_true,
      hdst, portRanges, List.any_map, Function.comp_def, hports, Bool.false_or, Bool.and_assoc]

/-- The line of a destination translation applies where the translation matches, and has
ports to match. -/
theorem dnatLine_applies (env : Env) (pkt : Packet) {d : DNATIR} {l : Line}
    (h : dnatLine d = .ok l) :
    (∃ conds, l = ⟨conds, [.counter, .dnat d.translateTo d.toPort,
      .comment (commentWithID "dnat" d.name d.id)]⟩) ∧
    l.applies env pkt = matchesDNAT d pkt := by
  have hshape : ∀ {l4 : L4}, dnatPortLine d l4 = .ok l → ∃ conds, l = ⟨conds, [.counter,
      .dnat d.translateTo d.toPort, .comment (commentWithID "dnat" d.name d.id)]⟩ := by
    intro l4 hl
    unfold dnatPortLine at hl
    split at hl
    · cases hl
    · cases hl
      exact ⟨_, rfl⟩
  unfold dnatLine at h
  unfold matchesDNAT serviceOK
  cases hp : d.protocol with
  | tcp =>
      simp only [hp] at h
      exact ⟨hshape h, dnatPortLine_applies h⟩
  | udp =>
      simp only [hp] at h
      exact ⟨hshape h, dnatPortLine_applies h⟩
  | icmp => simp [hp] at h
  | any => simp [hp] at h

/-- **The line of a destination translation is the translation**, provided its target is
of the family it matches. -/
theorem dnatLine_run {d : DNATIR} {l : Line} (h : dnatLine d = .ok l)
    (hfam : d.translateTo.is4 = d.matchDst.is4) :
    l.run env pkt = if matchesDNAT d pkt then some (.dnat d.translateTo d.toPort) else none := by
  obtain ⟨⟨conds, hl⟩, happlies⟩ := dnatLine_applies env pkt h
  rw [Line.run, happlies, hl]
  cases hm : matchesDNAT d pkt with
  | false => rfl
  | true =>
      -- The packet is of the family the line matches, so the target is not skipped.
      simp only [matchesDNAT, Bool.and_eq_true, decide_eq_true_eq] at hm
      have h4 : d.translateTo.is4 = decide (pkt.family = .ip) := by
        rw [hfam, hm.1.2, pkt.dst_is4]
      simp only [List.findSome?_cons, Stmt.effect, h4, if_true]

/-- The line of a source translation applies where the translation matches. -/
theorem snatLine_applies (s : SNATIR) : (snatLine s).applies env pkt = matchesSNAT s pkt := by
  unfold snatLine matchesSNAT Line.applies
  rw [List.all_append, ifaceMatch_all pkt.oif (fun _ => rfl)]
  congr 1
  cases s.srcPrefix with
  | none => rfl
  | some pfx =>
      simp only [List.all_cons, List.all_nil, Match.holds, AddrSet.has, Side.of, List.any_cons,
        List.any_nil, Bool.or_false, Bool.and_true, Option.map_some, Option.getD_some]
      cases hc : covers pfx pkt.src with
      | false => simp
      | true =>
          have hkw : pkt.family = ipKw pfx.addr := by
            rw [ipKw_eq, family_of_covers hc, pkt.src_is4]
          simp [hkw]

/-! ### Whole chains

Chains are appended blocks, so a run over a chain is a run over its blocks, which is first match
over the rules. -/

/-- The blocks of the rules, run one after the other: the first matching rule decides. -/
theorem blocks_run {c : String} {rules : List RuleIR} {blocks : List (List Line)}
    (h : List.Forall₂ (fun r ls => ruleLinesWithComment r c = .ok ls) rules blocks) :
    blocks.flatten.findSome? (Line.run env pkt) =
      rules.findSome? fun r =>
        if matchesLines r pkt then some (.verdict (verdict r.action)) else none := by
  have hflat : blocks.flatten = blocks.flatMap id := by simp [List.flatMap_id]
  rw [hflat, findSome?_flatMap]
  refine (findSome?_forall₂ ?_ h).symm
  intro r ls hls
  exact (ruleLines_run_any hls).symm

/-- Without inline inspection and threat intel, nothing ends the evaluation of a packet
of a new flow before the policy's rules. -/
theorem forwardPreamble_run {ir : IR} (hids : ∀ ids, ir.ids = some ids → ids.prevent = false)
    (hintel : intelEnabled ir = false) (hct : pkt.ct = .new ∨ pkt.ct = .untracked) :
    (forwardPreamble ir).findSome? (Line.run env pkt) = none := by
  have hqueue : (match ir.ids with
      | some ids => if ids.prevent then [queueStatement ids] else []
      | none => []) = ([] : List Line) := by
    cases hi : ir.ids with
    | none => rfl
    | some ids => simp [hids ids hi]
  have hstate : ∀ stmts, Line.run env pkt ⟨[.ctState [.established, .related]], stmts⟩ = none := by
    intro stmts
    rcases hct with h | h <;> simp [Line.run, Line.applies, Match.holds, h]
  have hinvalid : Line.run env pkt invalidDrop = none := by
    rcases hct with h | h <;> simp [invalidDrop, Line.run, Line.applies, Match.holds, h]
  have hmss : Line.run env pkt ⟨[.tcpFlagsSyn], [.clampMss, .counter, .comment "mss-clamp"]⟩ =
      none := by
    simp [Line.run, List.findSome?_cons, Stmt.effect]
  unfold forwardPreamble
  simp only [hqueue, hintel, List.nil_append, List.findSome?_append, List.findSome?_cons,
    establishedAccept, hstate, hinvalid, List.findSome?_nil, Option.or_none, Bool.false_eq_true,
    if_false]
  split <;> split <;> simp [hmss, hstate]

/-- **The forward chain is first match over the rules**, for packets of new flows, without
inline inspection and threat intel. -/
theorem forward_run (hp : pkt.Proper) {ir : IR} {rs : Ruleset} (hR : Rendered ir rs)
    (hplain : ∀ r ∈ ir.rules, r.appIDOnly = false)
    (hids : ∀ ids, ir.ids = some ids → ids.prevent = false) (hintel : intelEnabled ir = false)
    (hct : pkt.ct = .new ∨ pkt.ct = .untracked) :
    rs.forward.run env pkt = ir.rules.findSome? fun r =>
      if matchesRule r pkt then some (.verdict (verdict r.action)) else none := by
  obtain ⟨blocks, hblocks, hlines⟩ := hR.forward
  have hfilter : (ir.rules.filter fun r => !r.appIDOnly) = ir.rules := by
    rw [List.filter_eq_self]
    intro r hr
    simp [hplain r hr]
  rw [hfilter] at hblocks
  have hdefault : Line.run env pkt ⟨[], [.counter, .comment "default-drop"]⟩ = none := rfl
  rw [Chain.run, hlines, List.findSome?_append, List.findSome?_append,
    forwardPreamble_run hids hintel hct, blocks_run hblocks, List.findSome?_singleton, hdefault,
    Option.none_or, Option.or_none]
  simp only [matchesLines_eq hp]

end Lines

end Phragma.Renderers.Nftables
