import Phragma.Explain.Agreement

/-!
# Phragma.Renderers.HostInput

**Host-input rules mean the same in the policy and in the kernel.**

The policy's meaning of its host-input section is first match over the enabled rules, with
zones, addresses and services looked up by name among the policy's objects
(`hostInputVerdict`). The rendered input chain is what the kernel runs: the lines into which
compiler and renderer expand each rule, behind the three lines for loopback and connection
tracking, and the chain's declared policy behind those. `hostInput_agrees` compares the two
for every packet of a new flow that arrives on an interface other than loopback.

ICMP is read by family: a rule's ICMP is the ICMP of the packet's own family. A datagram
that carries the ICMP of the other family, which neither protocol defines, still has a
verdict; it counts as ICMP only to a rule that names no source addresses, whose line is
written without a family.

`hostInput_reachable_iff` is about the check against **management lockout**: a policy that
denies by default must have an enabled allow rule. The check does not look at what stands
before that rule, so it prevents a lockout exactly when some packet that the allow rule
matches is matched by no enabled deny or reject rule before it.
-/

namespace Phragma.Renderers.Nftables

open Lib Go Policy Compiler Nft

/-! ### The meaning of the host-input section -/

/-- A list of references that restricts nothing. -/
def unrestricted (refs : List String) : Bool := refs.isEmpty || refs.contains Any

/-- A zone list admits the interfaces of the zones it names. -/
def zonesAdmit (p : Phragma.Policy) (refs : List String) (ifc : String) : Bool :=
  unrestricted refs || p.zones.any fun z => refs.contains z.name && z.interfaces.contains ifc

/-- An address list admits the addresses in the CIDRs of the objects it names. -/
def addressesAdmit (p : Phragma.Policy) (refs : List String) (a : Addr) : Bool :=
  unrestricted refs || p.addresses.any fun ad =>
    refs.contains ad.name && (parsePrefix ad.cidr).any fun pfx => pfx.contains a

/-- Does a packet carry the ICMP of its own family? -/
def ownICMP (pkt : Packet) : Bool :=
  match pkt.family with
  | .ip => decide (pkt.l4 = .icmp)
  | .ip6 => decide (pkt.l4 = .icmpv6)

/-- Does it carry ICMP of any family? -/
def anyICMP (pkt : Packet) : Bool := decide (pkt.l4 = .icmp) || decide (pkt.l4 = .icmpv6)

/-- A service admits packets of its protocol to one of its ports; no ports means all, and a
range without an end is one port. -/
def serviceAdmits (anySource : Bool) (s : Service) (pkt : Packet) : Bool :=
  let toPort := s.ports.isEmpty || s.ports.any fun pr =>
    decide (pr.start ≤ pkt.dport) && decide (pkt.dport ≤ if pr.stop = 0 then pr.start else pr.stop)
  match s.protocol with
  | .tcp => decide (pkt.l4 = .tcp) && toPort
  | .udp => decide (pkt.l4 = .udp) && toPort
  | .icmp => if anySource then anyICMP pkt else ownICMP pkt
  | .any => true
  | .unspecified => false
  | .unrecognized _ => false

/-- A service list admits what one of the services it names admits. -/
def servicesAdmit (p : Phragma.Policy) (anySource : Bool) (refs : List String) (pkt : Packet) :
    Bool :=
  unrestricted refs ||
    p.services.any fun s => refs.contains s.name && serviceAdmits anySource s pkt

/-- Does a host-input rule match a packet? -/
def hostInputMatches (p : Phragma.Policy) (pkt : Packet) (r : HostInputRule) : Bool :=
  zonesAdmit p r.fromZones pkt.iif && addressesAdmit p r.sourceAddresses pkt.src &&
    servicesAdmit p (unrestricted r.sourceAddresses) r.services pkt

/-- What an action does to a packet. -/
def actionVerdict : Action → Verdict
  | .allow => .accept
  | .reject => .reject
  | _ => .drop

/-- What becomes of a packet that no rule matches: unspecified means allow. -/
def defaultVerdict : Action → Verdict
  | .deny => .drop
  | _ => .accept

/-- The verdict of the first enabled rule that matches. -/
def firstVerdict (p : Phragma.Policy) (rules : List HostInputRule) (pkt : Packet) :
    Option Verdict :=
  rules.findSome? fun r =>
    if !r.disabled && hostInputMatches p pkt r then some (actionVerdict r.action) else none

/-- **The policy's verdict** on a packet to the firewall. -/
def hostInputVerdict (p : Phragma.Policy) (pkt : Packet) : Verdict :=
  let hi := p.hostInput.getD {}
  (firstVerdict p hi.rules pkt).getD (defaultVerdict hi.defaultAction)

/-- The policy a base chain declares. -/
def chainPolicy (c : Chain) : Verdict :=
  if "policy drop;".toList.isSuffixOf c.decl.toList then .drop else .accept

/-- **The kernel's verdict**: that of the input chain, or of its declared policy. -/
def inputVerdict (rs : Ruleset) (env : Env) (pkt : Packet) : Verdict :=
  match rs.input.run env pkt with
  | some (.verdict v) => v
  | _ => chainPolicy rs.input

/-! ### Reference lists -/

/-- The test of a resolved list, reference by reference. -/
theorem resolveRefs_test {β : Type} {find : String → Option β} {unknown : String → String}
    {refs : List String} {out : List β} (test : β → Bool)
    (h : resolveRefs Any (fun r => (find r).map ([·])) unknown [] refs = .ok out) :
    (out.isEmpty || out.any test) =
      (unrestricted refs || refs.any fun r => (find r).any test) ∧
    out.isEmpty = unrestricted refs := by
  unfold unrestricted
  rcases resolveRefs_ok h with ⟨hany, rfl⟩ | ⟨hany, hall, rfl⟩
  · simp [hany]
  · have hcontains : refs.contains Any = false := by simpa using hany
    have hempty : (refs.flatMap fun r => ((find r).map ([·])).getD []).isEmpty = refs.isEmpty := by
      cases refs with
      | nil => rfl
      | cons r rs =>
          obtain ⟨b, hb⟩ := Option.isSome_iff_exists.mp
            (by simpa using hall r List.mem_cons_self)
          simp [hb]
    rw [List.nil_append, hempty, hcontains, Bool.or_false]
    refine ⟨?_, rfl⟩
    rw [List.any_flatMap]
    congr 1
    refine any_congr_of_mem fun r _ => ?_
    cases find r <;> simp

section Compiled

variable {q : Phragma.Policy} {c : Compilation} (hA : Accepted q) (hT : TablesOf q c)

include hA hT

/-- **Zones**: the interfaces a zone list resolves to, when every zone has one. -/
theorem ifacesOK_eq (hne : ∀ z ∈ q.zones, z.interfaces ≠ []) {refs out : List String}
    (h : resolveIfaces c refs = .ok out) (ifc : String) :
    ifacesOK out ifc = zonesAdmit q refs ifc := by
  unfold ifacesOK zonesAdmit unrestricted
  by_cases hany : refs = [] ∨ Any ∈ refs
  · rw [resolveIfaces_any h hany]
    rcases hany with rfl | hany
    · rfl
    · simp [hany]
  · rw [not_or] at hany
    have hmem := mem_resolveIfaces hA.zone_names hT.zoneIfaces h hany.2
    have hout : out ≠ [] := by
      obtain ⟨r, hr⟩ := List.exists_mem_of_ne_nil refs hany.1
      obtain ⟨z, hz, rfl⟩ := zone_of_resolveIfaces hT.zoneIfaces h hany.2 hr
      obtain ⟨i, hi⟩ := List.exists_mem_of_ne_nil _ (hne z hz)
      exact List.ne_nil_of_mem ((hmem i).mpr ⟨z, hz, hr, hi⟩)
    have hcontains : refs.contains Any = false := by simpa using hany.2
    rw [List.isEmpty_eq_false_iff.mpr hany.1, List.isEmpty_eq_false_iff.mpr hout, hcontains]
    simp only [Bool.false_or]
    rw [Bool.eq_iff_iff, List.contains_iff_mem, hmem]
    simp only [List.any_eq_true, Bool.and_eq_true, List.contains_iff_mem]

/-- **Addresses**: the prefixes an address list resolves to. -/
theorem prefixesOK_eq {refs : List String} {out : List Prefix}
    (h : resolvePrefixes c refs = .ok out) {a : Addr} (ha : a.zone = "") :
    prefixesOK out a = addressesAdmit q refs a ∧ out.isEmpty = unrestricted refs := by
  obtain ⟨htest, hempty⟩ := resolveRefs_test (fun pfx => covers pfx a) h
  refine ⟨?_, hempty⟩
  rw [prefixesOK, htest, addressesAdmit]
  congr 1
  rw [Bool.eq_iff_iff]
  simp only [List.any_eq_true, Bool.and_eq_true, List.contains_iff_mem, Option.any_eq_true]
  constructor
  · rintro ⟨r, hr, pfx, hpfx, hcov⟩
    obtain ⟨ad, had, rfl, hparse⟩ := (lookup_addrs_iff hA hT).mp hpfx
    exact ⟨ad, had, hr, pfx, hparse, by rwa [contains_eq_covers pfx ha]⟩
  · rintro ⟨ad, had, hr, pfx, hparse, hcov⟩
    exact ⟨ad.name, hr, pfx, (lookup_addrs_iff hA hT).mpr ⟨ad, had, rfl, hparse⟩,
      by rwa [← contains_eq_covers pfx ha]⟩

omit hA hT in
/-- One service, in the line of one family. -/
theorem familyServiceOK_service {s : Service} {m : ServiceMatch} (hcheck : checkService s = [])
    (hm : Compiler.serviceMatch s = .ok m) (pkt : Packet) (anySource : Bool) :
    familyServiceOK (if anySource then .any else famOf pkt.family) m pkt =
      serviceAdmits anySource s pkt := by
  have hports : ∀ pr ∈ s.ports, s.protocol = .tcp ∨ s.protocol = .udp →
      checkPortRange ("service " ++ quote s.name) pr = [] := by
    intro pr hpr hp
    unfold checkService at hcheck
    rcases hp with hp | hp <;> simp only [hp, List.flatMap_eq_nil_iff] at hcheck <;>
      exact hcheck pr hpr
  have hempty : (compilePorts s.ports).isEmpty = s.ports.isEmpty := by simp [compilePorts]
  have hrange : (fun pr : Policy.PortRange => decide (pr.start ≤ pkt.dport) &&
      decide (pkt.dport ≤ if pr.stop = 0 then pr.start else pr.stop)) =
      Explain.portInRange pkt.dport := rfl
  unfold Compiler.serviceMatch at hm
  unfold serviceAdmits
  cases hp : s.protocol with
  | tcp =>
      simp only [hp, Except.ok.injEq] at hm
      subst hm
      have hany := Explain.compilePorts_any (fun pr hpr => hports pr hpr (.inl hp)) pkt.dport
      simp only [familyServiceOK, serviceOK, hempty, hany, hrange]
  | udp =>
      simp only [hp, Except.ok.injEq] at hm
      subst hm
      have hany := Explain.compilePorts_any (fun pr hpr => hports pr hpr (.inr hp)) pkt.dport
      simp only [familyServiceOK, serviceOK, hempty, hany, hrange]
  -- ICMP is rendered under the name of the family
  | icmp =>
      simp only [hp, Except.ok.injEq] at hm
      subst hm
      cases anySource with
      | true => rfl
      | false =>
          simp only [Bool.false_eq_true, if_false]
          cases hf : pkt.family <;> simp [familyServiceOK, famOf, ownICMP, hf]
  | any =>
      simp only [hp, Except.ok.injEq] at hm
      subst hm
      rfl
  | unspecified => simp [hp] at hm
  | unrecognized n => simp [hp] at hm

/-- **Services**: the matches a service list resolves to. -/
theorem servicesOK_eq {refs : List String} {out : List ServiceMatch}
    (h : resolveServices c refs = .ok out) (pkt : Packet) (anySource : Bool) :
    (out.isEmpty || out.any fun m =>
      familyServiceOK (if anySource then .any else famOf pkt.family) m pkt) =
      servicesAdmit q anySource refs pkt := by
  obtain ⟨htest, -⟩ := resolveRefs_test (fun m =>
    familyServiceOK (if anySource then .any else famOf pkt.family) m pkt) h
  rw [htest, servicesAdmit]
  by_cases hu : unrestricted refs = true
  · rw [hu, Bool.true_or, Bool.true_or]
  · -- every reference is resolved, so a service of the policy stands for it
    have hall : ∀ r ∈ refs, ∃ s ∈ q.services, s.name = r ∧ ∃ m, c.svcs.lookup r = some m ∧
        familyServiceOK (if anySource then .any else famOf pkt.family) m pkt =
          serviceAdmits anySource s pkt := by
      intro r hr
      rcases resolveRefs_ok h with ⟨hany, -⟩ | ⟨-, hall, -⟩
      · simp [unrestricted, hany] at hu
      · obtain ⟨m, hm⟩ := Option.isSome_iff_exists.mp
          (by simpa using hall r hr : (c.svcs.lookup r).isSome = true)
        obtain ⟨s, hs, hcheck, hsm⟩ := service_of_lookup hA hT hm
        obtain ⟨s, hmem, hname, rfl⟩ := exists_of_lookup_tableOf hs
        exact ⟨s, hmem, hname, m, hm, familyServiceOK_service hcheck hsm pkt anySource⟩
    congr 1
    rw [Bool.eq_iff_iff]
    simp only [List.any_eq_true, Bool.and_eq_true, List.contains_iff_mem, Option.any_eq_true]
    constructor
    · rintro ⟨r, hr, m, hm, hok⟩
      obtain ⟨s, hs, rfl, m', hm', heq⟩ := hall r hr
      rw [hm] at hm'
      cases hm'
      exact ⟨s, hs, hr, heq ▸ hok⟩
    · rintro ⟨s, hs, hr, hok⟩
      obtain ⟨s', hs', hname, m, hm, heq⟩ := hall s.name hr
      have hsame : s' = s := List.inj_on_of_nodup_map hA.services.names hs' hs hname
      exact ⟨s.name, hr, m, hm, by rw [heq, hsame]; exact hok⟩

/-- **Rules**: the lines of a compiled host-input rule match where the rule does. -/
theorem matchesLines_hostInput (hne : ∀ z ∈ q.zones, z.interfaces ≠ []) {r : HostInputRule}
    {rir : RuleIR} (h : compileHostInputRule c r = .ok rir) (pkt : Packet) :
    matchesLines rir pkt = hostInputMatches q pkt r ∧
      verdict rir.action = actionVerdict r.action := by
  obtain ⟨hfrom, hto, hsrc, hdst, hsvc, haction⟩ := compileHostInputRule_ok h
  obtain ⟨hprefixes, hempty⟩ := prefixesOK_eq hA hT hsrc pkt.src_zone
  have hfam : lineFam rir pkt =
      if unrestricted r.sourceAddresses then .any else famOf pkt.family := by
    rw [lineFam, hdst, hempty, List.isEmpty_nil, Bool.and_true]
  refine ⟨?_, ?_⟩
  · rw [matchesLines, hostInputMatches, ifacesOK_eq hA hT hne hfrom, hto, hdst, hfam,
      servicesOK_eq hA hT hsvc, hprefixes]
    simp only [ifacesOK, prefixesOK, List.isEmpty_nil, Bool.true_or, Bool.and_true]
  · cases hact : r.action <;> rw [hact] at haction <;> simp [actionFromProto] at haction <;>
      rw [← haction] <;> rfl

end Compiled

/-! ### The input chain -/

variable {env : Env} {pkt : Packet}

/-- **The input chain is first match over the rules**, for packets of new flows that do not
arrive on loopback. -/
theorem input_run {ir : IR} {rs : Ruleset} (hR : Rendered ir rs) (hct : pkt.ct = .new)
    (hlo : pkt.iif ≠ "lo") :
    rs.input.run env pkt = ir.hostInputRules.findSome? fun r =>
      if matchesLines r pkt then some (.verdict (verdict r.action)) else none := by
  obtain ⟨blocks, hblocks, hlines⟩ := hR.input
  have hloopback : Line.run env pkt ⟨[.iifname ["lo"]], [.verdict .accept]⟩ = none := by
    simp [Line.run, Line.applies, Match.holds, hlo]
  have hestablished : Line.run env pkt establishedAccept = none := by
    simp [establishedAccept, Line.run, Line.applies, Match.holds, hct]
  have hinvalid : Line.run env pkt invalidDrop = none := by
    simp [invalidDrop, Line.run, Line.applies, Match.holds, hct]
  have hdefault : (if ir.hostInputDefault = some .deny then
      [(⟨[], [.counter, .comment "default-input-drop"]⟩ : Line)] else []).findSome?
        (Line.run env pkt) = none := by
    split <;> rfl
  rw [Chain.run, hlines, List.findSome?_append, List.findSome?_append, hdefault,
    blocks_run hblocks]
  simp only [List.findSome?_cons, hloopback, hestablished, hinvalid, List.findSome?_nil,
    Option.none_or, Option.or_none]

/-- The declared policy of the input chain. -/
theorem chainPolicy_input {ir : IR} {rs : Ruleset} (h : renderRuleset ir = .ok rs) :
    chainPolicy rs.input = inputDefaultPolicy ir.hostInputDefault := by
  unfold renderRuleset at h
  obtain ⟨hostLines, -, h⟩ := bind_ok.mp h
  obtain ⟨ruleLines, -, h⟩ := bind_ok.mp h
  obtain ⟨dnatLines, -, h⟩ := bind_ok.mp h
  cases h
  unfold chainPolicy inputDefaultPolicy
  simp only
  split <;> decide

/-- The rule loop over the IR is the rule loop over the policy. -/
theorem findSome?_hostInput {q : Phragma.Policy} {c : Compilation} (hA : Accepted q)
    (hT : TablesOf q c) (hne : ∀ z ∈ q.zones, z.interfaces ≠ []) :
    ∀ {rules : List HostInputRule} {irs : List RuleIR},
    List.Forall₂ (fun r ir => compileHostInputRule c r = .ok ir)
      (rules.filter fun r => !r.disabled) irs →
    (irs.findSome? fun r => if matchesLines r pkt then some (Effect.verdict (verdict r.action))
      else none) = (firstVerdict q rules pkt).map .verdict := by
  intro rules
  induction rules with
  | nil => intro irs h; cases h; rfl
  | cons r rules ih =>
      intro irs h
      cases hd : r.disabled with
      | true =>
          rw [List.filter_cons_of_neg (by simp [hd])] at h
          rw [ih h, firstVerdict, firstVerdict, List.findSome?_cons, hd]
          rfl
      | false =>
          rw [List.filter_cons_of_pos (by simp [hd])] at h
          cases h with
          | @cons _ rir _ irs hr hrest =>
          obtain ⟨hmatch, hverdict⟩ := matchesLines_hostInput hA hT hne hr pkt
          rw [List.findSome?_cons, hmatch, ih hrest, hverdict, firstVerdict, firstVerdict,
            List.findSome?_cons, hd, Bool.not_false, Bool.true_and]
          cases hostInputMatches q pkt r <;> rfl

/-- The chain's verdict is the verdict of the normalized policy. -/
theorem inputVerdict_normalized {H : IdentityHash} {p : Phragma.Policy} {ir : IR} {rs : Ruleset}
    (hcompile : Compile H p = .ok ir) (hrender : renderRuleset ir = .ok rs)
    (hzones : ∀ z ∈ p.zones, z.interfaces ≠ []) (hct : pkt.ct = .new) (hlo : pkt.iif ≠ "lo") :
    inputVerdict rs env pkt = hostInputVerdict (normalizeIdentities H p) pkt := by
  obtain ⟨hvalid, c, hC⟩ := Compile_ok hcompile
  have hA := accepted_of_Validate hvalid
  generalize hq : normalizeIdentities H p = q at hvalid hC hA
  have hne : ∀ z ∈ q.zones, z.interfaces ≠ [] := by rw [← hq]; exact hzones
  have hrun : rs.input.run env pkt = _ := input_run (rendered_of_renderRuleset hrender) hct hlo
  rw [inputVerdict, hrun, chainPolicy_input hrender, hostInputVerdict]
  have hhost := hC.hostInput
  cases hhi : q.hostInput with
  | none =>
      rw [hhi, compileHostInput, Except.ok.injEq, Prod.mk.injEq] at hhost
      rw [← hhost.1, ← hhost.2]
      rfl
  | some hi =>
      rw [hhi] at hhost
      rw [findSome?_hostInput hA hC.toTablesOf hne (compileHostInput_ok hhost)]
      have hdefault : inputDefaultPolicy ir.hostInputDefault = defaultVerdict hi.defaultAction := by
        unfold compileHostInput at hhost
        obtain ⟨action, haction, hhost⟩ := bind_ok.mp hhost
        obtain ⟨rules, -, hhost⟩ := bind_ok.mp hhost
        obtain ⟨hsome, -⟩ := Prod.mk.inj (Except.ok.inj hhost)
        rw [← hsome]
        rcases hA.hostInput_default hi hhi with h | h | h <;> rw [h] at haction ⊢ <;>
          cases haction <;> rfl
      rw [hdefault]
      simp only [Option.getD_some]
      cases firstVerdict q hi.rules pkt <;> rfl

/-- Normalization does not change the meaning of the host-input section. -/
theorem hostInputVerdict_normalize (H : IdentityHash) (p : Phragma.Policy) (pkt : Packet) :
    hostInputVerdict (normalizeIdentities H p) pkt = hostInputVerdict p pkt := by
  have hmatches : hostInputMatches (normalizeIdentities H p) pkt = hostInputMatches p pkt := rfl
  have hhost : (normalizeIdentities H p).hostInput = (normalizeHostInput H p).1 := rfl
  simp only [hostInputVerdict, firstVerdict, hmatches, hhost]
  cases hhi : p.hostInput with
  | none => simp only [normalizeHostInput, hhi]
  | some hi =>
      have hmap := normalizeItems_map (K := hostInputKind H)
        (f := fun r : HostInputRule => if !r.disabled && hostInputMatches p pkt r then
          some (actionVerdict r.action) else none) (fun _ _ => rfl) [] hi.rules
      have hfirst := congrArg (List.findSome? id) hmap
      simp only [List.findSome?_map, Function.id_comp] at hfirst
      simp only [normalizeHostInput, hhi, Option.getD_some, hfirst]

/-- **Host-input rules mean the same in the policy and in the kernel.** For every policy in
which every zone has an interface and which compiles and renders, and for every packet of a
new flow that arrives on an interface other than loopback, the verdict of the rendered
input chain is that of the first enabled host-input rule that matches the packet, and
otherwise the default action. -/
theorem hostInput_agrees {H : IdentityHash} {p : Phragma.Policy} {ir : IR} {rs : Ruleset}
    (hcompile : Compile H p = .ok ir) (hrender : renderRuleset ir = .ok rs)
    (hzones : ∀ z ∈ p.zones, z.interfaces ≠ []) (env : Env) (pkt : Packet) (hct : pkt.ct = .new)
    (hlo : pkt.iif ≠ "lo") : inputVerdict rs env pkt = hostInputVerdict p pkt := by
  rw [inputVerdict_normalized hcompile hrender hzones hct hlo, hostInputVerdict_normalize]

/-- A branch router: SSH from inside, and ping over IPv6 from one network, are let in. -/
def branchRouter : Phragma.Policy where
  zones := [{ name := "lan", interfaces := ["eth1"] }, { name := "wan", interfaces := ["eth0"] }]
  addresses := [{ name := "noc", cidr := "2001:db8::/32" }]
  services := [{ name := "ssh", protocol := .tcp, ports := [{ start := 22 }] },
    { name := "ping", protocol := .icmp }]
  hostInput := some {
    defaultAction := .deny
    rules := [
      { id := "a", name := "old", action := .allow, disabled := true },
      { id := "b", name := "admin", fromZones := ["lan"], services := ["ssh"], action := .allow },
      { id := "c", name := "noc-ping", sourceAddresses := ["noc"], services := ["ping"],
        action := .allow }] }

/-- An echo request from the monitored network. -/
def monitorPing : Packet :=
  { iif := "eth0", oif := "", header := .ip6 (0x20010db8 <<< 96) 1, l4 := .icmpv6, dport := 0,
    ct := .new, syn := false }

theorem hostInput_agrees_branchRouter :
    ∃ ir rs, Compile .zero branchRouter = .ok ir ∧ renderRuleset ir = .ok rs ∧
      inputVerdict rs .empty monitorPing = hostInputVerdict branchRouter monitorPing ∧
      hostInputVerdict branchRouter monitorPing = .accept := by
  have hcompile : ∃ ir rs, Compile .zero branchRouter = .ok ir ∧ renderRuleset ir = .ok rs :=
    ⟨_, _, rfl, rfl⟩
  obtain ⟨ir, rs, hir, hrs⟩ := hcompile
  refine ⟨ir, rs, hir, hrs, ?_, by decide +kernel⟩
  exact hostInput_agrees hir hrs (by decide) .empty monitorPing rfl (by decide)

/-! ### Management lockout -/

/-- Some packet of a new flow from an interface other than loopback is accepted. -/
def Manageable (rs : Ruleset) (env : Env) : Prop :=
  ∃ pkt : Packet, pkt.ct = .new ∧ pkt.iif ≠ "lo" ∧ inputVerdict rs env pkt = .accept

/-- An enabled allow rule is **exposed**: it matches a packet from an interface other than
loopback that no enabled deny or reject rule before it matches. -/
def ExposedAllow (p : Phragma.Policy) (rules : List HostInputRule) : Prop :=
  ∃ before r after, rules = before ++ r :: after ∧ r.disabled = false ∧ r.action = .allow ∧
    ∃ pkt : Packet, pkt.ct = .new ∧ pkt.iif ≠ "lo" ∧ hostInputMatches p pkt r = true ∧
      ∀ d ∈ before, d.disabled = false → d.action ≠ .allow → hostInputMatches p pkt d = false

theorem actionVerdict_accept {a : Action} : actionVerdict a = .accept ↔ a = .allow := by
  cases a <;> simp [actionVerdict]

/-- The first match accepts exactly when an allow rule matches before every enabled deny or
reject rule that does. -/
theorem firstVerdict_accept_iff {p : Phragma.Policy} : ∀ {rules : List HostInputRule},
    firstVerdict p rules pkt = some .accept ↔
      ∃ before r after, rules = before ++ r :: after ∧ r.disabled = false ∧ r.action = .allow ∧
        hostInputMatches p pkt r = true ∧
        ∀ d ∈ before, d.disabled = false → d.action ≠ .allow → hostInputMatches p pkt d = false := by
  intro rules
  induction rules with
  | nil =>
      constructor
      · intro h; cases h
      · rintro ⟨before, r, after, h, -⟩
        exact absurd h (by simp)
  | cons a rules ih =>
      rw [firstVerdict, List.findSome?_cons]
      by_cases ha : (!a.disabled && hostInputMatches p pkt a) = true
      · -- the first rule decides
        rw [if_pos ha, Option.some.injEq, actionVerdict_accept]
        simp only [Bool.and_eq_true, Bool.not_eq_true'] at ha
        constructor
        · intro hallow
          exact ⟨[], a, rules, rfl, ha.1, hallow, ha.2, fun d hd => by cases hd⟩
        · rintro ⟨before, r, after, heq, hd, hallow, hmatch, hbefore⟩
          cases before with
          | nil =>
              rw [List.nil_append, List.cons.injEq] at heq
              rw [heq.1]
              exact hallow
          | cons b before =>
              rw [List.cons_append, List.cons.injEq] at heq
              obtain ⟨rfl, -⟩ := heq
              by_contra hdeny
              rw [hbefore a List.mem_cons_self ha.1 hdeny] at ha
              exact absurd ha.2 (by decide)
      · rw [if_neg ha]
        refine Iff.trans ih ?_
        simp only [Bool.and_eq_true, Bool.not_eq_true', not_and, Bool.not_eq_true] at ha
        constructor
        · rintro ⟨before, r, after, rfl, hd, hallow, hmatch, hbefore⟩
          refine ⟨a :: before, r, after, rfl, hd, hallow, hmatch, ?_⟩
          intro d hdmem hdis hdeny
          rcases List.mem_cons.mp hdmem with rfl | hdmem
          · exact ha hdis
          · exact hbefore d hdmem hdis hdeny
        · rintro ⟨before, r, after, heq, hd, hallow, hmatch, hbefore⟩
          cases before with
          | nil =>
              rw [List.nil_append, List.cons.injEq] at heq
              obtain ⟨rfl, -⟩ := heq
              rw [ha hd] at hmatch
              cases hmatch
          | cons b before =>
              rw [List.cons_append, List.cons.injEq] at heq
              exact ⟨before, r, after, heq.2, hd, hallow, hmatch,
                fun d hdmem => hbefore d (List.mem_cons_of_mem _ hdmem)⟩

/-- Where the default denies, what is accepted is what a rule accepts. -/
theorem hostInputVerdict_accept_iff {p : Phragma.Policy} {hi : HostInput}
    (hhi : p.hostInput = some hi) (hdeny : hi.defaultAction = .deny) :
    hostInputVerdict p pkt = .accept ↔ firstVerdict p hi.rules pkt = some .accept := by
  simp only [hostInputVerdict, hhi, Option.getD_some, hdeny, defaultVerdict]
  cases firstVerdict p hi.rules pkt <;> simp

/-- **When the lockout check keeps its promise.** A policy that denies host input by default
leaves the firewall manageable if and only if one of its enabled allow rules is exposed. -/
theorem hostInput_reachable_iff {H : IdentityHash} {p : Phragma.Policy} {ir : IR} {rs : Ruleset}
    {hi : HostInput} (hcompile : Compile H p = .ok ir) (hrender : renderRuleset ir = .ok rs)
    (hzones : ∀ z ∈ p.zones, z.interfaces ≠ []) (hhi : p.hostInput = some hi)
    (hdeny : hi.defaultAction = .deny) (env : Env) :
    Manageable rs env ↔ ExposedAllow p hi.rules := by
  have hverdict : ∀ pkt : Packet, pkt.ct = .new → pkt.iif ≠ "lo" →
      (inputVerdict rs env pkt = .accept ↔ firstVerdict p hi.rules pkt = some .accept) := by
    intro pkt hct hlo
    rw [inputVerdict_normalized hcompile hrender hzones hct hlo, hostInputVerdict_normalize,
      hostInputVerdict_accept_iff hhi hdeny]
  constructor
  · rintro ⟨pkt, hct, hlo, haccept⟩
    obtain ⟨before, r, after, heq, hd, hallow, hmatch, hbefore⟩ :=
      firstVerdict_accept_iff.mp ((hverdict pkt hct hlo).mp haccept)
    exact ⟨before, r, after, heq, hd, hallow, pkt, hct, hlo, hmatch, hbefore⟩
  · rintro ⟨before, r, after, heq, hd, hallow, pkt, hct, hlo, hmatch, hbefore⟩
    refine ⟨pkt, hct, hlo, (hverdict pkt hct hlo).mpr ?_⟩
    exact firstVerdict_accept_iff.mpr ⟨before, r, after, heq, hd, hallow, hmatch, hbefore⟩

theorem hostInput_reachable_branchRouter :
    ∃ ir rs, Compile .zero branchRouter = .ok ir ∧ renderRuleset ir = .ok rs ∧
      Manageable rs .empty := by
  have hcompile : ∃ ir rs, Compile .zero branchRouter = .ok ir ∧ renderRuleset ir = .ok rs :=
    ⟨_, _, rfl, rfl⟩
  obtain ⟨ir, rs, hir, hrs⟩ := hcompile
  refine ⟨ir, rs, hir, hrs, ?_⟩
  refine (hostInput_reachable_iff hir hrs (by decide) rfl rfl .empty).mpr ?_
  refine ⟨[{ id := "a", name := "old", action := .allow, disabled := true },
      { id := "b", name := "admin", fromZones := ["lan"], services := ["ssh"], action := .allow }],
    { id := "c", name := "noc-ping", sourceAddresses := ["noc"], services := ["ping"],
      action := .allow }, [], rfl, rfl, rfl, monitorPing, rfl, by decide, by decide +kernel, ?_⟩
  intro d hd _ hdeny
  rcases List.mem_cons.mp hd with rfl | hd
  · exact absurd rfl hdeny
  · rw [List.mem_singleton.mp hd] at hdeny
    exact absurd rfl hdeny

/-- SSH is allowed, behind a rule that denies everything. -/
def lockedOut : Phragma.Policy where
  zones := [{ name := "lan", interfaces := ["eth1"] }]
  services := [{ name := "ssh", protocol := .tcp, ports := [{ start := 22 }] }]
  hostInput := some {
    defaultAction := .deny
    rules := [
      { id := "a", name := "deny-all", action := .deny },
      { id := "b", name := "admin", fromZones := ["lan"], services := ["ssh"], action := .allow }] }

/-- The check accepts it, and no packet is. -/
theorem lockedOut_unmanageable :
    Validate lockedOut = [] ∧ ∃ ir rs, Compile .zero lockedOut = .ok ir ∧
      renderRuleset ir = .ok rs ∧ ¬ Manageable rs .empty := by
  have hcompile : ∃ ir rs, Compile .zero lockedOut = .ok ir ∧ renderRuleset ir = .ok rs :=
    ⟨_, _, rfl, rfl⟩
  obtain ⟨ir, rs, hir, hrs⟩ := hcompile
  refine ⟨by decide +kernel, ir, rs, hir, hrs, ?_⟩
  rintro ⟨pkt, hct, hlo, haccept⟩
  rw [inputVerdict_normalized hir hrs (by decide) hct hlo, hostInputVerdict_normalize] at haccept
  -- the first rule matches every packet
  cases haccept

end Phragma.Renderers.Nftables
