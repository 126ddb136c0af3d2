import Phragma.Compiler.Applications
import Phragma.Explain.Agreement

/-!
# Phragma.Explain.Applications

**The application dimension** of a rule: what the explainer says of a flow's protocol and
port, against the services of the compiled rule.

The explainer evaluates services and applications separately, and a wildcard anywhere in a
list admits everything. The compiler folds both into one list of services; its application
loop stops at a wildcard but keeps the port hints gathered before it. So the two agree
exactly on the lists that have no wildcard or start with one: `applications_agree_iff`.
-/

namespace Phragma.Explain

open Lib Go Policy Compiler Renderers.Nftables Nft

/-! ### Flows and packets

A flow in which an application was observed is a packet that Suricata reports the signal of. -/

/-- The protocol a request names for packets of a layer-4 protocol. -/
def protocolOf : L4 → Protocol
  | .tcp => .tcp
  | .udp => .udp
  | .icmp | .icmpv6 => .icmp
  | .other _ => .any

/-- A flow that has the protocol and the destination port of a packet. -/
structure PortsOf (input : FlowInput) (pkt : Packet) : Prop where
  proto : input.proto = protocolOf pkt.l4
  port : input.dstPort = pkt.dport

/-- A flow of a packet, without zones. -/
def flowOf (pkt : Packet) : FlowInput :=
  { fromZone := "", toZone := "", src := pkt.src, srcPort := 0, dst := pkt.dst, dstPort := pkt.dport
    proto := protocolOf pkt.l4, appID := "", context := {} }

theorem portsOf_flowOf (pkt : Packet) : PortsOf (flowOf pkt) pkt := ⟨rfl, rfl⟩

/-- Does a list of compiled services admit a packet? An empty list admits all. -/
def servicesOK (services : List ServiceMatch) (pkt : Packet) : Bool :=
  services.isEmpty || services.any fun m => serviceOK m pkt

/-- **Services agree** on every packet. -/
theorem serviceMatches_protocolOf {s : Service} {m : ServiceMatch} (hcheck : checkService s = [])
    (hm : Compiler.serviceMatch s = .ok m) (pkt : Packet) :
    serviceMatches s (protocolOf pkt.l4) pkt.dport = serviceOK m pkt := by
  cases hl : pkt.l4 with
  | tcp => exact serviceMatches_eq hcheck hm (by rw [hl]; rfl)
  | udp => exact serviceMatches_eq hcheck hm (by rw [hl]; rfl)
  | icmp => exact serviceMatches_eq hcheck hm (by rw [hl]; rfl)
  | icmpv6 =>
      unfold Compiler.serviceMatch at hm
      cases hp : s.protocol <;> simp only [hp, Except.ok.injEq, reduceCtorEq] at hm <;> subst hm <;>
        simp [serviceMatches, serviceOK, protocolOf, hp, hl]
  | other n =>
      unfold Compiler.serviceMatch at hm
      cases hp : s.protocol <;> simp only [hp, Except.ok.injEq, reduceCtorEq] at hm <;> subst hm <;>
        simp [serviceMatches, serviceOK, protocolOf, hp, hl]

/-- **Port hints agree**: an application admits a port exactly when one of its compiled hints
does. -/
theorem applicationPortMatches_eq {app : Application} (hcheck : checkApplication app = [])
    (pkt : Packet) :
    applicationPortMatches app (protocolOf pkt.l4) pkt.dport =
      (applicationServiceMatches app).any fun m => serviceOK m pkt := by
  unfold applicationPortMatches applicationServiceMatches
  rw [List.any_filterMap]
  refine any_congr_of_mem fun hint hmem => ?_
  obtain ⟨hports, hproto, ctx, hranges⟩ := hint_of_checkApplication hcheck hmem
  have hempty : (compilePorts hint.ports).isEmpty = false := by
    simpa [compilePorts] using hports
  have hnonempty : hint.ports.isEmpty = false := by simpa using hports
  rw [← compilePorts_any hranges]
  rcases hproto with hproto | hproto <;>
    cases hl : pkt.l4 <;> simp [protocolOf, serviceOK, hproto, hl, hempty, hnonempty]

/-- Port hints are about TCP and UDP. -/
theorem serviceOK_hint_icmp {app : Application} {m : ServiceMatch}
    (hm : m ∈ applicationServiceMatches app) {pkt : Packet} (hl : pkt.l4 = .icmp) :
    serviceOK m pkt = false := by
  obtain ⟨hint, -, hhint⟩ := List.mem_filterMap.mp hm
  split at hhint
  · cases hhint
  · cases hp : hint.protocol <;> simp only [hp, Option.some.injEq, reduceCtorEq] at hhint <;>
      subst hhint <;> simp [serviceOK, hl]

/-! ### Rules

A rule over applications is enforced by port hints in the packet filter, or left to Suricata. -/

section Rules

variable {q : Phragma.Policy} (hA : Accepted q) {c : Compilation} {ir : IR} (hC : Compiled q c ir)
  {idx : Index} (hidx : newIndex q = .ok idx)

include hA hC hidx

/-- The services of a rule admit a flow exactly when the compiled ones admit its packets. -/
theorem servicesMatch_resolved {refs : List String} {out : List ServiceMatch}
    (h : resolveServices c refs = .ok out) {input : FlowInput} {pkt : Packet}
    (hP : PortsOf input pkt) :
    servicesMatch idx refs input.proto input.dstPort = .ok (servicesOK out pkt) := by
  refine matchAnyRefs_of_resolveRefs (fun ref m hm => ?_) h
  obtain ⟨s, hs, hcheck, hsm⟩ := service_of_lookup hA hC.toTablesOf hm
  rw [(indexOf_of_newIndex hA hC.toTablesOf hidx).services, hP.proto, hP.port]
  exact ⟨s, hs, serviceMatches_protocolOf hcheck hsm pkt⟩

/-- The applications of a rule without a wildcard admit a flow exactly when one of their
compiled port hints does, as long as signals are not enforced. -/
theorem applicationMatches_hints (hids : idsPreventFailClosed q.getIds = false) {r : Rule}
    (hr : r ∈ q.rules) (hne : r.applications ≠ []) (hany : Any ∉ r.applications)
    {input : FlowInput} {pkt : Packet} (hP : PortsOf input pkt) :
    applicationMatches idx r.applications input =
      .ok ((r.applications.flatMap (hintedServices c)).any fun m => serviceOK m pkt) := by
  have hindex := indexOf_of_newIndex hA hC.toTablesOf hidx
  have hlead := leadingRefs_of_notMem hany
  have hfound : ∀ ref ∈ r.applications, ∃ app, c.apps.lookup ref = some app ∧
      checkApplication app = [] := by
    intro ref href
    obtain ⟨app, happ, rfl⟩ := application_of_leadingRef hA hC.toTablesOf hr (hlead.symm ▸ href)
    obtain ⟨hmem, -⟩ := mem_leadingApplications.mp happ
    exact ⟨app, (lookup_apps_iff hA hC.toTablesOf).mpr ⟨hmem, rfl⟩, hA.application_ok app hmem⟩
  have hcontains : r.applications.contains Any = false := by simpa using hany
  unfold applicationMatches matchAnyRefs containsAny
  rw [hcontains, List.isEmpty_eq_false_iff.mpr hne, hindex.apps, ← hC.apps]
  simp only [Bool.or_self, Bool.false_eq_true, if_false]
  rw [matchRefs_of_isSome fun ref href => by
    obtain ⟨app, happ, -⟩ := hfound ref href
    simp [happ], List.any_flatMap]
  refine congrArg Except.ok (any_congr_of_mem fun ref href => ?_)
  obtain ⟨app, happ, hcheck⟩ := hfound ref href
  rw [hindex.policy, hids, hP.proto, hP.port]
  simp only [happ, Option.elim_some, hintedServices, Bool.and_false, Bool.or_false]
  exact applicationPortMatches_eq hcheck pkt

end Rules

/-- Outside prevent mode no application is enforced by its signals alone. -/
theorem ports_of_leading {q : Phragma.Policy} (hA : Accepted q) {c : Compilation}
    (hT : TablesOf q c) (hids : idsPreventFailClosed q.getIds = false) {r : Rule}
    (hr : r ∈ q.rules) {app : Application} (happ : app ∈ leadingApplications q r) :
    app.ports ≠ [] := by
  intro hnil
  have hcheck := (checkSignalOnly_of_leading hA hT hr happ).1
  unfold checkSignalOnly at hcheck
  simp [hnil, hids, errIf] at hcheck

/-- Outside prevent mode every application before the first wildcard adds a service. -/
theorem hints_of_leading {q : Phragma.Policy} (hA : Accepted q) {c : Compilation}
    (hT : TablesOf q c) (hids : idsPreventFailClosed q.getIds = false) {r : Rule}
    (hr : r ∈ q.rules) {app : Application} (happ : app ∈ leadingApplications q r) :
    hintedServices c app.name = applicationServiceMatches app ∧
      applicationServiceMatches app ≠ [] := by
  obtain ⟨hmem, -⟩ := mem_leadingApplications.mp happ
  constructor
  · rw [hintedServices, (lookup_apps_iff hA hT).mpr ⟨hmem, rfl⟩]
    rfl
  · rw [Ne, applicationServiceMatches_eq_nil (hA.application_ok app hmem)]
    exact ports_of_leading hA hT hids hr happ

/-- A compiled rule has its lines in the forward chain of whatever is rendered. -/
def ForwardRendered (ir : IR) (rir : RuleIR) : Prop :=
  rir.appIDOnly = false ∧ ∀ rs, renderRuleset ir = .ok rs →
    ∃ lines, ruleLinesWithComment rir "rule" = .ok lines ∧ ∀ l ∈ lines, l ∈ rs.forward.lines

theorem forwardRendered_of_mem {ir : IR} {rir : RuleIR} (hmem : rir ∈ ir.rules)
    (honly : rir.appIDOnly = false) : ForwardRendered ir rir := by
  refine ⟨honly, fun rs hrs => ?_⟩
  obtain ⟨blocks, hblocks, hlines⟩ := (rendered_of_renderRuleset hrs).forward
  obtain ⟨lines, hin, hrule⟩ := exists_of_forall₂_left hblocks
    (List.mem_filter.mpr ⟨hmem, by simp [honly]⟩)
  refine ⟨lines, hrule, fun l hl => ?_⟩
  rw [hlines]
  have hflat := List.mem_flatten.mpr ⟨lines, hin, hl⟩
  simp [hflat]

/-- A packet of an ICMP flow. -/
def icmpPacket : Packet :=
  { iif := "", oif := "", header := .ip 0 0, l4 := .icmp, dport := 0, ct := .new, syn := false }

/-- **Applications compile to what the explainer says exactly when a wildcard comes first.**
For every policy that compiles and does not prevent, and every enabled rule with applications:
the compiled rule is rendered into the forward chain and its services admit precisely the
flows whose service and application the explainer finds matching, if and only if the list of
applications has no wildcard or starts with one. -/
theorem applications_agree_iff {H : IdentityHash} {p : Phragma.Policy} {ir : IR} {idx : Index}
    (hcompile : Compile H p = .ok ir) (hidx : newIndex (normalizeIdentities H p) = .ok idx)
    (hids : p.getIds.enabled = true → p.getIds.mode ≠ .prevent) {i : Nat} {r : Rule} {rir : RuleIR}
    (hr : ((normalizeIdentities H p).rules.filter fun r => !r.disabled)[i]? = some r)
    (hrir : ir.rules[i]? = some rir) (happs : r.applications ≠ []) :
    (ForwardRendered ir rir ∧ ∀ (input : FlowInput) (pkt : Packet), PortsOf input pkt →
        (servicesOK rir.services pkt = true ↔
          servicesMatch idx r.services input.proto input.dstPort = .ok true ∧
            applicationMatches idx r.applications input = .ok true)) ↔
      (Any ∈ r.applications → r.applications.head? = some Any) := by
  obtain ⟨haccepted, c, hC⟩ := Compile_ok hcompile
  have hA := accepted_of_Validate haccepted
  have hT := hC.toTablesOf
  have hclosed : idsPreventFailClosed (normalizeIdentities H p).getIds = false := by
    have hids : (normalizeIdentities H p).getIds.enabled = true →
        (normalizeIdentities H p).getIds.mode ≠ .prevent := hids
    unfold idsPreventFailClosed
    cases henabled : (normalizeIdentities H p).getIds.enabled with
    | false => rfl
    | true => simp [hids henabled]
  have hmem : r ∈ (normalizeIdentities H p).rules :=
    (List.mem_filter.mp (List.mem_of_getElem? hr)).1
  have hrule := forall₂_getElem? hC.rules hr hrir
  obtain ⟨services, hsvc, hservices, -, -⟩ := services_of_compileRule hrule
  -- the explainer takes a wildcard wherever it stands in the list
  have hwild : Any ∈ r.applications → ∀ input, applicationMatches idx r.applications input = .ok true := by
    intro hany input
    simp [applicationMatches, matchAnyRefs, containsAny, hany]
  have hhints : ∀ app ∈ leadingApplications (normalizeIdentities H p) r,
      hintedServices c app.name = applicationServiceMatches app ∧
        applicationServiceMatches app ≠ [] :=
    fun app happ => hints_of_leading hA hT hclosed hmem happ
  constructor
  · rintro ⟨-, hagree⟩ hany
    -- a wildcard that is not first: an ICMP packet meets the explainer and no port hint
    by_contra hhead
    -- the compiler has taken the references before the wildcard
    obtain ⟨ref, href⟩ := List.exists_mem_of_ne_nil _ fun hnil =>
      (leadingRefs_eq_nil.mp hnil).elim happs hhead
    obtain ⟨app, happ, rfl⟩ := application_of_leadingRef hA hT hmem href
    have hnone := resolveServices_of_leading hA hT hmem happ hsvc
    have hP := portsOf_flowOf icmpPacket
    have hflow := (hagree _ _ hP).mpr
      ⟨servicesMatch_resolved hA hC hidx (hnone ▸ hsvc) hP, hwild hany _⟩
    rw [hservices, hnone, List.nil_append, servicesOK, Bool.or_eq_true, List.isEmpty_iff,
      List.flatMap_eq_nil_iff] at hflow
    rcases hflow with hempty | hadmits
    · exact (hhints app happ).2 ((hhints app happ).1 ▸ hempty app.name href)
    · obtain ⟨m, hm, hok⟩ := List.any_eq_true.mp hadmits
      obtain ⟨ref', href', hm⟩ := List.mem_flatMap.mp hm
      obtain ⟨app', happ', rfl⟩ := application_of_leadingRef hA hT hmem href'
      rw [(hhints app' happ').1] at hm
      rw [serviceOK_hint_icmp hm rfl] at hok
      cases hok
  · intro hlist
    refine ⟨forwardRendered_of_mem (List.mem_of_getElem? hrir) ?_, fun input pkt hP => ?_⟩
    · rw [Bool.eq_false_iff]
      intro honly
      obtain ⟨-, hlead, hportless⟩ := (appIDOnly_iff hA hT hmem hrule).mp honly
      obtain ⟨ref, href⟩ := List.exists_mem_of_ne_nil _ hlead
      obtain ⟨app, happ, -⟩ := application_of_leadingRef hA hT hmem href
      exact ports_of_leading hA hT hclosed hmem happ (hportless app happ)
    · have hsvcs := servicesMatch_resolved hA hC hidx hsvc hP
      by_cases hany : Any ∈ r.applications
      · -- with the wildcard in front both sides look at the services alone
        rw [hservices, leadingRefs_eq_nil.mpr (.inr (hlist hany)), List.flatMap_nil, List.append_nil,
          hsvcs, hwild hany input]
        simp
      · -- without one the services of the rule are the hints
        have hlead := leadingRefs_of_notMem hany
        obtain ⟨ref, href⟩ := List.exists_mem_of_ne_nil _ happs
        obtain ⟨app, happ, rfl⟩ := application_of_leadingRef hA hT hmem (hlead.symm ▸ href)
        have hnone := resolveServices_of_leading hA hT hmem happ hsvc
        have hne : r.applications.flatMap (hintedServices c) ≠ [] := fun hnil =>
          (hhints app happ).2 ((hhints app happ).1 ▸ List.flatMap_eq_nil_iff.mp hnil app.name href)
        rw [hsvcs, applicationMatches_hints hA hC hidx hclosed hmem happs hany hP, hservices, hnone,
          hlead, List.nil_append]
        simp [servicesOK, hne]

/-- An application known by its port. -/
def webApp : Application :=
  { name := "web", category := "web", ports := [{ protocol := .tcp, ports := [{ start := 80 }] }] }

/-- A rule with those applications. -/
def appRule (applications : List String) : Rule :=
  { id := "rule-1", name := "browse", applications, action := .allow }

/-- A node with that one rule. -/
def appNode (applications : List String) : Phragma.Policy where
  applications := [webApp]
  rules := [appRule applications]

/-- What the compiler makes of the node. -/
theorem compile_appNode (applications : List String)
    (h : (normalizeIdentities .zero (appNode applications)).rules = [appRule applications] ∧
      (Compile .zero (appNode applications)).toOption.any (fun ir =>
        decide (ir.rules.map RuleIR.services = [[⟨.tcp, [⟨80, 80⟩]⟩]])) = true) :
    ∃ ir idx rir, Compile .zero (appNode applications) = .ok ir ∧
      newIndex (normalizeIdentities .zero (appNode applications)) = .ok idx ∧
      ((normalizeIdentities .zero (appNode applications)).rules.filter fun r => !r.disabled)[0]? =
        some (appRule applications) ∧
      ir.rules[0]? = some rir ∧ rir.services = [⟨.tcp, [⟨80, 80⟩]⟩] := by
  obtain ⟨hrules, hok⟩ := h
  obtain ⟨ir, hir, hservices⟩ := (Option.any_eq_true _ _).mp hok
  have hcompile := toOption_eq_some.mp hir
  obtain ⟨haccepted, c, hC⟩ := Compile_ok hcompile
  obtain ⟨idx, hidx, -⟩ := newIndex_ok (accepted_of_Validate haccepted) hC.toTablesOf
  have hservices := of_decide_eq_true hservices
  cases hlist : ir.rules with
  | nil => simp [hlist] at hservices
  | cons rir rest =>
      rw [hlist, List.map_cons, List.cons.injEq] at hservices
      exact ⟨ir, idx, rir, hcompile, hidx, by rw [hrules]; rfl, by rw [hlist]; rfl, hservices.1⟩

theorem applications_agree_webNode :
    ∃ ir idx rir, Compile .zero (appNode ["web"]) = .ok ir ∧
      newIndex (normalizeIdentities .zero (appNode ["web"])) = .ok idx ∧
      ir.rules[0]? = some rir ∧ ForwardRendered ir rir ∧
      ∀ (input : FlowInput) (pkt : Packet), PortsOf input pkt →
        (servicesOK rir.services pkt = true ↔
          servicesMatch idx [] input.proto input.dstPort = .ok true ∧
            applicationMatches idx ["web"] input = .ok true) := by
  obtain ⟨ir, idx, rir, hcompile, hidx, hr, hrir, -⟩ :=
    compile_appNode ["web"] (by decide)
  have hagree := (applications_agree_iff hcompile hidx (by decide) hr hrir (by decide)).mpr
    (by decide)
  exact ⟨ir, idx, rir, hcompile, hidx, hrir, hagree⟩

/-- **A late wildcard still restricts the compiled rule**, while the explainer takes it as
no restriction. -/
theorem late_wildcard_restricts : ¬ ∀ (H : IdentityHash) (p : Phragma.Policy) (ir : IR)
    (idx : Index) (i : Nat) (r : Rule) (rir : RuleIR), Compile H p = .ok ir →
      newIndex (normalizeIdentities H p) = .ok idx →
      (p.getIds.enabled = true → p.getIds.mode ≠ .prevent) →
      ((normalizeIdentities H p).rules.filter fun r => !r.disabled)[i]? = some r →
      ir.rules[i]? = some rir → r.applications ≠ [] →
      ForwardRendered ir rir ∧ ∀ (input : FlowInput) (pkt : Packet), PortsOf input pkt →
        (servicesOK rir.services pkt = true ↔
          servicesMatch idx r.services input.proto input.dstPort = .ok true ∧
            applicationMatches idx r.applications input = .ok true) := by
  intro hall
  obtain ⟨ir, idx, rir, hcompile, hidx, hr, hrir, hservices⟩ :=
    compile_appNode ["web", Any] (by decide)
  obtain ⟨-, hagree⟩ := hall .zero _ ir idx 0 _ rir hcompile hidx (by decide) hr hrir (by decide)
  have hflow := (hagree _ _ (portsOf_flowOf icmpPacket)).mpr ⟨rfl, rfl⟩
  rw [hservices] at hflow
  revert hflow
  decide

end Phragma.Explain
