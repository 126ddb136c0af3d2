import Mathlib.Data.List.Nodup
import Mathlib.Data.List.Pairwise
import Phragma.Explain.ExplainFlow
import Phragma.Compiler.Compiled
import Phragma.Renderers.Nftables

/-!
# Phragma.Explain.Agreement

**The explainer agrees with the rendered data plane.**

The explainer matches a flow against policy objects; the data plane matches a packet
against what the compiler resolved and the renderer expanded. The two are compared
dimension by dimension (zones, addresses, services), then rule by rule, and the loops over
the rules and the translations are shown to stop at the same element.

A zone is compared through its interfaces, which is sound because no interface is in two
zones, and only because every zone has one: the interfaces of an empty zone resolve to
nothing, and an empty list means any interface.

For the source translation what is compared is which line's matches hold. The kernel skips
an `snat ip6` statement on an IPv4 packet, so a line that matches need not translate; the
explainer reports the rule that matches.
-/

namespace Phragma.Explain

open Lib Go Policy Compiler Renderers.Nftables Nft

/-! ### Reference lists

Both sides walk a list of names, the one looking for a match, the other collecting what to match.
The comparison of single objects carries over, once for all three kinds. -/

/-- The loop over references that are all found. -/
theorem matchRefs_of_isSome {α : Type} {find : String → Option α} {unknown : String → String}
    {test : α → Bool} : ∀ {refs : List String}, (∀ r ∈ refs, (find r).isSome) →
      matchRefs find unknown test refs = .ok (refs.any fun r => (find r).elim false test) := by
  intro refs
  induction refs with
  | nil => intro _; rfl
  | cons r refs ih =>
      intro hall
      obtain ⟨a, ha⟩ := Option.isSome_iff_exists.mp (hall r List.mem_cons_self)
      rw [matchRefs, ha, ih fun r' hr' => hall r' (List.mem_cons_of_mem _ hr')]
      simp only [List.any_cons, ha, Option.elim_some]
      cases test a <;> rfl

/-- **Reference lists agree.** When every object the compiler finds under a name has a
counterpart in the explainer's table that passes the same test, the explainer's answer for
a reference list is the test of the compiled list, an empty list admitting everything. -/
theorem matchAnyRefs_of_resolveRefs {α β : Type} {find : String → Option α}
    {unknown : String → String} {test : α → Bool} {findIR : String → Option β}
    {unknownIR : String → String} {testIR : β → Bool}
    (hrel : ∀ r b, findIR r = some b → ∃ a, find r = some a ∧ test a = testIR b)
    {refs : List String} {out : List β}
    (h : resolveRefs Any (fun r => (findIR r).map ([·])) unknownIR [] refs = .ok out) :
    matchAnyRefs find unknown test refs = .ok (out.isEmpty || out.any testIR) := by
  unfold matchAnyRefs containsAny
  rcases resolveRefs_ok h with ⟨hany, rfl⟩ | ⟨hany, hall, rfl⟩
  · simp [hany]
  · have hfind : ∀ r ∈ refs, ∃ a b, find r = some a ∧ findIR r = some b ∧ test a = testIR b := by
      intro r hr
      obtain ⟨b, hb⟩ := Option.isSome_iff_exists.mp (by simpa using hall r hr)
      obtain ⟨a, ha, htest⟩ := hrel r b hb
      exact ⟨a, b, ha, hb, htest⟩
    have hloop : matchRefs find unknown test refs =
        .ok ((refs.flatMap fun r => ((findIR r).map ([·])).getD []).any testIR) := by
      rw [matchRefs_of_isSome fun r hr => by
        obtain ⟨a, -, ha, -⟩ := hfind r hr
        simp [ha], List.any_flatMap]
      refine congrArg Except.ok (any_congr_of_mem fun r hr => ?_)
      obtain ⟨a, b, ha, hb, htest⟩ := hfind r hr
      simp [ha, hb, htest]
    cases refs with
    | nil => rfl
    | cons r rs =>
        have hcontains : (r :: rs).contains Any = false := by simpa using hany
        obtain ⟨a, b, -, hb, -⟩ := hfind r List.mem_cons_self
        rw [hcontains, hloop]
        simp [hb]

/-! ### Zones

The explainer compares names of zones, the packet filter those of interfaces. -/

/-- An interface of two zones makes them one. -/
theorem zone_unique {zones : List Zone} (hnd : (zones.flatMap Zone.interfaces).Nodup)
    {z z' : Zone} (hz : z ∈ zones) (hz' : z' ∈ zones) {ifc : String} (h : ifc ∈ z.interfaces)
    (h' : ifc ∈ z'.interfaces) : z = z' := by
  rw [List.nodup_flatMap] at hnd
  by_contra hne
  have hsymm : Std.Symm (Function.onFun List.Disjoint Zone.interfaces) :=
    ⟨fun _ _ hd _ ha hb => hd hb ha⟩
  exact hnd.2.forall hz hz' hne h h'

/-- **Zones agree**: an interface of a zone is admitted by the interfaces a zone list
resolves to exactly when the list admits the zone. -/
theorem ifacesOK_of_resolveIfaces {q : Phragma.Policy} (hA : Accepted q)
    (hne : ∀ z ∈ q.zones, z.interfaces ≠ []) {c : Compilation}
    (hc : c.zoneIfaces = tableOf Zone.name Zone.interfaces q.zones) {refs out : List String}
    (h : resolveIfaces c refs = .ok out) {z : Zone} (hz : z ∈ q.zones) {ifc : String}
    (hifc : ifc ∈ z.interfaces) : zoneMatches refs z.name = ifacesOK out ifc := by
  unfold zoneMatches ifacesOK containsAny
  by_cases hany : refs = [] ∨ Any ∈ refs
  · rw [resolveIfaces_any h hany]
    rcases hany with rfl | hany
    · rfl
    · simp [hany]
  · rw [not_or] at hany
    have hmem := mem_resolveIfaces hA.zone_names hc h hany.2
    have hout : out ≠ [] := by
      -- The first name is a zone, which has an interface, so the list is not "any".
      obtain ⟨r, hr⟩ := List.exists_mem_of_ne_nil refs hany.1
      obtain ⟨z₁, hz₁, rfl⟩ := zone_of_resolveIfaces hc h hany.2 hr
      obtain ⟨ifc₁, hifc₁⟩ := List.exists_mem_of_ne_nil _ (hne z₁ hz₁)
      exact List.ne_nil_of_mem ((hmem ifc₁).mpr ⟨z₁, hz₁, hr, hifc₁⟩)
    have hcontains : refs.contains Any = false := by simpa using hany.2
    rw [List.isEmpty_eq_false_iff.mpr hany.1, List.isEmpty_eq_false_iff.mpr hout, hcontains,
      if_neg (hA.zone_usable z hz).ne_empty]
    simp only [Bool.false_or, Bool.false_eq_true, if_false]
    rw [Bool.eq_iff_iff, List.contains_iff_mem, List.contains_iff_mem, hmem]
    constructor
    · intro hname
      exact ⟨z, hz, hname, hifc⟩
    · rintro ⟨z', hz', hname, hin⟩
      rw [zone_unique hA.interfaces hz hz' hifc hin]
      exact hname

/-! ### Services

The explainer compares numbers with ranges, the packet filter with the ranges after compilation, in
which a range without an end has got one. -/

/-- The flow's protocol, as a request names it. -/
def flowProto : L4 → Option Protocol
  | .tcp => some .tcp
  | .udp => some .udp
  | .icmp => some .icmp
  | _ => none

/-- A validated port range is compiled without loss. -/
theorem compilePorts_any {ctx : String} {ports : List Policy.PortRange}
    (h : ∀ pr ∈ ports, checkPortRange ctx pr = []) (dport : Nat) :
    (compilePorts ports).any (fun pr => decide (pr.start ≤ dport ∧ dport ≤ pr.stop)) =
      ports.any (portInRange dport) := by
  rw [compilePorts, List.any_map]
  refine any_congr_of_mem fun pr hpr => ?_
  have hcheck := h pr hpr
  simp only [checkPortRange, errIf, List.append_eq_nil_iff, ite_eq_right_iff, List.cons_ne_nil,
    imp_false, Bool.not_eq_true, Bool.or_eq_false_iff, Bool.and_eq_false_iff,
    decide_eq_false_iff_not, bne_eq_false_iff_eq, beq_eq_false_iff_ne] at hcheck
  have hstart : uint16 pr.start = pr.start := Nat.mod_eq_of_lt (by omega)
  have hstop : uint16 pr.stop = pr.stop := Nat.mod_eq_of_lt (by omega)
  simp only [Function.comp_apply, portInRange, hstart, hstop, Bool.decide_and]

/-- **Services agree** on packets of the flow's protocol. -/
theorem serviceMatches_eq {s : Service} {m : ServiceMatch} (hcheck : checkService s = [])
    (hm : Compiler.serviceMatch s = .ok m) {pkt : Packet} {proto : Protocol}
    (hproto : flowProto pkt.l4 = some proto) :
    serviceMatches s proto pkt.dport = serviceOK m pkt := by
  have hports : ∀ pr ∈ s.ports, s.protocol = .tcp ∨ s.protocol = .udp →
      checkPortRange ("service " ++ quote s.name) pr = [] := by
    intro pr hpr hp
    unfold checkService at hcheck
    rcases hp with hp | hp <;> simp only [hp, List.flatMap_eq_nil_iff] at hcheck <;>
      exact hcheck pr hpr
  have hempty : (compilePorts s.ports).isEmpty = s.ports.isEmpty := by
    simp [compilePorts]
  unfold Compiler.serviceMatch at hm
  unfold serviceMatches serviceOK
  cases hp : s.protocol with
  | tcp =>
      simp only [hp, Except.ok.injEq] at hm
      subst hm
      simp only [hempty, compilePorts_any fun pr hpr => hports pr hpr (.inl hp)]
      cases hl : pkt.l4 <;> simp [flowProto, hl] at hproto <;> simp [← hproto]
  | udp =>
      simp only [hp, Except.ok.injEq] at hm
      subst hm
      simp only [hempty, compilePorts_any fun pr hpr => hports pr hpr (.inr hp)]
      cases hl : pkt.l4 <;> simp [flowProto, hl] at hproto <;> simp [← hproto]
  | icmp =>
      simp only [hp, Except.ok.injEq] at hm
      subst hm
      cases hl : pkt.l4 <;> simp [flowProto, hl] at hproto <;> simp [← hproto]
  | any =>
      simp only [hp, Except.ok.injEq] at hm
      subst hm
      rfl
  | unspecified => simp [hp] at hm
  | unrecognized n => simp [hp] at hm

/-! ### The index

Explainer and compiler parse the same addresses and enter them under the same names. -/

/-- The index of a policy: its tables are the compiler's. -/
structure IndexOf (q : Phragma.Policy) (c : Compilation) (idx : Index) : Prop where
  policy : idx.policy = q
  addresses : idx.addresses = c.addrs
  services : idx.services = tableOf Service.name id q.services
  apps : idx.apps = tableOf Application.name id q.applications

/-- On an accepted policy the index exists. -/
theorem newIndex_ok {q : Phragma.Policy} (hA : Accepted q) {c : Compilation} (hT : TablesOf q c) :
    ∃ idx, newIndex q = .ok idx ∧ IndexOf q c idx := by
  obtain ⟨err, haddrs⟩ := hT.addrs
  rw [addressIndex_eq hA.address_cidr] at haddrs
  have hroutes : ∃ routes, q.staticRoutes.zipIdx.mapM indexRoute = .ok routes := by
    refine mapM_of_forall ?_
    rintro ⟨r, i⟩ hr
    have hcheck := hA.route_ok
    unfold checkRoutes at hcheck
    rw [List.flatMap_eq_nil_iff] at hcheck
    have hone := hcheck _ hr
    simp only [List.append_eq_nil_iff, errIf, ite_eq_right_iff, List.cons_ne_nil, imp_false,
      Bool.not_eq_true, Option.isNone_eq_false_iff, Bool.and_eq_false_iff, bne_eq_false_iff_eq]
      at hone
    obtain ⟨pfx, hpfx⟩ := Option.isSome_iff_exists.mp hone.1.1
    refine ⟨⟨r, pfx, i⟩, ?_⟩
    simp only [indexRoute, hpfx]
    rw [if_neg]
    rintro ⟨hvia, hnone⟩
    rcases hone.2 with h | h
    · exact hvia h
    · rw [Option.isNone_iff_eq_none] at hnone
      simp [hnone] at h
  obtain ⟨routes, hroutes⟩ := hroutes
  refine ⟨⟨q, c.addrs, tableOf Service.name id q.services,
    tableOf Application.name id q.applications, routes⟩, ?_, ⟨rfl, rfl, rfl, rfl⟩⟩
  unfold newIndex
  rw [addressIndex_eq hA.address_cidr, haddrs, hroutes]
  rfl

theorem indexOf_of_newIndex {q : Phragma.Policy} (hA : Accepted q) {c : Compilation}
    (hT : TablesOf q c) {idx : Index} (h : newIndex q = .ok idx) : IndexOf q c idx := by
  obtain ⟨idx', hidx', hindex⟩ := newIndex_ok hA hT
  rw [h, Except.ok.injEq] at hidx'
  exact hidx' ▸ hindex

/-- The tables of the explainer and of the compiler, for one accepted policy in which
every zone has an interface. -/
structure Tables (q : Phragma.Policy) (c : Compilation) (idx : Index) : Prop where
  accepted : Accepted q
  nonempty : ∀ z ∈ q.zones, z.interfaces ≠ []
  policy : idx.policy = q
  zoneIfaces : c.zoneIfaces = tableOf Zone.name Zone.interfaces q.zones
  addresses : idx.addresses = c.addrs
  cidr : ∀ ref, c.addrs.lookup ref =
    ((tableOf Address.name id q.addresses).lookup ref).bind fun a => parsePrefix a.cidr
  services : ∀ ref m, c.svcs.lookup ref = some m →
    ∃ s, idx.services.lookup ref = some s ∧ checkService s = [] ∧
      Compiler.serviceMatch s = .ok m

theorem tables_of_compiled {q : Phragma.Policy} (hA : Accepted q)
    (hne : ∀ z ∈ q.zones, z.interfaces ≠ []) {c : Compilation} {ir : IR} (hC : Compiled q c ir) :
    ∃ idx, newIndex q = .ok idx ∧ Tables q c idx := by
  obtain ⟨idx, hidx, hindex⟩ := newIndex_ok hA hC.toTablesOf
  refine ⟨idx, hidx, {
    accepted := hA
    nonempty := hne
    policy := hindex.policy
    zoneIfaces := hC.zoneIfaces
    addresses := hindex.addresses
    cidr := ?_
    services := ?_ }⟩
  · obtain ⟨err, haddrs⟩ := hC.addrs
    exact addressIndex_lookup haddrs hA.address_cidr
  · intro ref m hm
    obtain ⟨s, hs, hcheck, hsm⟩ := service_of_lookup hA hC.toTablesOf hm
    rw [hindex.services]
    exact ⟨s, hs, hcheck, hsm⟩

/-- A flow and a packet of it: same addresses, protocol and port, and the flow's zones are
those of the packet's interfaces. -/
structure FlowOf (q : Phragma.Policy) (input : FlowInput) (pkt : Packet) : Prop where
  fromZone : ∃ z ∈ q.zones, pkt.iif ∈ z.interfaces ∧ input.fromZone = z.name
  toZone : ∃ z ∈ q.zones, pkt.oif ∈ z.interfaces ∧ input.toZone = z.name
  src : input.src = pkt.src
  dst : input.dst = pkt.dst
  port : input.dstPort = pkt.dport
  proto : flowProto pkt.l4 = some input.proto

section Flow

variable {q : Phragma.Policy} {c : Compilation} {idx : Index} {input : FlowInput} {pkt : Packet}
  (hT : Tables q c idx) (hF : FlowOf q input pkt)

/-! ### Rules

The three comparisons together. A rule without applications and context has nothing else that could
make a difference. -/

include hT hF

theorem fromZone_agree {refs out : List String} (h : resolveIfaces c refs = .ok out) :
    zoneMatches refs input.fromZone = ifacesOK out pkt.iif := by
  obtain ⟨z, hz, hifc, hname⟩ := hF.fromZone
  rw [hname]
  exact ifacesOK_of_resolveIfaces hT.accepted hT.nonempty hT.zoneIfaces h hz hifc

theorem toZone_agree {refs out : List String} (h : resolveIfaces c refs = .ok out) :
    zoneMatches refs input.toZone = ifacesOK out pkt.oif := by
  obtain ⟨z, hz, hifc, hname⟩ := hF.toZone
  rw [hname]
  exact ifacesOK_of_resolveIfaces hT.accepted hT.nonempty hT.zoneIfaces h hz hifc

omit hF in
theorem addressMatches_agree {refs : List String} {out : List Prefix}
    (h : resolvePrefixes c refs = .ok out) {a : Addr} (ha : a.zone = "") :
    addressMatches idx refs a = .ok (prefixesOK out a) := by
  refine matchAnyRefs_of_resolveRefs (fun ref pfx hpfx => ⟨pfx, ?_, ?_⟩) h
  · rw [hT.addresses]
    exact hpfx
  · exact contains_eq_covers pfx ha

theorem servicesMatch_agree {refs : List String} {out : List ServiceMatch}
    (h : resolveServices c refs = .ok out) :
    servicesMatch idx refs input.proto input.dstPort =
      .ok (out.isEmpty || out.any fun m => serviceOK m pkt) := by
  refine matchAnyRefs_of_resolveRefs (fun ref m hm => ?_) h
  obtain ⟨s, hs, hcheck, hsm⟩ := hT.services ref m hm
  refine ⟨s, hs, ?_⟩
  rw [hF.port]
  exact serviceMatches_eq hcheck hsm hF.proto

/-- **Rules agree**: the explainer finds no reason against a rule exactly when the packet
matches the compiled rule. -/
theorem ruleMatches_agree {r : Rule} {rir : RuleIR} (hr : compileRule c r = .ok rir)
    (happ : r.applications = []) (hctx : r.matchContext = none) :
    ∃ reason, ruleMatches idx input r = .ok reason ∧ reason.isNone = matchesRule rir pkt := by
  obtain ⟨hfrom, hto, hsrc, hdst, ⟨services, apps, hsvc, hloop, hsvcs, -⟩, -⟩ := compileRule_ok hr
  rw [happ] at hloop
  cases hloop
  have h1 := fromZone_agree hT hF hfrom
  have h2 := toZone_agree hT hF hto
  have h3 := addressMatches_agree hT hsrc (a := pkt.src) pkt.src_zone
  have h4 := addressMatches_agree hT hdst (a := pkt.dst) pkt.dst_zone
  have h5 := servicesMatch_agree hT hF hsvc
  have h6 : applicationMatches idx [] input = .ok true := rfl
  unfold ruleMatches matchesRule
  rw [h1, h2, hF.src, h3, hF.dst, h4, h5, happ, h6, hctx, hsvcs]
  generalize ifacesOK rir.fromIfaces pkt.iif = b1
  generalize ifacesOK rir.toIfaces pkt.oif = b2
  generalize prefixesOK rir.srcPrefixes pkt.src = b3
  generalize prefixesOK rir.dstPrefixes pkt.dst = b4
  generalize (services.isEmpty || services.any fun m => serviceOK m pkt) = b5
  cases b1 <;> cases b2 <;> cases b3 <;> cases b4 <;> cases b5 <;> exact ⟨_, rfl, rfl⟩

/-- What the rendered table decides, in the explainer's words: a rule's verdict, or the
chain policy. -/
def verdictOf : Option Effect → ExplainVerdict
  | some (.verdict .accept) => .allowed
  | some (.verdict .drop) => .denied
  | some (.verdict .reject) => .rejected
  | _ => .defaultDrop

omit hT hF in
theorem verdictForAction_of_actionFromProto {ctx : String} {action : Action} {a : RuleAction}
    (h : actionFromProto ctx action false = .ok a) :
    verdictForAction action = verdictOf (some (.verdict (verdict a))) := by
  cases action <;> simp [actionFromProto] at h <;> subst h <;> rfl

/-- **The rule loops agree**: the walk ends, at the rule whose compiled form is the first
to match the packet. -/
theorem walkRules_agree : ∀ {rules : List Rule} {irs : List RuleIR} (k : Nat),
    List.Forall₂ (fun r ir => compileRule c r = .ok ir) (rules.filter fun r => !r.disabled) irs →
    (∀ r ∈ rules, r.applications = [] ∧ r.matchContext = none) →
    ∃ hit trace, walkRules idx input (rules.zipIdx k) = .ok (hit, trace) ∧
      hitVerdict hit = verdictOf (irs.findSome? fun r =>
        if matchesRule r pkt then some (.verdict (verdict r.action)) else none) := by
  intro rules
  induction rules with
  | nil =>
      intro irs k h _
      cases h
      exact ⟨none, [], rfl, rfl⟩
  | cons r rules ih =>
      intro irs k h hplain
      have hplain' : ∀ r ∈ rules, r.applications = [] ∧ r.matchContext = none :=
        fun r' hr' => hplain r' (List.mem_cons_of_mem _ hr')
      rw [List.zipIdx_cons]
      cases hd : r.disabled with
      -- a disabled rule is passed over, and was not compiled
      | true =>
          rw [List.filter_cons_of_neg (by simp [hd])] at h
          obtain ⟨hit, trace, hwalk, hverdict⟩ := ih (k + 1) h hplain'
          obtain ⟨trace', hwalk'⟩ := walkRules_skip (i := k) (.inl hd) hwalk
          exact ⟨hit, trace', hwalk', hverdict⟩
      | false =>
          rw [List.filter_cons_of_pos (by simp [hd])] at h
          cases h with
          | @cons _ rir _ irs hr hrest =>
          obtain ⟨happ, hctx⟩ := hplain r List.mem_cons_self
          obtain ⟨reason, hreason, hnone⟩ := ruleMatches_agree hT hF hr happ hctx
          obtain ⟨hit, trace, hwalk, hverdict⟩ := ih (k + 1) hrest hplain'
          obtain ⟨-, -, -, -, -, haction, -⟩ := compileRule_ok hr
          rw [List.findSome?_cons]
          -- no reason against the rule: it decides on both sides
          cases reason with
          | none =>
              rw [← hnone]
              exact ⟨some (r, k), [], walkRules_hit hd hreason,
                verdictForAction_of_actionFromProto haction⟩
          | some reason =>
              rw [← hnone]
              obtain ⟨trace', hwalk'⟩ := walkRules_skip (i := k) (.inr ⟨reason, hreason⟩) hwalk
              exact ⟨hit, trace', hwalk', hverdict⟩

/-! ### Destination translation

Both take the first translation that matches. The explainer reads addresses and services of the
policy, the packet filter the line. -/

omit hF in
/-- A reference that must name a host resolves to a single-host prefix. -/
theorem isSingleIP_of_hostAddress {ref : String} {pfx : Prefix}
    (h : hostAddress (collectAll q).2 ref = true) (hl : c.addrs.lookup ref = some pfx) :
    pfx.isSingleIP = true := by
  rw [hT.cidr] at hl
  unfold hostAddress at h
  rw [hT.accepted.addresses_eq] at h
  cases ha : (tableOf Address.name id q.addresses).lookup ref with
  | none => simp [ha] at h
  | some a =>
      simp only [ha, Option.bind_some] at h hl
      simpa [hl] using h

/-- One destination translation: the explainer's three tests are the line's. -/
theorem findDNAT_cons {dn : DestinationNat} {d : DNATIR} (hd : compileDNAT c dn = .ok d)
    (hcheck : checkDestinationNat (collectAll q).2 dn = []) (i : Nat)
    (rest : List (DestinationNat × Nat)) :
    ∃ target, target.addr = d.translateTo ∧ c.addrs.lookup dn.translatedAddress = some target ∧
      findDNAT idx input ((dn, i) :: rest) =
        if matchesDNAT d pkt then .ok (some (dn, i, target)) else findDNAT idx input rest := by
  obtain ⟨hifs, ⟨m, hm, hproto, hports⟩, ⟨dst, hdst, hmatch⟩, ⟨target, htarget, hto⟩, -⟩ :=
    compileDNAT_ok hd
  unfold checkDestinationNat at hcheck
  simp only [List.append_eq_nil_iff, errIf, ite_eq_right_iff, List.cons_ne_nil, imp_false,
    Bool.not_eq_true, Bool.not_eq_false'] at hcheck
  obtain ⟨⟨⟨-, hhost⟩, -⟩, -⟩ := hcheck
  obtain ⟨s, hs, hscheck, hsm⟩ := hT.services _ m hm
  have hzone := fromZone_agree hT hF hifs
  have hsvc : serviceMatches s input.proto input.dstPort = serviceOK ⟨d.protocol, d.ports⟩ pkt := by
    rw [hF.port, serviceMatches_eq hscheck hsm hF.proto, hproto, hports]
  have hcontains : dst.contains input.dst = decide (d.matchDst = pkt.dst) := by
    rw [hF.dst, contains_eq_covers dst pkt.dst_zone,
      covers_of_isSingleIP (isSingleIP_of_hostAddress hT hhost hdst) pkt.dst_zone, hmatch]
  refine ⟨target, hto.symm, htarget, ?_⟩
  have hmatches : matchesDNAT d pkt = (ifacesOK d.inIfaces pkt.iif &&
      decide (d.matchDst = pkt.dst) && serviceOK ⟨d.protocol, d.ports⟩ pkt) := rfl
  simp only [findDNAT, hzone, hs, hsvc, hT.addresses, hdst, hcontains, htarget]
  cases h1 : ifacesOK d.inIfaces pkt.iif <;> cases h2 : serviceOK ⟨d.protocol, d.ports⟩ pkt <;>
    by_cases h3 : d.matchDst = pkt.dst <;> simp [hmatches, h1, h2, h3]

/-- **The destination translations agree**: the explainer finds the translation whose line
is the first to apply, and reports its target. -/
theorem findDNAT_agree (env : Env) : ∀ {dns : List DestinationNat} {ds : List DNATIR}
    {lines : List Line} (k : Nat), List.Forall₂ (fun dn d => compileDNAT c dn = .ok d) dns ds →
    List.Forall₂ (fun d l => dnatLine d = .ok l) ds lines →
    (∀ dn ∈ dns, checkDestinationNat (collectAll q).2 dn = []) →
    (∀ d ∈ ds, d.translateTo.is4 = d.matchDst.is4) →
    ∃ found, findDNAT idx input (dns.zipIdx k) = .ok found ∧
      match found with
      | none => lines.findSome? (Line.run env pkt) = none
      | some (dn, _, target) => dn ∈ dns ∧ target.addr.is4 = pkt.dst.is4 ∧
          lines.findSome? (Line.run env pkt) =
            some (.dnat target.addr (uint16 dn.translatedPort)) := by
  intro dns
  induction dns with
  | nil =>
      intro ds lines k hds hlines _ _
      cases hds
      cases hlines
      exact ⟨none, rfl, rfl⟩
  | cons dn dns ih =>
      intro ds lines k hds hlines hcheck hfam
      cases hds with
      | @cons _ d _ ds hd hds =>
      cases hlines with
      | @cons _ l _ lines hl hlines =>
      obtain ⟨found, hfound, hrest⟩ := ih (k + 1) hds hlines
        (fun dn' h' => hcheck dn' (List.mem_cons_of_mem _ h'))
        (fun d' h' => hfam d' (List.mem_cons_of_mem _ h'))
      obtain ⟨target, htarget, -, hfind⟩ := findDNAT_cons hT hF hd (hcheck dn List.mem_cons_self) k
        (dns.zipIdx (k + 1))
      rw [List.zipIdx_cons, hfind, List.findSome?_cons,
        dnatLine_run hl (hfam d List.mem_cons_self)]
      cases hm : matchesDNAT d pkt with
      | false =>
          refine ⟨found, hfound, ?_⟩
          cases found with
          | none => exact hrest
          | some f => exact ⟨List.mem_cons_of_mem _ hrest.1, hrest.2⟩
      -- the translation matches, so the destination is the rule's own and has its family
      | true =>
          obtain ⟨-, -, -, -, hport⟩ := compileDNAT_ok hd
          have hdst : d.matchDst = pkt.dst := by
            simp only [matchesDNAT, Bool.and_eq_true, decide_eq_true_eq] at hm
            exact hm.1.2
          refine ⟨some (dn, k, target), rfl, List.mem_cons_self, ?_, ?_⟩
          · rw [htarget, hfam d List.mem_cons_self, hdst]
          · rw [htarget, ← hport]
            rfl

omit hT in
/-- The translated flow is the flow of the translated packet. -/
theorem flowOf_translateDst {dn : DestinationNat} {target : Prefix}
    (hfam : target.addr.is4 = pkt.dst.is4) (hport : dn.translatedPort ≤ 65535) :
    FlowOf q (translateDst input dn target)
      (pkt.dnatted (some (.dnat target.addr (uint16 dn.translatedPort)))) := by
  have huint : uint16 dn.translatedPort = dn.translatedPort := Nat.mod_eq_of_lt (by omega)
  have hzone := target.zone_eq
  have hdst : (pkt.withDst target.addr).dst = target.addr ∧
      (pkt.withDst target.addr).src = pkt.src ∧ (pkt.withDst target.addr).iif = pkt.iif ∧
      (pkt.withDst target.addr).oif = pkt.oif ∧ (pkt.withDst target.addr).l4 = pkt.l4 := by
    unfold Packet.dst at hfam
    unfold Packet.withDst Packet.dst Packet.src
    cases hh : pkt.header <;> cases ht : target.addr <;> simp [hh, ht, Addr.is4] at hfam ⊢
    simpa [ht, Addr.zone, eq_comm] using hzone
  obtain ⟨h1, h2, h3, h4, h5⟩ := hdst
  refine {
    fromZone := ?_
    toZone := ?_
    src := ?_
    dst := h1.symm
    port := ?_
    proto := ?_ }
  · simpa only [translateDst, Packet.dnatted, h3] using hF.fromZone
  · simpa only [translateDst, Packet.dnatted, h4] using hF.toZone
  · exact hF.src.trans h2.symm
  · simp only [translateDst, Packet.dnatted, huint, hF.port]
    by_cases hz : dn.translatedPort = 0 <;> simp [hz]
  · simpa only [translateDst, Packet.dnatted, h5] using hF.proto

/-- The translation step of the explainer: it succeeds, reports nothing about the source
yet, and hands on the flow of the packet that leaves the prerouting chain. -/
theorem applyDNAT_agree (env : Env) {ds : List DNATIR} {lines : List Line}
    (hds : List.Forall₂ (fun dn d => compileDNAT c dn = .ok d) q.getNat.destination ds)
    (hlines : List.Forall₂ (fun d l => dnatLine d = .ok l) ds lines)
    (hfam : ∀ d ∈ ds, d.translateTo.is4 = d.matchDst.is4) :
    ∃ profile out, applyDNAT idx input = .ok (profile, out) ∧ profile.source.matched = false ∧
      FlowOf q out (pkt.dnatted (lines.findSome? (Line.run env pkt))) := by
  obtain ⟨found, hfound, hrun⟩ := findDNAT_agree hT hF env 0 hds hlines
    hT.accepted.destination_ok hfam
  rw [← hT.policy] at hfound
  unfold applyDNAT
  cases found with
  | none =>
      simp only at hrun
      refine ⟨baseNatProfile input, input, by rw [hfound]; rfl, rfl, ?_⟩
      rw [hrun]
      exact hF
  | some f =>
      obtain ⟨dn, i, target⟩ := f
      obtain ⟨hmem, h4, hrun⟩ := hrun
      have hport : dn.translatedPort ≤ 65535 := by
        have hcheck := hT.accepted.destination_ok dn hmem
        unfold checkDestinationNat at hcheck
        simp only [List.append_eq_nil_iff, errIf, ite_eq_right_iff, List.cons_ne_nil, imp_false,
          decide_eq_true_eq, Nat.not_lt] at hcheck
        exact hcheck.2
      rw [hfound, hrun]
      exact ⟨_, _, rfl, rfl, flowOf_translateDst hF h4 hport⟩

/-! ### Source translation

The flow that leaves is that of the packet that leaves, so the comparison is that of the destination
once more. That the explainer's report can fail is excluded here. -/

/-- One source translation: the explainer's tests are the line's, and a matching one can
be carried out. -/
theorem findSNAT_cons {sn : SourceNat} {s : SNATIR} (hs : compileSNAT c sn = .ok s)
    (hcheck : checkSourceNat (collectAll q).2 sn = []) (i : Nat) (rest : List (SourceNat × Nat)) :
    ∃ target : Option Prefix, target.isNone = sn.masquerade ∧
      findSNAT idx input ((sn, i) :: rest) =
        if matchesSNAT s pkt then some (sn, i, target) else findSNAT idx input rest := by
  obtain ⟨hifs, hsrc, htarget, -⟩ := compileSNAT_ok hs
  have hzone := toZone_agree hT hF hifs
  have haddr : (sn.sourceAddress == "" || sn.sourceAddress == Any ||
      ((c.addrs.lookup sn.sourceAddress).map fun pfx => pfx.contains input.src).getD false) =
      (s.srcPrefix.map fun pfx => covers pfx pkt.src).getD true := by
    by_cases hany : sn.sourceAddress ≠ "" ∧ sn.sourceAddress ≠ Any
    · rw [if_pos hany] at hsrc
      obtain ⟨pfx, hpfx, hl⟩ := hsrc
      simp [hpfx, hl, hany.1, hany.2, hF.src, contains_eq_covers pfx pkt.src_zone]
    · rw [if_neg hany] at hsrc
      rw [hsrc]
      by_cases he : sn.sourceAddress = ""
      · simp [he]
      · have ha : sn.sourceAddress = Any := by
          by_contra hne
          exact hany ⟨he, hne⟩
        simp [ha]
  have hmatch : snatMatches idx input sn = matchesSNAT s pkt := by
    unfold snatMatches matchesSNAT
    rw [hzone, hT.addresses, haddr]
  rw [findSNAT, hmatch]
  cases hmasq : sn.masquerade with
  | true =>
      refine ⟨none, rfl, ?_⟩
      cases matchesSNAT s pkt <;> rfl
  | false =>
      rw [hmasq] at htarget
      obtain ⟨pfx, -, hpfx⟩ := htarget
      have hne : sn.translatedAddress ≠ "" := by
        unfold checkSourceNat at hcheck
        intro he
        simp [hmasq, he] at hcheck
      refine ⟨some pfx, rfl, ?_⟩
      rw [hT.addresses, hpfx, if_neg hne]
      cases matchesSNAT s pkt <;> rfl

/-- **The source translations agree**: the explainer finds the translation whose line is
the first to match. -/
theorem findSNAT_agree (env : Env) : ∀ {sns : List SourceNat} {ss : List SNATIR} (k : Nat),
    List.Forall₂ (fun sn s => compileSNAT c sn = .ok s) sns ss →
    (∀ sn ∈ sns, checkSourceNat (collectAll q).2 sn = []) →
    match (ss.map snatLine).findIdx? (Line.applies env pkt) with
    | none => findSNAT idx input (sns.zipIdx k) = none
    | some i => ∃ sn, sns[i]? = some sn ∧ ∃ target : Option Prefix,
        target.isNone = sn.masquerade ∧
        findSNAT idx input (sns.zipIdx k) = some (sn, i + k, target) := by
  intro sns
  induction sns with
  | nil =>
      intro ss k hss _
      cases hss
      rfl
  | cons sn sns ih =>
      intro ss k hss hcheck
      cases hss with
      | @cons _ s _ ss hs hss =>
      obtain ⟨target, hmasq, hfind⟩ := findSNAT_cons hT hF hs (hcheck sn List.mem_cons_self) k
        (sns.zipIdx (k + 1))
      have hrest := ih (k + 1) hss fun sn' h' => hcheck sn' (List.mem_cons_of_mem _ h')
      rw [List.zipIdx_cons, hfind, List.map_cons, List.findIdx?_cons, snatLine_applies]
      cases matchesSNAT s pkt with
      | true => exact ⟨sn, rfl, target, hmasq, by simp⟩
      | false =>
          simp only [Bool.false_eq_true, if_false]
          cases hi : (ss.map snatLine).findIdx? (Line.applies env pkt) with
          | none =>
              rw [hi] at hrest
              exact hrest
          | some i =>
              rw [hi] at hrest
              obtain ⟨sn', hget, target', hmasq', hfind'⟩ := hrest
              refine ⟨sn', by simpa using hget, target', hmasq', ?_⟩
              rw [hfind', Nat.add_assoc, Nat.add_comm 1 k]

end Flow

/-- A source-translation report names the `i`-th translation, or none. -/
def ReportsSNAT (sources : List SourceNat) (profile : ExplainSourceNatProfile) :
    Option Nat → Prop
  | none => profile.matched = false
  | some i => ∃ sn, sources[i]? = some sn ∧ profile.matched = true ∧
      profile.matchedRule = sn.name ∧ profile.matchedRuleId = sn.id ∧
      profile.matchedRuleIndex = i % 2 ^ 32 ∧ profile.masquerade = sn.masquerade

theorem evaluateSNAT_reports {q : Phragma.Policy} {c : Compilation} {idx : Index}
    {input : FlowInput} {pkt : Packet} (hT : Tables q c idx) (hF : FlowOf q input pkt) {env : Env}
    {ss : List SNATIR} (hss : List.Forall₂ (fun sn s => compileSNAT c sn = .ok s) q.getNat.source ss)
    {profile : ExplainNatProfile} (hprofile : profile.source.matched = false) :
    ReportsSNAT q.getNat.source (evaluateSNAT idx input profile).1.source
      ((ss.map snatLine).findIdx? (Line.applies env pkt)) := by
  have hagree := findSNAT_agree hT hF env 0 hss hT.accepted.source_ok
  rw [← hT.policy] at hagree ⊢
  unfold evaluateSNAT
  cases hi : (ss.map snatLine).findIdx? (Line.applies env pkt) with
  | none =>
      rw [hi] at hagree
      simp only at hagree
      rw [hagree]
      exact hprofile
  | some i =>
      rw [hi] at hagree
      obtain ⟨sn, hget, target, hmasq, hfind⟩ := hagree
      rw [hfind]
      exact ⟨sn, hget, rfl, rfl, rfl, rfl, hmasq⟩

/-! ### The whole table

A packet runs through prerouting, forward and postrouting, and the explanation through the same
stages. -/

/-- The family of the prefix an address reference resolves to. -/
def familyOf (p : Phragma.Policy) (ref : String) : Option Bool :=
  (((tableOf Address.name id p.addresses).lookup ref).bind fun a => parsePrefix a.cidr).map
    fun pfx => pfx.addr.is4

/-- Two address references do not resolve to different families. -/
def SameFamily (p : Phragma.Policy) (ref ref' : String) : Prop :=
  ∀ f ∈ familyOf p ref, ∀ f' ∈ familyOf p ref', f = f'

/-- The policies the comparison is about. -/
structure InScope (p : Phragma.Policy) : Prop where
  zone_interfaces : ∀ z ∈ p.zones, z.interfaces ≠ []
  rules_plain : ∀ r ∈ p.rules, r.applications = [] ∧ r.matchContext = none
  source_family : ∀ sn ∈ p.getNat.source, SameFamily p sn.sourceAddress sn.translatedAddress
  destination_family : ∀ dn ∈ p.getNat.destination,
    SameFamily p dn.destinationAddress dn.translatedAddress
  not_prevent : p.getIds.enabled = true → p.getIds.mode ≠ .prevent
  intel_off : ∀ intel, p.intel = some intel →
    intel.customFeeds = [] ∧ ∀ f ∈ intel.feeds, f.enabled = false

/-- A request about the first packet of an IPv4 flow between two zones. -/
structure RequestOf (p : Phragma.Policy) (req : ExplainFlowRequest) (pkt : Packet) : Prop where
  family : pkt.family = .ip
  untracked : pkt.ct = .new ∨ pkt.ct = .untracked
  fromZone : ∃ z ∈ p.zones, pkt.iif ∈ z.interfaces ∧ req.fromZone = z.name
  toZone : ∃ z ∈ p.zones, pkt.oif ∈ z.interfaces ∧ req.toZone = z.name
  src : parseAddr req.srcIp = some pkt.src
  dst : parseAddr req.destIp = some pkt.dst
  srcPort : req.srcPort ≤ 65535
  destPort : req.destPort = pkt.dport
  dport : pkt.dport ≤ 65535
  proto : flowProto pkt.l4 = some req.protocol

/-- The packet that leaves the prerouting chain. -/
def prerouted (rs : Ruleset) (env : Env) (pkt : Packet) : Packet :=
  pkt.dnatted ((chainLines rs.natPrerouting).findSome? (Line.run env pkt))

/-- The verdict of the rendered table: prerouting, then the forward chain. -/
def tableVerdict (rs : Ruleset) (env : Env) (pkt : Packet) : ExplainVerdict :=
  verdictOf (rs.forward.run env (prerouted rs env pkt))

/-- The first postrouting line whose matches hold. -/
def tableSNAT (rs : Ruleset) (env : Env) (pkt : Packet) : Option Nat :=
  (chainLines rs.natPostrouting).findIdx? (Line.applies env (prerouted rs env pkt))

/-- Requests that parse to the flow of their packet; the only ones refused are TCP and UDP
flows to port zero. -/
theorem parseInput_of_request {p : Phragma.Policy} {req : ExplainFlowRequest} {pkt : Packet}
    (h : RequestOf p req pkt) :
    (∃ e, parseInput req = .error e ∧ (pkt.l4 = .tcp ∨ pkt.l4 = .udp) ∧ pkt.dport = 0) ∨
      ∃ input, parseInput req = .ok input ∧ FlowOf p input pkt := by
  have hdport : ¬ 65535 < req.destPort := by
    rw [h.destPort]
    exact Nat.not_lt.mpr h.dport
  have hflow : FlowOf p ⟨req.fromZone, req.toZone, pkt.src, req.srcPort, pkt.dst, req.destPort,
      req.protocol, toLower (trimSpace req.appId), requestMatchContext req.matchContext⟩ pkt :=
    ⟨h.fromZone, h.toZone, rfl, rfl, h.destPort, h.proto⟩
  unfold parseInput
  simp only [h.src, h.dst, if_neg (Nat.not_lt.mpr h.srcPort), if_neg hdport]
  have hproto := h.proto
  cases hl : pkt.l4 <;> rw [hl] at hproto <;> simp only [flowProto, Option.some.injEq,
    reduceCtorEq] at hproto
  case icmp =>
    rw [← hproto] at hflow ⊢
    exact .inr ⟨_, rfl, hflow⟩
  all_goals
    rw [← hproto] at hflow ⊢
    by_cases hz : req.destPort = 0
    · exact .inl ⟨_, if_pos hz, by simp, by rw [← h.destPort, hz]⟩
    · exact .inr ⟨_, if_neg hz, hflow⟩

/-- The compiled destination translations stay within a family. -/
theorem dnat_family {q : Phragma.Policy} {c : Compilation} {idx : Index} (hT : Tables q c idx)
    (hsame : ∀ dn ∈ q.getNat.destination, SameFamily q dn.destinationAddress dn.translatedAddress)
    {ds : List DNATIR}
    (hds : List.Forall₂ (fun dn d => compileDNAT c dn = .ok d) q.getNat.destination ds) :
    ∀ d ∈ ds, d.translateTo.is4 = d.matchDst.is4 := by
  intro d hd
  obtain ⟨dn, hdn, hc⟩ := exists_of_forall₂_right hds hd
  obtain ⟨-, -, ⟨dst, hdst, hmatch⟩, ⟨target, htarget, hto⟩, -⟩ := compileDNAT_ok hc
  rw [hT.cidr] at hdst htarget
  rw [hto, hmatch]
  exact (hsame dn hdn _ (by simp [familyOf, hdst]) _ (by simp [familyOf, htarget])).symm

/-! Normalization changes ids only, so the policy handed to the compiler is in scope too. -/

theorem normalizeIdentities_rules_forall {γ : Type} {H : IdentityHash} {p : Phragma.Policy}
    {f : Rule → γ} (hf : ∀ r id, f { r with id } = f r) {P : γ → Prop} (h : ∀ r ∈ p.rules, P (f r)) :
    ∀ r ∈ (normalizeIdentities H p).rules, P (f r) := by
  intro r hr
  have hmem := normalizeIdentities_rules_map H p hf ▸ List.mem_map_of_mem (f := f) hr
  obtain ⟨r', hr', heq⟩ := List.mem_map.mp hmem
  exact heq ▸ h r' hr'

theorem normalizeIdentities_sameFamily {H : IdentityHash} {p : Phragma.Policy}
    (h : ∀ dn ∈ p.getNat.destination, SameFamily p dn.destinationAddress dn.translatedAddress) :
    ∀ dn ∈ (normalizeIdentities H p).getNat.destination,
      SameFamily (normalizeIdentities H p) dn.destinationAddress dn.translatedAddress := by
  have hmap := normalizeIdentities_destination_map H p
    (f := fun dn => (dn.destinationAddress, dn.translatedAddress)) (fun _ _ => rfl)
  intro dn hdn
  have hmem := hmap ▸ List.mem_map_of_mem
    (f := fun dn : DestinationNat => (dn.destinationAddress, dn.translatedAddress)) hdn
  obtain ⟨dn', hdn', heq⟩ := List.mem_map.mp hmem
  simp only [Prod.mk.injEq] at heq
  rw [← heq.1, ← heq.2]
  exact h dn' hdn'

/-- Rules without applications are all rendered. -/
theorem appIDOnly_of_plain {c : Compilation} {rules : List Rule} {irs : List RuleIR}
    (h : List.Forall₂ (fun r ir => compileRule c r = .ok ir) (rules.filter fun r => !r.disabled) irs)
    (hplain : ∀ r ∈ rules, r.applications = []) :
    ∀ ir ∈ irs, ir.appIDOnly = false := by
  intro ir hir
  obtain ⟨r, hr, hc⟩ := exists_of_forall₂_right h hir
  obtain ⟨-, -, -, -, ⟨services, apps, -, -, -, -, honly⟩, -⟩ := compileRule_ok hc
  rw [honly, hplain r (List.mem_filter.mp hr).1]
  rfl

/-- **The forward chain of a compiled policy** without applications, that neither prevents nor has
threat feeds, on an IPv4 packet that the explainer can be asked about: the first rule decides that
matches. -/
theorem forward_run_compiled {q : Phragma.Policy} {c : Compilation} {ir : IR} {rs : Ruleset}
    (hC : Compiled q c ir) (hR : Rendered ir rs) (env : Env) {input : FlowInput} {pkt : Packet}
    (hF : FlowOf q input pkt) (hfamily : pkt.family = .ip) (hct : pkt.ct = .new ∨ pkt.ct = .untracked)
    (hplain : ∀ r ∈ q.rules, r.applications = [])
    (hids : q.getIds.enabled = true → q.getIds.mode ≠ .prevent)
    (hintel : ∀ intel, q.intel = some intel →
      intel.customFeeds = [] ∧ ∀ f ∈ intel.feeds, f.enabled = false) :
    rs.forward.run env pkt = ir.rules.findSome? fun r =>
      if matchesRule r pkt then some (.verdict (verdict r.action)) else none := by
  refine forward_run ⟨fun _ hl => ?_, fun h6 => ?_⟩ hR (appIDOnly_of_plain hC.rules hplain) ?_ ?_ hct
  · have hproto := hF.proto
    rw [hl] at hproto
    cases hproto
  · rw [hfamily] at h6
    cases h6
  · intro ids hsome
    obtain ⟨henabled, hprevent, -, -⟩ := compileIDs_ok (hsome ▸ hC.ids)
    rw [hprevent, beq_eq_false_iff_ne]
    exact hids henabled
  · rw [intelEnabled, hC.intel, compileIntel_none hintel]
    rfl

/-- What cannot be parsed is refused. -/
theorem ExplainFlow_of_parseInput {H : IdentityHash} {p : Phragma.Policy}
    {req : ExplainFlowRequest} {e : String} (h : parseInput req = .error e) (version : Nat) :
    ExplainFlow H p req version = .error e := by
  unfold ExplainFlow
  simp only [h, bind, Except.bind]

/-- **Explain agrees with the rendered data plane.** For every policy in scope that
compiles and renders, and every request about a new IPv4 TCP, UDP or ICMP flow between two
of its zones: the explainer refuses only TCP and UDP flows to port zero; otherwise its
verdict is that of the rendered table on the flow's first packet, and for an allowed flow
the source translation it reports is the first postrouting line that matches. -/
theorem ExplainFlow_agrees {H : IdentityHash} {p : Phragma.Policy} {ir : IR} {rs : Ruleset}
    (env : Env) {pkt : Packet} {req : ExplainFlowRequest} (version : Nat)
    (hcompile : Compile H p = .ok ir) (hrender : renderRuleset ir = .ok rs) (hscope : InScope p)
    (hreq : RequestOf p req pkt) :
    match ExplainFlow H p req version with
    | .error _ => (pkt.l4 = .tcp ∨ pkt.l4 = .udp) ∧ pkt.dport = 0
    | .ok resp => resp.verdict = tableVerdict rs env pkt ∧
        (resp.verdict = .allowed → ReportsSNAT (normalizeIdentities H p).getNat.source
          resp.natProfile.source (tableSNAT rs env pkt)) := by
  obtain ⟨hvalid, c, hC⟩ := Compile_ok hcompile
  have hA := accepted_of_Validate hvalid
  have hR := rendered_of_renderRuleset hrender
  obtain ⟨idx, hidx, hT⟩ := tables_of_compiled hA hscope.zone_interfaces hC
  have hplain := normalizeIdentities_rules_forall (H := H) (f := fun r => (r.applications, r.matchContext))
    (P := fun x => x.1 = [] ∧ x.2 = none) (fun _ _ => rfl) hscope.rules_plain
  have hsame := normalizeIdentities_sameFamily (H := H) hscope.destination_family
  rcases parseInput_of_request hreq with ⟨e, he, hzero⟩ | ⟨input, hinput, hF⟩
  · rw [ExplainFlow_of_parseInput he]
    exact hzero
  · have hF : FlowOf (normalizeIdentities H p) input pkt := ⟨hF.1, hF.2, hF.3, hF.4, hF.5, hF.6⟩
    obtain ⟨nat, out, hdnat, hmatched, hF'⟩ := applyDNAT_agree hT hF env hC.dnat
      hR.prerouting (dnat_family hT hsame hC.dnat)
    obtain ⟨hit, trace, hwalk, hverdict⟩ := walkRules_agree hT hF' 0 hC.rules hplain
    obtain ⟨resp, hresp, hrv, hnat⟩ := ExplainFlow_of_hit version hinput hidx hdnat hwalk
    rw [hresp]
    refine ⟨?_, ?_⟩
    · rw [hrv, hverdict, tableVerdict]
      refine congrArg verdictOf (forward_run_compiled hC hR env hF' ?_ ?_
        (fun r hr => (hplain r hr).1) hscope.not_prevent hscope.intel_off).symm
      · rw [Packet.dnatted_family, hreq.family]
      · rw [Packet.dnatted_ct]
        exact hreq.untracked
    · intro hallow
      rw [hnat hallow, tableSNAT, hR.postrouting]
      exact evaluateSNAT_reports hT hF' hC.snat hmatched

/-- A published web server: inbound HTTPS is translated to an inside host and port, which
one rule allows, and everything that leaves by the outside is masqueraded. -/
def publishedServer : Phragma.Policy where
  zones := [{ name := "wan", interfaces := ["eth0"] }, { name := "lan", interfaces := ["eth1"] }]
  addresses := [{ name := "public", cidr := "203.0.113.10/32" },
    { name := "web", cidr := "10.0.0.5/32" }]
  services := [{ name := "https", protocol := .tcp, ports := [⟨443, 0⟩] },
    { name := "alt", protocol := .tcp, ports := [⟨8000, 8999⟩] }]
  rules := [{ id := "rule-1", name := "no-web", fromZones := ["lan"], services := ["alt"]
              action := .deny },
    { id := "rule-2", name := "web-in", fromZones := ["wan"], toZones := ["lan"]
      destinationAddresses := ["web"], services := ["alt"], action := .allow }]
  nat := some {
    source := [{ id := "snat-1", name := "out", toZone := "wan", masquerade := true },
      { id := "snat-2", name := "hairpin", toZone := "lan", masquerade := true }]
    destination := [{ id := "dnat-1", name := "publish", fromZone := "wan", service := "https"
                      destinationAddress := "public", translatedAddress := "web"
                      translatedPort := 8443 }] }

/-- A connection from outside to the published address. -/
def inbound : Packet :=
  { iif := "eth0", oif := "eth1", header := .ip 0xc6336401#32 0xcb00710a#32, l4 := .tcp
    dport := 443, ct := .new, syn := true }

def inboundRequest : ExplainFlowRequest :=
  { fromZone := "wan", toZone := "lan", srcIp := "198.51.100.1", srcPort := 40000
    destIp := "203.0.113.10", destPort := 443, protocol := .tcp }

/-- At the published server the flow is allowed on both sides, and the second source
translation is the one that matches. -/
theorem ExplainFlow_agrees_publishedServer :
    ∃ ir rs resp, Compile .zero publishedServer = .ok ir ∧ renderRuleset ir = .ok rs ∧
      ExplainFlow .zero publishedServer inboundRequest 1 = .ok resp ∧ resp.verdict = .allowed ∧
      resp.verdict = tableVerdict rs .empty inbound ∧ tableSNAT rs .empty inbound = some 1 ∧
      ReportsSNAT (normalizeIdentities .zero publishedServer).getNat.source resp.natProfile.source
        (tableSNAT rs .empty inbound) := by
  have hscope : InScope publishedServer := by
    refine ⟨by decide, by decide, ?_, ?_, by decide, ?_⟩
    · unfold SameFamily; decide
    · unfold SameFamily; decide
    · intro intel h
      cases h
  have hreq : RequestOf publishedServer inboundRequest inbound := by
    constructor <;> decide
  have hall : ∃ ir rs resp, Compile .zero publishedServer = .ok ir ∧ renderRuleset ir = .ok rs ∧
      ExplainFlow .zero publishedServer inboundRequest 1 = .ok resp ∧ resp.verdict = .allowed ∧
      tableSNAT rs .empty inbound = some 1 := ⟨_, _, _, rfl, rfl, rfl, rfl, rfl⟩
  obtain ⟨ir, rs, resp, hcompile, hrender, hresp, hallowed, hsnat⟩ := hall
  have hagrees := ExplainFlow_agrees .empty 1 hcompile hrender hscope hreq
  rw [hresp] at hagrees
  exact ⟨ir, rs, resp, hcompile, hrender, hresp, hallowed, hagrees.1, hsnat, hagrees.2 hallowed⟩

end Phragma.Explain
