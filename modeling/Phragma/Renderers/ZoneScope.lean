import Phragma.Compiler.Compiled
import Phragma.Renderers.Nftables

/-!
# Phragma.Renderers.ZoneScope

**Which interfaces a zone-scoped element reaches.** Rules, host-input rules and address
translations name zones; the compiler resolves the names to interfaces and the renderer
emits an interface match, except that an empty list of interfaces means no match at all.

`zoneScope_iff` is the exact condition under which the scope survives: one of the named
zones has an interface. Zones without interfaces resolve to the empty list, and an element
scoped to such zones only is rendered without an interface match and applies to packets of
every interface. That there always is such a packet is the harder half: from what the
validator guarantees a packet is built that the lines of the element match.
-/

namespace Phragma.Renderers.Nftables

open Lib Go Policy Compiler Nft

/-! ### Zone-scoped elements and their lines

One definition for the four kinds of elements: which zones they name, and which lines they
become. -/

/-- Which of a packet's interfaces an element is scoped by. -/
inductive Direction
  | input
  | output
  deriving DecidableEq, Repr

/-- The interface of a packet in a direction. -/
def Direction.ifc : Direction → Packet → String
  | .input => Packet.iif
  | .output => Packet.oif

/-- The zone lists of a policy's elements, with the direction they scope and the rendered
lines. An element and its lines are found at the same position of the policy and of the
IR. Rules enforced by engine signals only have no line. -/
inductive ScopedLines (p : Phragma.Policy) (ir : IR) : List String → Direction → List Line → Prop
  | ruleFrom {i : Nat} {r : Rule} {rir : RuleIR} {lines : List Line}
      (hr : (p.rules.filter fun r => !r.disabled)[i]? = some r) (hir : ir.rules[i]? = some rir)
      (happ : rir.appIDOnly = false) (hl : ruleLinesWithComment rir "rule" = .ok lines) :
      ScopedLines p ir r.fromZones .input lines
  | ruleTo {i : Nat} {r : Rule} {rir : RuleIR} {lines : List Line}
      (hr : (p.rules.filter fun r => !r.disabled)[i]? = some r) (hir : ir.rules[i]? = some rir)
      (happ : rir.appIDOnly = false) (hl : ruleLinesWithComment rir "rule" = .ok lines) :
      ScopedLines p ir r.toZones .output lines
  | hostInput {hi : HostInput} {i : Nat} {r : HostInputRule} {rir : RuleIR} {lines : List Line}
      (hhi : p.hostInput = some hi) (hr : (hi.rules.filter fun r => !r.disabled)[i]? = some r)
      (hir : ir.hostInputRules[i]? = some rir)
      (hl : ruleLinesWithComment rir "host-input" = .ok lines) :
      ScopedLines p ir r.fromZones .input lines
  | source {i : Nat} {sn : SourceNat} {s : SNATIR} (hsn : p.getNat.source[i]? = some sn)
      (hs : ir.snat[i]? = some s) : ScopedLines p ir [sn.toZone] .output [snatLine s]
  | destination {i : Nat} {dn : DestinationNat} {d : DNATIR} {l : Line}
      (hdn : p.getNat.destination[i]? = some dn) (hd : ir.dnat[i]? = some d)
      (hl : dnatLine d = .ok l) : ScopedLines p ir [dn.fromZone] .input [l]

/-- Every line of a ruleset. -/
def Ruleset.lines (rs : Ruleset) : List Line :=
  rs.input.lines ++ rs.forward.lines ++ chainLines rs.natPrerouting ++ chainLines rs.natPostrouting

/-- The lines of a block are in the chain the blocks make up. -/
theorem mem_blocks {c : String} {rules : List RuleIR} {blocks : List (List Line)}
    (h : List.Forall₂ (fun r ls => ruleLinesWithComment r c = .ok ls) rules blocks) {r : RuleIR}
    (hr : r ∈ rules) {lines : List Line} (hl : ruleLinesWithComment r c = .ok lines) {l : Line}
    (hmem : l ∈ lines) : l ∈ blocks.flatten := by
  obtain ⟨ls, hls, heq⟩ := exists_of_forall₂_left h hr
  rw [hl] at heq
  cases heq
  exact List.mem_flatten.mpr ⟨lines, hls, hmem⟩

/-- The lines of a scoped element are in the rendered table. -/
theorem mem_lines_of_scopedLines {p : Phragma.Policy} {ir : IR} {rs : Ruleset}
    (hR : Rendered ir rs) {zones : List String} {dir : Direction} {lines : List Line}
    (h : ScopedLines p ir zones dir lines) : ∀ l ∈ lines, l ∈ rs.lines := by
  intro l hmem
  have hrule : ∀ {rir : RuleIR}, rir ∈ ir.rules → rir.appIDOnly = false →
      ruleLinesWithComment rir "rule" = .ok lines → l ∈ rs.lines := by
    intro rir hir happ hl
    obtain ⟨blocks, hblocks, hlines⟩ := hR.forward
    have hin := mem_blocks hblocks (List.mem_filter.mpr ⟨hir, by simp [happ]⟩) hl hmem
    simp [Ruleset.lines, hlines, hin]
  cases h with
  | ruleFrom hr hir happ hl => exact hrule (List.mem_of_getElem? hir) happ hl
  | ruleTo hr hir happ hl => exact hrule (List.mem_of_getElem? hir) happ hl
  | hostInput hhi hr hir hl =>
      obtain ⟨blocks, hblocks, hlines⟩ := hR.input
      have hin := mem_blocks hblocks (List.mem_of_getElem? hir) hl hmem
      simp [Ruleset.lines, hlines, hin]
  | @source i sn s hsn hs =>
      rw [List.mem_singleton.mp hmem]
      have hin := List.mem_map_of_mem (f := snatLine) (List.mem_of_getElem? hs)
      simp only [Ruleset.lines, hR.postrouting, List.mem_append]
      exact .inr hin
  | destination hdn hd hl =>
      rw [List.mem_singleton.mp hmem]
      obtain ⟨l', hl', heq⟩ := exists_of_forall₂_left hR.prerouting (List.mem_of_getElem? hd)
      rw [hl] at heq
      cases heq
      simp [Ruleset.lines, hl']

/-! ### The interface match

With an interface in its list a line asks for one of them; with none it asks for nothing. -/

/-- The lines of a rule apply only to packets its interface lists admit. -/
theorem ifacesOK_of_applies {env : Env} {pkt : Packet} {r : RuleIR} {c : String}
    {lines : List Line} (h : ruleLinesWithComment r c = .ok lines) {l : Line} (hl : l ∈ lines)
    (happ : l.applies env pkt = true) :
    ifacesOK r.fromIfaces pkt.iif = true ∧ ifacesOK r.toIfaces pkt.oif = true := by
  unfold ruleLinesWithComment at h
  split at h
  · cases h
  · cases h
    obtain ⟨fam, -, hl⟩ := List.mem_flatMap.mp hl
    obtain ⟨svc, -, hl⟩ := List.mem_flatMap.mp hl
    have hconds : l.conds = ruleConds r fam svc := by
      unfold ruleLine at hl
      rcases List.mem_append.mp hl with hl | hl
      · split at hl
        · rw [List.mem_singleton.mp hl]
        · cases hl
      · rw [List.mem_singleton.mp hl]
    unfold Line.applies at happ
    rw [hconds, ruleConds_all] at happ
    simp only [Bool.and_eq_true] at happ
    exact ⟨happ.1.1.1, happ.1.1.2⟩

/-! ### A packet the lines match

For each kind a packet is made that meets everything but the interface: addresses from the prefixes,
ports from the ranges. -/

/-- The ranges of a service match contain a port. -/
def Ranged (m : ServiceMatch) : Prop := ∀ pr ∈ m.ports, pr.start ≤ pr.stop

theorem ranged_of_checkPortRange {ports : List Policy.PortRange} {proto : Proto} {ctx : String}
    (h : ∀ pr ∈ ports, checkPortRange ctx pr = []) : Ranged ⟨proto, compilePorts ports⟩ := by
  intro pr hpr
  obtain ⟨pr₀, hpr₀, rfl⟩ := List.mem_map.mp hpr
  have hcheck := h pr₀ hpr₀
  simp only [checkPortRange, errIf, List.append_eq_nil_iff, ite_eq_right_iff, List.cons_ne_nil,
    imp_false, Bool.not_eq_true, Bool.or_eq_false_iff, Bool.and_eq_false_iff,
    decide_eq_false_iff_not, bne_eq_false_iff_eq, beq_eq_false_iff_ne] at hcheck
  have hstart : uint16 pr₀.start = pr₀.start := Nat.mod_eq_of_lt (by omega)
  have hstop : uint16 pr₀.stop = pr₀.stop := Nat.mod_eq_of_lt (by omega)
  simp only [hstart, hstop]
  split
  · exact Nat.le_refl _
  · omega

/-- Validated services are ranged. -/
theorem ranged_of_checkService {s : Service} {m : ServiceMatch} (hcheck : checkService s = [])
    (hm : Compiler.serviceMatch s = .ok m) : Ranged m := by
  unfold checkService at hcheck
  unfold Compiler.serviceMatch at hm
  cases hp : s.protocol <;> simp only [hp, Except.ok.injEq, reduceCtorEq] at hm hcheck <;> subst hm
  case tcp => exact ranged_of_checkPortRange (List.flatMap_eq_nil_iff.mp hcheck)
  case udp => exact ranged_of_checkPortRange (List.flatMap_eq_nil_iff.mp hcheck)
  all_goals
    have hempty : s.ports = [] := by simpa [errIf] using hcheck
    rw [hempty]
    intro pr hpr
    cases hpr

/-- Validated applications are ranged. -/
theorem ranged_of_checkApplication {app : Application} (hcheck : checkApplication app = [])
    {m : ServiceMatch} (hm : m ∈ applicationServiceMatches app) : Ranged m := by
  unfold checkApplication at hcheck
  simp only [List.append_eq_nil_iff] at hcheck
  unfold applicationServiceMatches at hm
  obtain ⟨hint, hhint, hm⟩ := List.mem_filterMap.mp hm
  obtain ⟨i, hi⟩ := List.mem_iff_getElem?.mp hhint
  have hport := List.flatMap_eq_nil_iff.mp hcheck.2 (hint, i)
    (List.mk_mem_zipIdx_iff_getElem?.mpr hi)
  unfold checkApplicationPort at hport
  split at hm
  · cases hm
  · rename_i hne
    cases hp : hint.protocol <;> simp only [hp, Option.some.injEq, reduceCtorEq] at hm hport <;>
      subst hm <;> rw [if_neg hne] at hport <;>
      exact ranged_of_checkPortRange (List.flatMap_eq_nil_iff.mp hport)

section Ranged

variable {p : Phragma.Policy} (hA : Accepted p) {c : Compilation} {ir : IR} (hC : Compiled p c ir)

include hA hC

/-- The services a reference list resolves to are ranged. -/
theorem ranged_of_resolveServices {refs : List String} {out : List ServiceMatch}
    (h : resolveServices c refs = .ok out) : ∀ m ∈ out, Ranged m := by
  intro m hm
  unfold resolveServices at h
  rcases resolveRefs_ok h with ⟨-, rfl⟩ | ⟨-, -, rfl⟩
  · cases hm
  · rw [List.nil_append] at hm
    obtain ⟨r, -, hr⟩ := List.mem_flatMap.mp hm
    cases hl : c.svcs.lookup r with
    | none => simp [hl] at hr
    | some m' =>
        have hmm : m = m' := by simpa [hl] using hr
        subst hmm
        obtain ⟨s, -, hcheck, hsm⟩ := service_of_lookup hA hC.toTablesOf hl
        exact ranged_of_checkService hcheck hsm

/-- The application loop keeps services ranged. -/
theorem ranged_of_compileApplications {rule : String} : ∀ {refs : List String} {s out : AppLoop},
    compileApplications c rule s refs = .ok out → (∀ m ∈ s.services, Ranged m) →
    ∀ m ∈ out.services, Ranged m := by
  intro refs
  induction refs with
  | nil =>
      intro s out h hs
      cases h
      exact hs
  | cons ref refs ih =>
      intro s out h hs
      unfold compileApplications at h
      split at h
      · cases h
        exact hs
      · cases hl : c.apps.lookup ref with
        | none => simp [hl] at h
        | some app =>
            simp only [hl] at h
            refine ih h ?_
            intro m hm
            rcases List.mem_append.mp hm with hm | hm
            · exact hs m hm
            · rw [hC.apps] at hl
              obtain ⟨app', happ', -, rfl⟩ := exists_of_lookup_tableOf hl
              exact ranged_of_checkApplication (hA.application_ok _ happ') hm

theorem ranged_of_compileRule {r : Rule} {rir : RuleIR} (h : compileRule c r = .ok rir) :
    ∀ m ∈ rir.services, Ranged m := by
  obtain ⟨-, -, -, -, ⟨services, apps, hsvc, hloop, hsvcs, -⟩, -⟩ := compileRule_ok h
  rw [hsvcs]
  exact ranged_of_compileApplications hA hC hloop (ranged_of_resolveServices hA hC hsvc)

end Ranged

/-- An address of a family, as a header holds it. -/
def familyAddr : Family → BitVec 128 → Addr
  | .ip, w => .v4 (w.setWidth 32)
  | .ip6, w => .v6 w ""

/-- A prefix list that can match a family matches one of its addresses. -/
theorem exists_prefixesOK {f : Family} {ps : List Prefix} (h : sideOK f ps = true) :
    ∃ w, prefixesOK ps (familyAddr f w) = true := by
  unfold sideOK at h
  cases hps : ps.isEmpty with
  | true => exact ⟨0, by simp [prefixesOK, hps]⟩
  | false =>
      simp only [hps, Bool.false_or, Bool.not_eq_true', List.isEmpty_eq_false_iff] at h
      obtain ⟨pfx, hpfx⟩ := List.exists_mem_of_ne_nil _ h
      have hfind : ∀ w, pfx ∈ ps → pfx.addr = familyAddr f w →
          prefixesOK ps (familyAddr f w) = true := by
        intro w hmem haddr
        simp only [prefixesOK, hps, Bool.false_or, List.any_eq_true]
        exact ⟨pfx, hmem, haddr ▸ covers_self pfx⟩
      have hz := pfx.zone_eq
      cases f with
      | ip =>
          obtain ⟨hmem, h4⟩ := List.mem_filter.mp hpfx
          cases ha : pfx.addr with
          | v4 x => exact ⟨x.setWidth 128, hfind _ hmem (by simp [familyAddr, ha])⟩
          | v6 x z => simp [ha, Addr.is4] at h4
      | ip6 =>
          obtain ⟨hmem, h6⟩ := List.mem_filter.mp hpfx
          cases ha : pfx.addr with
          | v4 x => simp [ha, Addr.is4] at h6
          | v6 x z =>
              rw [ha, Addr.zone] at hz
              exact ⟨x, hfind _ hmem (by simp [familyAddr, ha, hz])⟩

/-- The transport part of a packet a ranged service match admits, in either family. -/
theorem exists_serviceOK {m : ServiceMatch} (hm : Ranged m) (f : Family) :
    ∃ l4 dport, (f = .ip → l4 ≠ .icmpv6) ∧ (f = .ip6 → l4 ≠ .icmp) ∧
      ∀ pkt : Packet, pkt.l4 = l4 → pkt.dport = dport → serviceOK m pkt = true := by
  have hported : ∀ {l4 : L4} {pkt : Packet}, pkt.l4 = l4 →
      pkt.dport = (m.ports.head?.map Compiler.PortRange.start).getD 0 →
      (decide (pkt.l4 = l4) && (m.ports.isEmpty ||
        m.ports.any fun pr => decide (pr.start ≤ pkt.dport ∧ pkt.dport ≤ pr.stop))) = true := by
    intro l4 pkt hl hd
    rw [hl, hd]
    cases hp : m.ports with
    | nil => simp
    | cons pr prs =>
        have hle := hm pr (by rw [hp]; exact List.mem_cons_self)
        simp [hle]
  unfold serviceOK
  cases hproto : m.protocol with
  | tcp => exact ⟨.tcp, _, by simp, by simp, fun pkt hl hd => hported hl hd⟩
  | udp => exact ⟨.udp, _, by simp, by simp, fun pkt hl hd => hported hl hd⟩
  | any => exact ⟨.tcp, 0, by simp, by simp, fun _ _ _ => rfl⟩
  | icmp =>
      cases f with
      | ip => exact ⟨.icmp, 0, by simp, by simp, fun pkt hl _ => by simp [hl]⟩
      | ip6 => exact ⟨.icmpv6, 0, by simp, by simp, fun pkt hl _ => by simp [hl]⟩

/-- The header of a family with two given addresses. -/
def familyHeader : Family → BitVec 128 → BitVec 128 → Header
  | .ip, s, d => .ip (s.setWidth 32) (d.setWidth 32)
  | .ip6, s, d => .ip6 s d

/-- A rule that is rendered at all can be matched in some family. -/
theorem exists_sideOK {r : RuleIR} (h : (families r).isEmpty = false) :
    ∃ f, sideOK f r.srcPrefixes = true ∧ sideOK f r.dstPrefixes = true := by
  unfold families at h
  unfold sideOK
  split at h
  · rename_i hempty
    simp only [Bool.and_eq_true] at hempty
    exact ⟨.ip, by simp [hempty.1], by simp [hempty.2]⟩
  · by_cases h4 : ((r.srcPrefixes.isEmpty || !(split4 r.srcPrefixes).isEmpty) &&
        (r.dstPrefixes.isEmpty || !(split4 r.dstPrefixes).isEmpty)) = true
    · exact ⟨.ip, Bool.and_eq_true_iff.mp h4⟩
    · simp only [h4, Bool.false_eq_true, if_false, List.nil_append] at h
      by_cases h6 : ((r.srcPrefixes.isEmpty || !(split6 r.srcPrefixes).isEmpty) &&
          (r.dstPrefixes.isEmpty || !(split6 r.dstPrefixes).isEmpty)) = true
      · exact ⟨.ip6, Bool.and_eq_true_iff.mp h6⟩
      · simp [h6] at h

theorem ifacesOK_head (ifaces : List String) : ifacesOK ifaces (ifaces.headD "") = true := by
  cases ifaces <;> simp [ifacesOK]

/-- **A rendered rule matches some packet.** -/
theorem exists_applies_of_ruleLines {r : RuleIR} {c : String} {lines : List Line}
    (h : ruleLinesWithComment r c = .ok lines) (hranged : ∀ m ∈ r.services, Ranged m) :
    ∃ env pkt, ∃ l ∈ lines, Line.applies env pkt l = true := by
  have hfam : (families r).isEmpty = false := by
    unfold ruleLinesWithComment at h
    split at h
    · cases h
    · rename_i hne
      exact Bool.not_eq_true _ ▸ hne
  -- the packet is put together side by side, in a family the rule is rendered for
  obtain ⟨f, hsrc, hdst⟩ := exists_sideOK hfam
  obtain ⟨src, hsrc⟩ := exists_prefixesOK hsrc
  obtain ⟨dst, hdst⟩ := exists_prefixesOK hdst
  have hservice : ∃ l4 dport, (f = .ip → l4 ≠ .icmpv6) ∧ (f = .ip6 → l4 ≠ .icmp) ∧
      ∀ pkt : Packet, pkt.l4 = l4 → pkt.dport = dport →
        (r.services.isEmpty || r.services.any fun m => serviceOK m pkt) = true := by
    cases hs : r.services with
    | nil => exact ⟨.tcp, 0, by simp, by simp, fun _ _ _ => rfl⟩
    | cons m ms =>
        obtain ⟨l4, dport, h4, h6, hok⟩ :=
          exists_serviceOK (hranged m (by rw [hs]; exact List.mem_cons_self)) f
        exact ⟨l4, dport, h4, h6, fun pkt hl hd => by simp [hok pkt hl hd]⟩
  obtain ⟨l4, dport, h4, h6, hsvc⟩ := hservice
  let pkt : Packet := ⟨r.fromIfaces.headD "", r.toIfaces.headD "", familyHeader f src dst, l4,
    dport, .new, false⟩
  have hfamily : pkt.family = f := by cases f <;> rfl
  have hpsrc : pkt.src = familyAddr f src := by cases f <;> rfl
  have hpdst : pkt.dst = familyAddr f dst := by cases f <;> rfl
  have hproper : pkt.Proper := by
    rw [Packet.Proper, hfamily]
    exact ⟨h4, h6⟩
  have hmatch : matchesRule r pkt = true := by
    unfold matchesRule
    rw [hpsrc, hpdst, hsrc, hdst, hsvc pkt rfl rfl, ifacesOK_head, ifacesOK_head]
    rfl
  have hrun : lines.findSome? (Line.run .empty pkt) = some (.verdict (verdict r.action)) := by
    rw [ruleLines_run hproper h, hmatch, if_pos rfl]
  -- the lines decide it, so one of them applies to it
  obtain ⟨l, hl, hrun⟩ := List.exists_of_findSome?_eq_some hrun
  refine ⟨.empty, pkt, l, hl, ?_⟩
  cases happ : l.applies .empty pkt with
  | true => rfl
  | false => simp [Line.run, happ] at hrun

/-- A rendered destination translation matches some packet. -/
theorem exists_applies_of_dnatLine {d : DNATIR} {l : Line} (h : dnatLine d = .ok l)
    (hzone : d.matchDst.zone = "") (hranged : Ranged ⟨d.protocol, d.ports⟩) :
    ∃ env pkt, Line.applies env pkt l = true := by
  obtain ⟨l4, dport, -, -, hsvc⟩ := exists_serviceOK hranged .ip
  have hheader : ∃ header : Header, ∀ pkt : Packet, pkt.header = header → pkt.dst = d.matchDst := by
    cases hd : d.matchDst with
    | v4 x => exact ⟨.ip 0 x, fun pkt hp => by simp [Packet.dst, hp]⟩
    | v6 x z =>
        rw [hd, Addr.zone] at hzone
        exact ⟨.ip6 0 x, fun pkt hp => by simp [Packet.dst, hp, hzone]⟩
  obtain ⟨header, hdst⟩ := hheader
  refine ⟨.empty, ⟨d.inIfaces.headD "", "", header, l4, dport, .new, false⟩, ?_⟩
  rw [(dnatLine_applies _ _ h).2, matchesDNAT, hdst _ rfl, hsvc _ rfl rfl, ifacesOK_head]
  simp

/-- A source translation matches some packet. -/
theorem exists_applies_of_snatLine (s : SNATIR) :
    ∃ env pkt, Line.applies env pkt (snatLine s) = true := by
  have hheader : ∃ header : Header, ∀ pkt : Packet, pkt.header = header →
      (s.srcPrefix.map fun pfx => covers pfx pkt.src).getD true = true := by
    cases hs : s.srcPrefix with
    | none => exact ⟨.ip 0 0, fun _ _ => rfl⟩
    | some pfx =>
        have hself := covers_self pfx
        have hz := pfx.zone_eq
        cases ha : pfx.addr with
        | v4 x =>
            rw [ha] at hself
            exact ⟨.ip x 0, fun pkt hp => by simpa [Packet.src, hp] using hself⟩
        | v6 x z =>
            rw [ha, Addr.zone] at hz
            rw [ha, hz] at hself
            exact ⟨.ip6 x 0, fun pkt hp => by simpa [Packet.src, hp] using hself⟩
  obtain ⟨header, hsrc⟩ := hheader
  refine ⟨.empty, ⟨"", s.outIfaces.headD "", header, .tcp, 0, .new, false⟩, ?_⟩
  rw [snatLine_applies, matchesSNAT, hsrc _ rfl, ifacesOK_head]
  rfl

/-! ### The scope

Both directions together. Where no named zone has an interface, the packet that is made is out of
scope. -/

/-- What the two facts about an element's lines make of its scope: they stay within the
named zones exactly when one of these has an interface. -/
theorem scope_iff {p : Phragma.Policy} (hA : Accepted p) {c : Compilation}
    (hc : c.zoneIfaces = tableOf Zone.name Zone.interfaces p.zones) {zones ifaces : List String}
    (hresolve : resolveIfaces c zones = .ok ifaces) (hany : Any ∉ zones) {dir : Direction}
    {lines : List Line}
    (hguard : ∀ env pkt, ∀ l ∈ lines, Line.applies env pkt l = true →
      ifacesOK ifaces (dir.ifc pkt) = true)
    (hsome : ∃ env pkt, ∃ l ∈ lines, Line.applies env pkt l = true) :
    (∀ env pkt, ∀ l ∈ lines, l.applies env pkt = true →
      ∃ z ∈ p.zones, z.name ∈ zones ∧ dir.ifc pkt ∈ z.interfaces) ↔
    ∃ z ∈ p.zones, z.name ∈ zones ∧ z.interfaces ≠ [] := by
  have hmem := mem_resolveIfaces hA.zone_names hc hresolve hany
  constructor
  · intro hscope
    obtain ⟨env, pkt, l, hl, happ⟩ := hsome
    obtain ⟨z, hz, hname, hin⟩ := hscope env pkt l hl happ
    exact ⟨z, hz, hname, List.ne_nil_of_mem hin⟩
  · rintro ⟨z, hz, hname, hne⟩ env pkt l hl happ
    obtain ⟨ifc, hifc⟩ := List.exists_mem_of_ne_nil _ hne
    have hfull : ifaces ≠ [] := List.ne_nil_of_mem ((hmem ifc).mpr ⟨z, hz, hname, hifc⟩)
    have hok := hguard env pkt l hl happ
    rw [ifacesOK, List.isEmpty_eq_false_iff.mpr hfull, Bool.false_or, List.contains_iff_mem] at hok
    exact (hmem _).mp hok

/-- **Zone scope survives compilation exactly where a named zone has an interface.** For
every policy that compiles and renders and every enabled element with a zone list that
names zones and not the wildcard: its lines are in the table, and they match only packets
of the named zones' interfaces if and only if one of the named zones has an interface. -/
theorem zoneScope_iff {H : IdentityHash} {p : Phragma.Policy} {ir : IR} {rs : Ruleset}
    (hcompile : Compile H p = .ok ir) (hrender : renderRuleset ir = .ok rs) {zones : List String}
    {dir : Direction} {lines : List Line}
    (hlines : ScopedLines (normalizeIdentities H p) ir zones dir lines) (hne : zones ≠ [])
    (hany : Any ∉ zones) :
    (∀ l ∈ lines, l ∈ rs.lines) ∧
    ((∀ env pkt, ∀ l ∈ lines, l.applies env pkt = true →
      ∃ z ∈ p.zones, z.name ∈ zones ∧ dir.ifc pkt ∈ z.interfaces) ↔
    ∃ z ∈ p.zones, z.name ∈ zones ∧ z.interfaces ≠ []) := by
  obtain ⟨hvalid, c, hC⟩ := Compile_ok hcompile
  have hA := accepted_of_Validate hvalid
  refine ⟨mem_lines_of_scopedLines (rendered_of_renderRuleset hrender) hlines, ?_⟩
  -- for each of the four paths: the lines ask for the interfaces, and some packet meets one
  have hmain : ∀ {ifaces : List String}, resolveIfaces c zones = .ok ifaces →
      (∀ env pkt, ∀ l ∈ lines, Line.applies env pkt l = true →
        ifacesOK ifaces (dir.ifc pkt) = true) →
      (∃ env pkt, ∃ l ∈ lines, Line.applies env pkt l = true) → _ :=
    fun hresolve => scope_iff hA hC.zoneIfaces hresolve hany
  cases hlines with
  | ruleFrom hr hir happ hl =>
      have hrule := forall₂_getElem? hC.rules hr hir
      exact hmain (compileRule_ok hrule).1 (fun _ _ _ hl' ha => (ifacesOK_of_applies hl hl' ha).1)
        (exists_applies_of_ruleLines hl (ranged_of_compileRule hA hC hrule))
  | ruleTo hr hir happ hl =>
      have hrule := forall₂_getElem? hC.rules hr hir
      exact hmain (compileRule_ok hrule).2.1 (fun _ _ _ hl' ha => (ifacesOK_of_applies hl hl' ha).2)
        (exists_applies_of_ruleLines hl (ranged_of_compileRule hA hC hrule))
  | hostInput hhi hr hir hl =>
      have hhost := hC.hostInput
      rw [hhi] at hhost
      obtain ⟨hfrom, -, -, -, hsvc, -⟩ :=
        compileHostInputRule_ok (forall₂_getElem? (compileHostInput_ok hhost) hr hir)
      exact hmain hfrom (fun _ _ _ hl' ha => (ifacesOK_of_applies hl hl' ha).1)
        (exists_applies_of_ruleLines hl (ranged_of_resolveServices hA hC hsvc))
  | @source i sn s hsn hs =>
      obtain ⟨hout, -⟩ := compileSNAT_ok (forall₂_getElem? hC.snat hsn hs)
      refine hmain hout ?_ ?_
      · intro env pkt l hl ha
        rw [List.mem_singleton.mp hl, snatLine_applies, matchesSNAT, Bool.and_eq_true] at ha
        exact ha.1
      · obtain ⟨env, pkt, happ⟩ := exists_applies_of_snatLine s
        exact ⟨env, pkt, _, List.mem_singleton_self _, happ⟩
  -- a packet needs a port as well here, and the service has a range that is not empty
  | @destination i dn d l hdn hd hl =>
      obtain ⟨hin, ⟨m, hm, hproto, hports⟩, ⟨pfx, -, hdst⟩, -, -⟩ :=
        compileDNAT_ok (forall₂_getElem? hC.dnat hdn hd)
      obtain ⟨s, -, hcheck, hsm⟩ := service_of_lookup hA hC.toTablesOf hm
      have hranged : Ranged ⟨d.protocol, d.ports⟩ := by
        have := ranged_of_checkService hcheck hsm
        rwa [Ranged, ← hports] at this
      refine hmain hin ?_ ?_
      · intro env pkt l' hl' ha
        rw [List.mem_singleton.mp hl', (dnatLine_applies env pkt hl).2, matchesDNAT,
          Bool.and_eq_true, Bool.and_eq_true] at ha
        exact ha.1.1
      · obtain ⟨env, pkt, happ⟩ := exists_applies_of_dnatLine hl (hdst ▸ pfx.zone_eq) hranged
        exact ⟨env, pkt, _, List.mem_singleton_self _, happ⟩

/-- A rule for what comes from the zone `dmz`. -/
def fromDmz : Rule := { id := "rule-1", name := "dmz-out", fromZones := ["dmz"], action := .allow }

/-- A rule for what goes to `dmz` or `lan`. -/
def toLan : Rule :=
  { id := "rule-2", name := "lan-in", toZones := ["dmz", "lan"], action := .allow }

/-- A policy with both rules, in which `dmz` has no interface yet. -/
def emptyZone : Phragma.Policy where
  zones := [{ name := "lan", interfaces := ["eth1"] }, { name := "dmz" }]
  rules := [fromDmz, toLan]

/-- A packet from an interface that is in no zone. -/
def strayPacket : Packet :=
  { iif := "eth9", oif := "eth1", header := .ip 0x01020304#32 0x05060708#32, l4 := .tcp
    dport := 22, ct := .new, syn := true }

/-- The compiled and rendered form of `emptyZone`, with the lines of its two rules. -/
theorem emptyZone_lines : ∃ ir rs rir₁ rir₂ lines₁ lines₂, Compile .zero emptyZone = .ok ir ∧
    renderRuleset ir = .ok rs ∧ ir.rules = [rir₁, rir₂] ∧
    rir₁.appIDOnly = false ∧ rir₂.appIDOnly = false ∧
    ruleLinesWithComment rir₁ "rule" = .ok lines₁ ∧ ruleLinesWithComment rir₂ "rule" = .ok lines₂ ∧
    lines₁.any (Line.applies .empty strayPacket) = true :=
  ⟨_, _, _, _, _, _, rfl, rfl, rfl, rfl, rfl, rfl, rfl, rfl⟩

/-- The rule for what goes to `dmz` or `lan` stays in scope: one of the two zones has an
interface. -/
theorem zoneScope_emptyZone_to_lan : ∃ ir lines, Compile .zero emptyZone = .ok ir ∧
    ScopedLines (normalizeIdentities .zero emptyZone) ir ["dmz", "lan"] .output lines ∧
    ∀ env pkt, ∀ l ∈ lines, Line.applies env pkt l = true →
      ∃ z ∈ emptyZone.zones, z.name ∈ ["dmz", "lan"] ∧ pkt.oif ∈ z.interfaces := by
  obtain ⟨ir, rs, rir₁, rir₂, lines₁, lines₂, hcompile, hrender, hrules, -, happ, -, hl, -⟩ :=
    emptyZone_lines
  have hlines : ScopedLines (normalizeIdentities .zero emptyZone) ir ["dmz", "lan"] .output lines₂ :=
    .ruleTo (i := 1) (r := toLan) rfl (by rw [hrules]; rfl) happ hl
  exact ⟨ir, lines₂, hcompile, hlines,
    (zoneScope_iff hcompile hrender hlines (by decide) (by decide)).2.mpr (by decide)⟩

/-- The rule for what comes from `dmz`, a zone without interfaces, is rendered without an
interface match: it accepts a packet of an interface that is in no zone. -/
theorem zoneScope_emptyZone_from_dmz : ∃ ir rs lines, Compile .zero emptyZone = .ok ir ∧
    renderRuleset ir = .ok rs ∧
    ScopedLines (normalizeIdentities .zero emptyZone) ir ["dmz"] .input lines ∧
    ∃ l ∈ lines, l ∈ rs.lines ∧ l.applies .empty strayPacket = true ∧
      ¬ ∃ z ∈ emptyZone.zones, z.name ∈ ["dmz"] ∧ strayPacket.iif ∈ z.interfaces := by
  obtain ⟨ir, rs, rir₁, rir₂, lines₁, lines₂, hcompile, hrender, hrules, happ, -, hl, -, hany⟩ :=
    emptyZone_lines
  have hlines : ScopedLines (normalizeIdentities .zero emptyZone) ir ["dmz"] .input lines₁ :=
    .ruleFrom (i := 0) (r := fromDmz) rfl (by rw [hrules]; rfl) happ hl
  obtain ⟨l, hl, happlies⟩ := List.any_eq_true.mp hany
  exact ⟨ir, rs, lines₁, hcompile, hrender, hlines, l, hl,
    mem_lines_of_scopedLines (rendered_of_renderRuleset hrender) hlines l hl, happlies, by decide⟩

end Phragma.Renderers.Nftables
