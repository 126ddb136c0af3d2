import Phragma.Explain.LowRisk

/-!
# Phragma.Explain.Identity

**Identity contexts stop at the compiler.** A rule may be restricted to users, groups, devices and
posture labels. The validator checks the restriction, the compiler carries it into the compiled
rule, and the explainer evaluates it; the packet filter has no notion of it and the renderer leaves
it out.

So the two sides decide a flow by the same rules, those whose zones, addresses and services it is
in, in the same order (`scopedRules`), but by different ones of them: the filter by the first, the
explainer by the first whose context is met. `identity_verdicts` says when that shows.
-/

namespace Phragma.Explain

open Lib Go Policy Compiler Renderers.Nftables Nft

/-! ### The rules a flow is in

A flow is in a rule if all of it but the context matches. The packet filter does not know contexts,
so to it a rule is what flows are in. -/

/-- Is a flow in the zones, addresses, services and applications of a rule? -/
def inScope (idx : Index) (input : FlowInput) (r : Rule) : Bool :=
  zoneMatches r.fromZones input.fromZone && zoneMatches r.toZones input.toZone &&
    matchesFlow idx input r

/-- Does a context meet what a rule requires? -/
def meets (supplied : MatchContext) (r : Rule) : Bool :=
  (ruleMatchContextMatches r.matchContext supplied).isNone

/-- The enabled rules that a flow is in, in order, whoever it is from. -/
def scopedRules (idx : Index) (input : FlowInput) (rules : List Rule) : List Rule :=
  (enabledRules rules).filter (inScope idx input)

/-- The rules that the flow of a request is in after its destination is translated. -/
def rulesInScope (H : IdentityHash) (p : Phragma.Policy) (req : ExplainFlowRequest) :
    Except String (List Rule) := do
  let input ← parseInput req
  let idx ← newIndex (normalizeIdentities H p)
  let (_, out) ← applyDNAT idx input
  return scopedRules idx out (normalizeIdentities H p).rules

/-- The verdict of the rule that decides. -/
def ruleVerdict (r : Option Rule) : ExplainVerdict := (ruleOutcome r).verdict

/-! ### One rule

The comparison of the explainer is the packet filter's and one of the context. -/

section Flow

variable {q : Phragma.Policy} {c : Compilation} {idx : Index} {input : FlowInput} {pkt : Packet}
  (hT : Tables q c idx) (hF : FlowOf q input pkt)

include hT hF

/-- **The filter sees the scope of a rule, the explainer its context as well.** -/
theorem scope_agree {r : Rule} {rir : RuleIR} (hr : compileRule c r = .ok rir)
    (happ : r.applications = []) :
    inScope idx input r = matchesRule rir pkt ∧
      ∃ reason, ruleMatches idx input r = .ok reason ∧
        reason.isNone = (inScope idx input r && meets input.context r) := by
  obtain ⟨hfrom, hto, hsrc, hdst, ⟨services, apps, hsvc, hloop, hsvcs, -⟩, -⟩ := compileRule_ok hr
  rw [happ] at hloop
  cases hloop
  have h1 := fromZone_agree hT hF hfrom
  have h2 := toZone_agree hT hF hto
  have h3 := addressMatches_agree hT hsrc (a := pkt.src) pkt.src_zone
  have h4 := addressMatches_agree hT hdst (a := pkt.dst) pkt.dst_zone
  have h5 := servicesMatch_agree hT hF hsvc
  have h6 : applicationMatches idx [] input = .ok true := rfl
  unfold ruleMatches matchesRule inScope matchesFlow meets
  rw [h1, h2, hF.src, h3, hF.dst, h4, h5, happ, h6, hsvcs]
  generalize ifacesOK rir.fromIfaces pkt.iif = b1
  generalize ifacesOK rir.toIfaces pkt.oif = b2
  generalize prefixesOK rir.srcPrefixes pkt.src = b3
  generalize prefixesOK rir.dstPrefixes pkt.dst = b4
  generalize (services.isEmpty || services.any fun m => serviceOK m pkt) = b5
  generalize ruleMatchContextMatches r.matchContext input.context = context
  cases b1 <;> cases b2 <;> cases b3 <;> cases b4 <;> cases b5 <;> exact ⟨rfl, _, rfl, rfl⟩

/-! ### The loops

Both loops stop at the first rule they match, and the explainer's goes on past the rules whose
context is not met. -/

/-- **The explainer stops at the first rule in scope whose context is met.** -/
theorem firstMatch_scoped : ∀ {rules : List Rule} {irs : List RuleIR},
    List.Forall₂ (fun r ir => compileRule c r = .ok ir) rules irs →
    (∀ r ∈ rules, r.applications = []) →
    firstMatch idx input rules =
      .ok ((rules.filter (inScope idx input)).find? (meets input.context)) := by
  intro rules irs h
  induction h with
  | nil => exact fun _ => rfl
  | @cons r rir rules irs hr hrest ih =>
      intro hplain
      have ih := ih fun r' hr' => hplain r' (List.mem_cons_of_mem _ hr')
      obtain ⟨-, reason, hreason, hnone⟩ := scope_agree hT hF hr (hplain r List.mem_cons_self)
      rw [firstMatch, hreason]
      cases hscope : inScope idx input r with
      | false =>
          rw [hscope] at hnone
          rw [List.filter_cons_of_neg (Bool.eq_false_iff.mp hscope)]
          cases reason with
          | none => cases hnone
          | some why => exact ih
      | true =>
          rw [hscope, Bool.true_and] at hnone
          rw [List.filter_cons_of_pos hscope, List.find?_cons, ← hnone]
          cases reason with
          | none => rfl
          | some why => exact ih

/-- **The filter stops at the first rule in scope.** -/
theorem findSome?_scoped : ∀ {rules : List Rule} {irs : List RuleIR},
    List.Forall₂ (fun r ir => compileRule c r = .ok ir) rules irs →
    (∀ r ∈ rules, r.applications = []) →
    verdictOf (irs.findSome? fun r =>
      if matchesRule r pkt then some (.verdict (verdict r.action)) else none) =
        ruleVerdict (rules.filter (inScope idx input)).head? := by
  intro rules irs h
  induction h with
  | nil => exact fun _ => rfl
  | @cons r rir rules irs hr hrest ih =>
      intro hplain
      have ih := ih fun r' hr' => hplain r' (List.mem_cons_of_mem _ hr')
      obtain ⟨hscope, -⟩ := scope_agree hT hF hr (hplain r List.mem_cons_self)
      obtain ⟨-, -, -, -, -, haction, -⟩ := compileRule_ok hr
      rw [List.findSome?_cons, List.filter_cons, hscope]
      cases matchesRule rir pkt with
      | true => exact (verdictForAction_of_actionFromProto haction).symm
      | false => exact ih

end Flow

/-! ### The whole path

Without applications there are no other differences, and the verdicts differ exactly where the first
rules do. -/

/-- Translating the destination leaves the context of the request. -/
theorem applyDNAT_context {idx : Index} {input out : FlowInput} {nat : ExplainNatProfile}
    (h : applyDNAT idx input = .ok (nat, out)) : out.context = input.context := by
  unfold applyDNAT at h
  obtain ⟨found, -, h⟩ := bind_ok.mp h
  cases found with
  | none =>
      cases h
      rfl
  | some hit =>
      obtain ⟨dn, i, target⟩ := hit
      cases h
      unfold translateDst
      rfl

theorem parseInput_context {req : ExplainFlowRequest} {input : FlowInput}
    (h : parseInput req = .ok input) : input.context = requestMatchContext req.matchContext := by
  unfold parseInput at h
  repeat' split at h
  all_goals first
    | (cases h; rfl)
    | cases h

/-- The policies the comparison is about: those of `InScope`, with contexts. -/
structure InIdentityScope (p : Phragma.Policy) : Prop where
  zone_interfaces : ∀ z ∈ p.zones, z.interfaces ≠ []
  no_applications : ∀ r ∈ p.rules, r.applications = []
  destination_family : ∀ dn ∈ p.getNat.destination,
    SameFamily p dn.destinationAddress dn.translatedAddress
  not_prevent : p.getIds.enabled = true → p.getIds.mode ≠ .prevent
  intel_off : ∀ intel, p.intel = some intel →
    intel.customFeeds = [] ∧ ∀ f ∈ intel.feeds, f.enabled = false

/-- A decision that two loops over one list reach at different rules. -/
theorem head?_find?_cases {α : Type} (meets : α → Bool) (l : List α) :
    l.head? = l.find? meets ∨ ∃ a rest, l = a :: rest ∧ meets a = false ∧
      l.head? = some a ∧ l.find? meets = rest.find? meets := by
  cases l with
  | nil => exact .inl rfl
  | cons a rest =>
      cases hm : meets a with
      | true => exact .inl (by rw [List.find?_cons_of_pos hm, List.head?_cons])
      | false =>
          have hneg : ¬ meets a = true := by
            rw [hm]
            exact Bool.false_ne_true
          exact .inr ⟨a, rest, rfl, hm, rfl, List.find?_cons_of_neg hneg⟩

theorem ruleVerdict_allowed {r : Rule} : ruleVerdict (some r) = .allowed ↔ r.action = .allow := by
  unfold ruleVerdict ruleOutcome
  cases h : r.action <;> simp [verdictForAction, h]

/-- **When the first rule and the first rule that is met decide differently.** -/
theorem widened_iff {supplied : MatchContext} {rules : List Rule} :
    ruleVerdict rules.head? = .allowed ∧ ruleVerdict (rules.find? (meets supplied)) ≠ .allowed ↔
      ∃ r rest, rules = r :: rest ∧ r.action = .allow ∧ meets supplied r = false ∧
        ruleVerdict (rest.find? (meets supplied)) ≠ .allowed := by
  constructor
  · rintro ⟨hhead, hfind⟩
    rcases head?_find?_cases (meets supplied) rules with h | ⟨r, rest, rfl, hm, hfirst, hlater⟩
    · rw [h] at hhead
      exact absurd hhead hfind
    · rw [hlater] at hfind
      exact ⟨r, rest, rfl, ruleVerdict_allowed.mp hhead, hm, hfind⟩
  · rintro ⟨r, rest, rfl, haction, hm, hfind⟩
    refine ⟨ruleVerdict_allowed.mpr haction, ?_⟩
    rw [List.find?_cons_of_neg (by rw [hm]; exact Bool.false_ne_true)]
    exact hfind

/-- **Identity contexts on both sides.** For every policy in scope that compiles and renders, with
identity contexts on whatever rules, and every request about a new IPv4 TCP, UDP or ICMP flow: the
rendered table gives the flow the verdict of the first rule it is in, and the explainer that of the
first whose context the request meets. So the table lets a flow through that the explainer does not
allow exactly when the first rule it is in allows it and is meant for somebody else, and the first
that is met of the rules after it, if there is one, does not allow it. -/
theorem identity_verdicts {H : IdentityHash} {p : Phragma.Policy} {ir : IR} {rs : Ruleset}
    (env : Env) {pkt : Packet} {req : ExplainFlowRequest} (version : Nat)
    (hcompile : Compile H p = .ok ir) (hrender : renderRuleset ir = .ok rs)
    (hscope : InIdentityScope p) (hreq : RequestOf p req pkt) :
    match ExplainFlow H p req version with
    | .error _ => (pkt.l4 = .tcp ∨ pkt.l4 = .udp) ∧ pkt.dport = 0
    | .ok resp =>
        ∃ rules, rulesInScope H p req = .ok rules ∧
          tableVerdict rs env pkt = ruleVerdict rules.head? ∧
          resp.verdict = ruleVerdict (rules.find? (meets (requestMatchContext req.matchContext))) ∧
          (tableVerdict rs env pkt = .allowed ∧ resp.verdict ≠ .allowed ↔
            ∃ r rest, rules = r :: rest ∧ r.action = .allow ∧
              meets (requestMatchContext req.matchContext) r = false ∧
              ruleVerdict (rest.find? (meets (requestMatchContext req.matchContext))) ≠
                .allowed) := by
  obtain ⟨hvalid, c, hC⟩ := Compile_ok hcompile
  have hA := accepted_of_Validate hvalid
  have hR := rendered_of_renderRuleset hrender
  obtain ⟨idx, hidx, hT⟩ := tables_of_compiled hA hscope.zone_interfaces hC
  have hplain := normalizeIdentities_rules_forall (H := H) (f := Rule.applications)
    (P := fun apps => apps = []) (fun _ _ => rfl) hscope.no_applications
  have henabled : ∀ r ∈ enabledRules (normalizeIdentities H p).rules, r.applications = [] :=
    fun r hr => hplain r (List.mem_filter.mp hr).1
  have hsame := normalizeIdentities_sameFamily (H := H) hscope.destination_family
  have houtcome := ExplainFlow_outcome H p req version
  unfold requestOutcome flowOutcome at houtcome
  -- the explainer refuses port 0 of TCP and UDP, and nothing else of a request
  rcases parseInput_of_request hreq with ⟨e, he, hzero⟩ | ⟨input, hinput, hF⟩
  · rw [ExplainFlow_of_parseInput he]
    exact hzero
  · have hF : FlowOf (normalizeIdentities H p) input pkt := ⟨hF.1, hF.2, hF.3, hF.4, hF.5, hF.6⟩
    obtain ⟨nat, out, hdnat, hmatched, hF'⟩ := applyDNAT_agree hT hF env hC.dnat
      hR.prerouting (dnat_family hT hsame hC.dnat)
    have htable := findSome?_scoped hT hF' hC.rules henabled
    have hfirst : firstMatch idx out (enabledRules (normalizeIdentities H p).rules) =
        .ok ((scopedRules idx out (normalizeIdentities H p).rules).find?
          (meets (requestMatchContext req.matchContext))) := by
      rw [← parseInput_context hinput, ← applyDNAT_context hdnat]
      exact firstMatch_scoped hT hF' hC.rules henabled
    -- the two walks go through the same rules, and the table takes the first
    have hrules : rulesInScope H p req =
        .ok (scopedRules idx out (normalizeIdentities H p).rules) := by
      unfold rulesInScope
      simp only [hinput, hidx, hdnat, bind, Except.bind]
      rfl
    have hforward : tableVerdict rs env pkt =
        ruleVerdict (scopedRules idx out (normalizeIdentities H p).rules).head? := by
      refine Eq.trans ?_ htable
      unfold tableVerdict prerouted
      refine congrArg verdictOf (forward_run_compiled hC hR env hF' ?_ ?_ hplain
        hscope.not_prevent hscope.intel_off)
      · rw [Packet.dnatted_family, hreq.family]
      · rw [Packet.dnatted_ct]
        exact hreq.untracked
    simp only [hinput, hidx, hdnat, hfirst, bind, Except.bind, pure, Except.pure] at houtcome
    cases hresp : ExplainFlow H p req version with
    | error err =>
        rw [hresp] at houtcome
        cases houtcome
    | ok resp =>
        rw [hresp] at houtcome
        have hverdict : resp.verdict = ruleVerdict
            ((scopedRules idx out (normalizeIdentities H p).rules).find?
              (meets (requestMatchContext req.matchContext))) :=
          congrArg Outcome.verdict (Except.ok.inj houtcome)
        refine ⟨_, hrules, hforward, hverdict, ?_⟩
        rw [hforward, hverdict]
        exact widened_iff

/-- Outbound traffic is for contractors; what the others send is dropped by default. -/
def contractorsOnly : Phragma.Policy where
  zones := [{ name := "lan", interfaces := ["eth1"] }, { name := "wan", interfaces := ["eth0"] }]
  rules := [{ id := "rule-1", name := "contractors-out", fromZones := ["lan"], toZones := ["wan"]
              matchContext := some { groups := ["contractors"] }, action := .allow }]

/-- A connection out of the lan. -/
def outbound : Packet :=
  { iif := "eth1", oif := "eth0", header := .ip 0x0a000005#32 0xc6336401#32, l4 := .tcp
    dport := 443, ct := .new, syn := true }

/-- It is made by staff. -/
def staffRequest : ExplainFlowRequest :=
  { fromZone := "lan", toZone := "wan", srcIp := "10.0.0.5", srcPort := 40000
    destIp := "198.51.100.1", destPort := 443, protocol := .tcp
    matchContext := some { groups := ["staff"] } }

/-- The explainer drops the connection of a member of staff, and the table lets it through. -/
theorem identity_verdicts_contractorsOnly :
    ∃ ir rs resp, Compile .zero contractorsOnly = .ok ir ∧ renderRuleset ir = .ok rs ∧
      ExplainFlow .zero contractorsOnly staffRequest 1 = .ok resp ∧
      resp.verdict = .defaultDrop ∧ tableVerdict rs .empty outbound = .allowed := by
  have hscope : InIdentityScope contractorsOnly := by
    refine ⟨by decide, by decide, ?_, by decide, ?_⟩
    · intro dn hdn
      cases hdn
    · intro intel h
      cases h
  have hreq : RequestOf contractorsOnly staffRequest outbound := by
    constructor <;> decide
  have hall : ∃ ir rs resp, Compile .zero contractorsOnly = .ok ir ∧ renderRuleset ir = .ok rs ∧
      ExplainFlow .zero contractorsOnly staffRequest 1 = .ok resp ∧ resp.verdict = .defaultDrop ∧
      (rulesInScope .zero contractorsOnly staffRequest).map List.head? =
        .ok contractorsOnly.rules.head? := ⟨_, _, _, rfl, rfl, rfl, rfl, rfl⟩
  obtain ⟨ir, rs, resp, hcompile, hrender, hresp, hdrop, hfirst⟩ := hall
  have hverdicts := identity_verdicts .empty 1 hcompile hrender hscope hreq
  rw [hresp] at hverdicts
  obtain ⟨rules, hrules, htable, -, -⟩ := hverdicts
  rw [hrules] at hfirst
  refine ⟨ir, rs, resp, hcompile, hrender, hresp, hdrop, ?_⟩
  rw [htable, show rules.head? = contractorsOnly.rules.head? from Except.ok.inj hfirst]
  rfl

end Phragma.Explain
