import Phragma.Compiler.Complete
import Phragma.Explain.FirstRule
import Phragma.Policy.Risk

/-!
# Phragma.Explain.LowRisk

**What a low risk is worth.** The explainer's answer about a flow depends on the enabled rules in
their order and on what the references of the policy resolve to (`ExplainFlow_outcome`), not on
the order of the objects (`sameLookups_of_perm`) and not on disabled rules. Where the risk summary
of a candidate stays low, all sections the explainer looks at are the same up to the order of
their objects, and so are the rules that count; `low_risk_verdicts` says what is left open: the
order check of the summary is not made when a rule is added or removed.
-/

namespace Phragma.Explain

open Lib Go Policy Compiler

/-! ### The enabled rules

The explainer passes over disabled rules. Their positions are in the answer, but the rule that
decides is not changed by them. -/

/-- The rules that are not disabled. -/
def enabledRules (rules : List Rule) : List Rule := rules.filter fun r => !r.disabled

/-- The first rule of a list that matches a flow. -/
def firstMatch (idx : Index) (input : FlowInput) : List Rule → Except String (Option Rule)
  | [] => .ok none
  | r :: rules =>
      match ruleMatches idx input r with
      | .error err => .error err
      | .ok none => .ok (some r)
      | .ok (some _) => firstMatch idx input rules

/-- **The loop over the rules looks at the enabled rules only.** -/
theorem walkRules_enabled (idx : Index) (input : FlowInput) : ∀ (rules : List Rule) (k : Nat),
    (walkRules idx input (rules.zipIdx k)).map (fun x => x.1.map Prod.fst) =
      firstMatch idx input (enabledRules rules) := by
  intro rules
  induction rules with
  | nil => exact fun k => rfl
  | cons r rules ih =>
      intro k
      have hrest := ih (k + 1)
      rw [List.zipIdx_cons, walkRules]
      cases hd : r.disabled with
      | true =>
          have hskip : enabledRules (r :: rules) = enabledRules rules := by simp [enabledRules, hd]
          rw [hskip, ← hrest]
          cases walkRules idx input (rules.zipIdx (k + 1)) <;> rfl
      | false =>
          have hkeep : enabledRules (r :: rules) = r :: enabledRules rules := by
            simp [enabledRules, hd]
          rw [hkeep, firstMatch]
          cases ruleMatches idx input r with
          | error err => rfl
          | ok reason =>
              cases reason with
              | none => rfl
              | some why =>
                  rw [← hrest]
                  cases walkRules idx input (rules.zipIdx (k + 1)) <;> rfl

/-! ### The outcome

Of an answer only the verdict and the rule are compared here. They come out of the stages up to the
rules. -/

/-- What a response says about the rule that decided. -/
structure Outcome where
  verdict : ExplainVerdict
  rule : String
  ruleId : String
  deriving DecidableEq, Repr

/-- The outcome of a response. -/
def ExplainFlowResponse.outcome (resp : ExplainFlowResponse) : Outcome :=
  ⟨resp.verdict, resp.matchedRule, resp.matchedRuleId⟩

/-- The outcome of the rule that was found. -/
def ruleOutcome : Option Rule → Outcome
  | none => ⟨.defaultDrop, "", ""⟩
  | some r => ⟨verdictForAction r.action, r.name, r.id⟩

/-- The outcome for a flow over an index. -/
def flowOutcome (idx : Index) (input : FlowInput) (rules : List Rule) : Except String Outcome := do
  let (_, out) ← applyDNAT idx input
  return ruleOutcome (← firstMatch idx out (enabledRules rules))

/-- The outcome for a request. -/
def requestOutcome (p : Phragma.Policy) (req : ExplainFlowRequest) : Except String Outcome := do
  let input ← parseInput req
  let idx ← newIndex p
  flowOutcome idx input p.rules

/-- **The outcome of an explanation.** -/
theorem ExplainFlow_outcome (H : IdentityHash) (p : Phragma.Policy) (req : ExplainFlowRequest)
    (version : Nat) : (ExplainFlow H p req version).map ExplainFlowResponse.outcome =
      requestOutcome (normalizeIdentities H p) req := by
  unfold ExplainFlow requestOutcome flowOutcome
  cases hinput : parseInput req with
  | error err => rfl
  | ok input =>
      cases hidx : newIndex (normalizeIdentities H p) with
      | error err => simp only [hidx, bind, Except.bind, Except.map]
      | ok idx =>
          cases hnat : applyDNAT idx input with
          | error err => simp only [hidx, hnat, bind, Except.bind, Except.map]
          | ok x =>
              have hloop := walkRules_enabled idx x.2 (normalizeIdentities H p).rules 0
              simp only [hidx, hnat, bind, Except.bind, ← hloop]
              cases walkRules idx x.2 (normalizeIdentities H p).rules.zipIdx with
              | error err => rfl
              | ok y =>
                  obtain ⟨hit, trace⟩ := y
                  cases hit <;> rfl

/-! ### Tables that resolve alike

The explainer sees the objects of a policy through its lookups alone. -/

/-- Two indexes that resolve every reference alike. -/
structure SameLookups (idx idx' : Index) : Prop where
  addresses : ∀ ref, idx'.addresses.lookup ref = idx.addresses.lookup ref
  services : ∀ ref, idx'.services.lookup ref = idx.services.lookup ref
  apps : ∀ ref, idx'.apps.lookup ref = idx.apps.lookup ref
  ids : idx'.policy.getIds = idx.policy.getIds
  destination : idx'.policy.getNat.destination = idx.policy.getNat.destination

section Alike

variable {idx idx' : Index} (h : SameLookups idx idx')

include h

theorem ruleMatches_congr (input : FlowInput) (r : Rule) :
    ruleMatches idx' input r = ruleMatches idx input r := by
  have haddress : ∀ refs ip, addressMatches idx' refs ip = addressMatches idx refs ip :=
    fun refs ip => matchAnyRefs_congr fun ref _ _ => h.addresses ref
  have hservice : ∀ refs proto port,
      servicesMatch idx' refs proto port = servicesMatch idx refs proto port :=
    fun refs proto port => matchAnyRefs_congr fun ref _ _ => h.services ref
  have happ : ∀ refs, applicationMatches idx' refs input = applicationMatches idx refs input := by
    intro refs
    unfold applicationMatches
    rw [h.ids]
    exact matchAnyRefs_congr fun ref _ _ => h.apps ref
  unfold ruleMatches
  rw [haddress, haddress, hservice, happ]

theorem firstMatch_congr (input : FlowInput) (rules : List Rule) :
    firstMatch idx' input rules = firstMatch idx input rules := by
  induction rules with
  | nil => rfl
  | cons r rules ih => rw [firstMatch, firstMatch, ruleMatches_congr h, ih]

theorem findDNAT_congr (input : FlowInput) (dns : List (DestinationNat × Nat)) :
    findDNAT idx' input dns = findDNAT idx input dns := by
  induction dns with
  | nil => rfl
  | cons dn dns ih =>
      obtain ⟨dn, i⟩ := dn
      rw [findDNAT, findDNAT, h.services, h.addresses, h.addresses, ih]

theorem flowOutcome_congr (input : FlowInput) {rules rules' : List Rule}
    (hrules : enabledRules rules' = enabledRules rules) :
    flowOutcome idx' input rules' = flowOutcome idx input rules := by
  have hdnat : applyDNAT idx' input = applyDNAT idx input := by
    unfold applyDNAT
    rw [h.destination, findDNAT_congr h]
  have hfirst : ∀ out, firstMatch idx' out (enabledRules rules) =
      firstMatch idx out (enabledRules rules) := fun out => firstMatch_congr h out _
  unfold flowOutcome
  simp only [hdnat, hrules, hfirst]

end Alike

/-! ### Objects in another order

Names are different in an accepted policy, so the order in which objects are entered does not
matter. -/

/-- Where no two objects have one name, a table does not depend on their order. -/
theorem lookup_tableOf_perm {α : Type} {key : α → String} {l l' : List α} (hperm : l.Perm l')
    (hnd : (l.map key).Nodup) (ref : String) :
    (tableOf key id l').lookup ref = (tableOf key id l).lookup ref := by
  have hnd' : (l'.map key).Nodup := (hperm.map key).nodup_iff.mp hnd
  cases hlookup : (tableOf key id l).lookup ref with
  | some a =>
      obtain ⟨a', hmem, rfl, rfl⟩ := exists_of_lookup_tableOf hlookup
      exact @lookup_tableOf_of_mem _ _ key id _ hnd' _ (hperm.mem_iff.mp hmem)
  | none =>
      cases hlookup' : (tableOf key id l').lookup ref with
      | none => rfl
      | some a =>
          obtain ⟨a', hmem, rfl, rfl⟩ := exists_of_lookup_tableOf hlookup'
          have hsome := @lookup_tableOf_of_mem _ _ key id _ hnd _ (hperm.mem_iff.mpr hmem)
          rw [hlookup] at hsome
          cases hsome

/-- The index of an accepted policy. -/
theorem newIndex_of_accepted {p : Phragma.Policy} (hA : Accepted p) :
    ∃ idx, newIndex p = .ok idx ∧ LookupOf p idx := by
  obtain ⟨c, hc⟩ := newCompilation_succeeds hA
  obtain ⟨idx, hidx, -⟩ := newIndex_ok hA (tablesOf_newCompilation hc)
  exact ⟨idx, hidx, lookupOf_of_newIndex hidx hA.address_cidr⟩

/-- **Normalization of a policy with valid and distinct rule ids** leaves all but the ids of
host-input and translation rules alone. -/
theorem normalizeIdentities_of_valid (H : IdentityHash) {p : Phragma.Policy}
    (hvalid : ∀ r ∈ p.rules, ValidRuleID r.id = true) (hnd : (p.rules.map (·.id)).Nodup) :
    normalizeIdentities H p = { p with
      hostInput := (normalizeHostInput H p).1
      nat := (normalizeNat H (normalizeHostInput H p).2.seen p.nat).1 } := by
  rw [normalizeIdentities, NormalizeRuleIDs_of_valid H hvalid hnd, NormalizePolicyItemIDs]

theorem normalizeIdentities_of_accepted (H : IdentityHash) {p : Phragma.Policy}
    (h : Validate p = []) : normalizeIdentities H p = { p with
      hostInput := (normalizeHostInput H p).1
      nat := (normalizeNat H (normalizeHostInput H p).2.seen p.nat).1 } :=
  normalizeIdentities_of_valid H (rules_identified h).1 (rules_identified h).2

/-- The index of an accepted policy after normalization. -/
theorem newIndex_normalized (H : IdentityHash) {p : Phragma.Policy} (h : Validate p = []) :
    ∃ idx, newIndex (normalizeIdentities H p) = .ok idx ∧
      LookupOf (normalizeIdentities H p) idx := by
  obtain ⟨idx, hidx, hL⟩ := newIndex_of_accepted (accepted_of_Validate h)
  have hnormal := newIndex_congr (p := p) (q := normalizeIdentities H p) rfl rfl rfl rfl hidx
  exact ⟨_, hnormal, rfl, hL.addresses, hL.services, hL.apps⟩

section Sections

variable {H : IdentityHash} {p q : Phragma.Policy} (hp : Validate p = []) (hq : Validate q = [])

include hp hq

/-- **Policies that differ in the order of their objects resolve references alike.** -/
theorem sameLookups_of_perm (hsame : SameSections p q) {idx idx' : Index}
    (hL : LookupOf (normalizeIdentities H p) idx)
    (hL' : LookupOf (normalizeIdentities H q) idx') : SameLookups idx idx' := by
  have hA := accepted_of_Validate hp
  rw [normalizeIdentities_of_accepted H hp] at hL
  rw [normalizeIdentities_of_accepted H hq] at hL'
  have hhost : normalizeHostInput H q = normalizeHostInput H p := by
    unfold normalizeHostInput
    rw [hsame.hostInput]
  refine ⟨fun ref => ?_, fun ref => ?_, fun ref => ?_, ?_, ?_⟩
  · rw [hL.addresses, hL'.addresses]
    exact congrArg (Option.bind · _) (lookup_tableOf_perm hsame.addresses hA.address_names ref)
  · rw [hL.services, hL'.services]
    exact lookup_tableOf_perm hsame.services hA.services.names ref
  · rw [hL.apps, hL'.apps]
    exact lookup_tableOf_perm hsame.applications hA.applications.names ref
  · rw [hL.policy, hL'.policy]
    unfold Policy.getIds
    rw [hsame.ids]
  · rw [hL.policy, hL'.policy]
    unfold Policy.getNat
    simp only [hhost, hsame.nat]

/-- **The same enabled rules in the same order, the same outcome** for every request. -/
theorem outcome_of_sameSections (hsame : SameSections p q)
    (hrules : enabledRules q.rules = enabledRules p.rules)
    (req : ExplainFlowRequest) (version : Nat) :
    (ExplainFlow H q req version).map ExplainFlowResponse.outcome =
      (ExplainFlow H p req version).map ExplainFlowResponse.outcome := by
  obtain ⟨idx, hidx, hL⟩ := newIndex_normalized H hp
  obtain ⟨idx', hidx', hL'⟩ := newIndex_normalized H hq
  have halike := sameLookups_of_perm hp hq hsame hL hL'
  rw [ExplainFlow_outcome, ExplainFlow_outcome]
  unfold requestOutcome
  rw [hidx, hidx']
  have hrules' : enabledRules (normalizeIdentities H q).rules =
      enabledRules (normalizeIdentities H p).rules := by
    rw [normalizeIdentities_of_accepted H hp, normalizeIdentities_of_accepted H hq]
    exact hrules
  cases parseInput req with
  | error err => rfl
  | ok input => exact flowOutcome_congr halike input hrules'

/-! ### Low risk

A change that is not graded above low leaves the sections that count as they were. -/

/-- **A low risk.** The rules that can decide about traffic are the same up to their order, and
unless a rule was added or removed and the enabled rules stand in another order, every request is
answered the same: the same verdict by the same rule, or the same error. -/
theorem low_risk_verdicts {orders : String → MapOrders}
    (hlow : (Impact orders p q).risk = .low) :
    (p.rules.filter graded).Perm (q.rules.filter graded) ∧
      ∀ (req : ExplainFlowRequest) (version : Nat),
        (p.rules.map (·.id)).Perm (q.rules.map (·.id)) ∨
          enabledRules q.rules = enabledRules p.rules →
        (ExplainFlow H q req version).map ExplainFlowResponse.outcome =
          (ExplainFlow H p req version).map ExplainFlowResponse.outcome := by
  obtain ⟨hspares, horder, -, hsame⟩ := (risk_low_iff hp hq).mp hlow
  have hkp := ruleKey_keyed hp
  have hkq := ruleKey_keyed hq
  refine ⟨perm_filter_of_changes hkp hkq hspares, fun req version h => ?_⟩
  refine outcome_of_sameSections hp hq hsame ?_ req version
  rcases h with hids | henabled
  · -- without additions and removals there is no change at all, so the order is compared
    have hnames : (p.rules.map ruleName).Perm (q.rules.map ruleName) := by
      have hmap : ∀ rules : List Rule,
          rules.map ruleName = (rules.map (·.id)).map ("id:" ++ ·) := fun rules => by
        rw [List.map_map]
        rfl
      rw [hmap, hmap]
      exact hids.map _
    have hperm : p.rules.Perm q.rules := by
      refine (changes_eq_nil_iff hkp hkq (o := orders "rules")).mp ?_
      refine List.eq_nil_iff_forall_not_mem.mpr fun c hc => ?_
      have hholds := (mem_changes_iff hkp hkq).mp hc
      cases c with
      | added a i =>
          exact hholds.2 (hnames.mem_iff.mpr (List.mem_map_of_mem (List.mem_of_getElem? hholds.1)))
      | modified b a i => exact hspares _ hc
      | removed b i =>
          exact hholds.2 (hnames.mem_iff.mp (List.mem_map_of_mem (List.mem_of_getElem? hholds.1)))
    rw [(rules_eq_iff hp hq).mp ⟨hperm, horder⟩]
  · exact henabled

end Sections

/-- Two rules for a host and its network, in an order that lets the host through. -/
def hostFirst : Phragma.Policy where
  addresses := [{ name := "host", cidr := "10.0.0.5/32" }, { name := "net", cidr := "10.0.0.0/24" }]
  rules := [{ id := "rule-1", name := "host-out", sourceAddresses := ["host"], action := .allow },
    { id := "rule-2", name := "net-out", sourceAddresses := ["net"], action := .deny }]

/-- The same rules in the other order, and a disabled rule. -/
def networkFirst : Phragma.Policy :=
  { hostFirst with
    rules := hostFirst.rules.reverse ++
      [{ id := "rule-3", name := "later", sourceAddresses := ["host"], action := .deny
         disabled := true }] }

/-- A connection of the host. -/
def hostRequest : ExplainFlowRequest :=
  { srcIp := "10.0.0.5", destIp := "192.0.2.1", destPort := 443, protocol := .tcp }

/-- The rules in their order, and a disabled rule. -/
def hostFirstAndLater : Phragma.Policy :=
  { hostFirst with
    rules := hostFirst.rules ++ [{ id := "rule-3", name := "later", sourceAddresses := ["host"]
                                   action := .deny, disabled := true }] }

/-- A disabled rule that is added does not matter. -/
theorem low_risk_verdicts_disabled :
    (ExplainFlow .zero hostFirstAndLater hostRequest 1).map ExplainFlowResponse.outcome =
      .ok ⟨.allowed, "host-out", "rule-1"⟩ := by
  have hlow : (Impact (fun _ => .asEntered) hostFirst hostFirstAndLater).risk = .low := by decide
  have h := low_risk_verdicts (H := .zero) (by decide) (by decide) hlow
  exact (h.2 hostRequest 1 (.inr (by decide))).trans rfl

/-- **A disabled rule hides another order**: the risk is low, and the host is cut off. -/
theorem low_risk_reordered :
    Validate hostFirst = [] ∧ Validate networkFirst = [] ∧
      (Impact (fun _ => .asEntered) hostFirst networkFirst).risk = .low ∧
      (ExplainFlow .zero hostFirst hostRequest 1).map ExplainFlowResponse.outcome =
        .ok ⟨.allowed, "host-out", "rule-1"⟩ ∧
      (ExplainFlow .zero networkFirst hostRequest 1).map ExplainFlowResponse.outcome =
        .ok ⟨.denied, "net-out", "rule-2"⟩ :=
  ⟨by decide, by decide, by decide, rfl, rfl⟩

end Phragma.Explain
