import Phragma.Explain.LowRisk

/-!
# Phragma.Explain.Shadows

**Shadowed rules.** `shadowedRules` of `internal/policy/impact.go` compares two rules by the names
in their zones, addresses, services and applications; the explainer compares a flow with what the
names stand for, and with the identity context of a rule as well. A rule that is covered by name
matches a flow only when the covering rule does (`matches_of_covers`), as far as the context of
the covering rule is met whenever its own is. So the finding is right in that case
(`shadow_sound`), and only the context can make it wrong (`shadow_unsound`).
-/

namespace Phragma.Explain

open Lib Go Policy Compiler

/-! ### One dimension

One list of names takes in another if it is the wildcard or has all its names. Then whatever matches
the second matches the first. -/

theorem coversDim_iff {a b : List String} : coversDim a b = true ↔
    anyToken a = true ∨ anyToken b = false ∧ ∀ x ∈ b, x ∈ a := by
  unfold coversDim
  cases anyToken a <;> cases anyToken b <;> simp

theorem zoneMatches_iff {refs : List String} {zone : String} :
    zoneMatches refs zone = true ↔ anyToken refs = true ∨ zone ≠ "" ∧ zone ∈ refs := by
  have hany : (refs.isEmpty || containsAny refs) = anyToken refs := rfl
  unfold zoneMatches
  rw [hany]
  cases anyToken refs <;> by_cases hzone : zone = "" <;> simp [hzone]

theorem zoneMatches_of_covers {a b : List String} (h : coversDim a b = true) {zone : String}
    (hb : zoneMatches b zone = true) : zoneMatches a zone = true := by
  rw [zoneMatches_iff] at hb ⊢
  rcases coversDim_iff.mp h with ha | ⟨hnone, hsub⟩
  · exact .inl ha
  · rcases hb with hb | ⟨hzone, hmem⟩
    · rw [hb] at hnone
      cases hnone
    · exact .inr ⟨hzone, hsub zone hmem⟩

section References

variable {α : Type} {find : String → Option α} {unknown : String → String} {test : α → Bool}

/-- **References that are all known match when one of them does.** -/
theorem matchAnyRefs_iff {refs : List String} (h : ∀ r ∈ refs, r ≠ Any → (find r).isSome) :
    matchAnyRefs find unknown test refs = .ok true ↔
      anyToken refs = true ∨ ∃ r ∈ refs, ∃ a, find r = some a ∧ test a = true := by
  have hany : (refs.isEmpty || containsAny refs) = anyToken refs := rfl
  unfold matchAnyRefs
  rw [hany]
  cases hrefs : anyToken refs with
  | true => simp
  | false =>
      have hknown : ∀ r ∈ refs, (find r).isSome := by
        intro r hr
        refine h r hr ?_
        rintro rfl
        simp [anyToken, hr] at hrefs
      rw [if_neg Bool.false_ne_true, matchRefs_of_isSome hknown, Except.ok.injEq,
        List.any_eq_true, eq_false Bool.false_ne_true, false_or]
      refine exists_congr fun r => and_congr_right fun _ => ?_
      cases find r <;> simp

theorem matchAnyRefs_of_covers {a b : List String} (h : coversDim a b = true)
    (ha : ∀ r ∈ a, r ≠ Any → (find r).isSome) (hb : ∀ r ∈ b, r ≠ Any → (find r).isSome)
    (hmatch : matchAnyRefs find unknown test b = .ok true) :
    matchAnyRefs find unknown test a = .ok true := by
  rw [matchAnyRefs_iff ha]
  rcases coversDim_iff.mp h with hany | ⟨hnone, hsub⟩
  · exact .inl hany
  · rcases (matchAnyRefs_iff hb).mp hmatch with hany | ⟨r, hr, x, hx, htest⟩
    · rw [hany] at hnone
      cases hnone
    · exact .inr ⟨r, hsub r hr, x, hx, htest⟩

end References

/-! ### Rules

A rule that takes in another in every dimension matches wherever the other does, except for what is
not compared: contexts, and addresses that different names stand for. -/

/-- The context of a rule is met by every request that meets the context of another. -/
def ContextCovers (e r : Rule) : Prop :=
  ∀ supplied, ruleMatchContextMatches r.matchContext supplied = none →
    ruleMatchContextMatches e.matchContext supplied = none

/-- A rule that asks for no context covers every context. -/
theorem contextCovers_of_none {e r : Rule} (h : ruleContext e = none) : ContextCovers e r := by
  intro supplied _
  unfold ruleContext at h
  cases hctx : e.matchContext with
  | none => rfl
  | some m =>
      rw [hctx] at h
      have hempty : ruleContextEmpty m = true := by simpa [Option.filter] using h
      rw [ruleMatchContextMatches, if_pos hempty]

/-- Does a rule match a flow? -/
def matchesRule (idx : Index) (r : Rule) (input : FlowInput) : Bool :=
  decide (ruleMatches idx input r = .ok none)

section Rules

variable {idx : Index} {input : FlowInput}

/-- What a rule with known references asks of a flow. -/
structure Meets (idx : Index) (input : FlowInput) (r : Rule) : Prop where
  fromZone : zoneMatches r.fromZones input.fromZone = true
  toZone : zoneMatches r.toZones input.toZone = true
  flow : matchesFlow idx input r = true
  context : ruleMatchContextMatches r.matchContext input.context = none

theorem ruleMatches_iff (input : FlowInput) {r : Rule} (h : KnownRefs idx r) :
    ∃ reason, ruleMatches idx input r = .ok reason ∧ (reason = none ↔ Meets idx input r) := by
  obtain ⟨src, hsrc⟩ : ∃ b, addressMatches idx r.sourceAddresses input.src = .ok b :=
    matchAnyRefs_of_known h.sources
  obtain ⟨dst, hdst⟩ : ∃ b, addressMatches idx r.destinationAddresses input.dst = .ok b :=
    matchAnyRefs_of_known h.destinations
  obtain ⟨svc, hsvc⟩ : ∃ b, servicesMatch idx r.services input.proto input.dstPort = .ok b :=
    matchAnyRefs_of_known h.services
  obtain ⟨app, happ⟩ : ∃ b, applicationMatches idx r.applications input = .ok b :=
    matchAnyRefs_of_known h.applications
  have hmeets : Meets idx input r ↔ zoneMatches r.fromZones input.fromZone = true ∧
      zoneMatches r.toZones input.toZone = true ∧ matchesFlow idx input r = true ∧
      ruleMatchContextMatches r.matchContext input.context = none :=
    ⟨fun h => ⟨h.1, h.2, h.3, h.4⟩, fun h => ⟨h.1, h.2.1, h.2.2.1, h.2.2.2⟩⟩
  rw [hmeets]
  unfold ruleMatches matchesFlow
  rw [hsrc, hdst, hsvc, happ]
  simp only [Except.mapError, bind, Except.bind, pure, Except.pure, Except.ok.injEq]
  cases zoneMatches r.fromZones input.fromZone <;> cases zoneMatches r.toZones input.toZone <;>
    cases src <;> cases dst <;> cases svc <;> cases app <;> simp

/-- **A rule that is covered by name matches only what the covering rule matches**, once the
contexts are settled. -/
theorem matches_of_covers {e r : Rule} (hcovers : ruleCovers e r = true)
    (hctx : ContextCovers e r) (he : KnownRefs idx e) (hr : KnownRefs idx r)
    (hmeets : Meets idx input r) : Meets idx input e := by
  simp only [ruleCovers, Bool.and_eq_true] at hcovers
  obtain ⟨⟨⟨⟨⟨hfrom, hto⟩, hsrc⟩, hdst⟩, hsvc⟩, happ⟩ := hcovers
  obtain ⟨hsrc', hdst', hsvc', happ'⟩ := matchesFlow_iff.mp hmeets.flow
  refine ⟨zoneMatches_of_covers hfrom hmeets.fromZone, zoneMatches_of_covers hto hmeets.toZone,
    matchesFlow_iff.mpr ⟨?_, ?_, ?_, ?_⟩, hctx _ hmeets.context⟩
  · exact matchAnyRefs_of_covers hsrc he.sources hr.sources hsrc'
  · exact matchAnyRefs_of_covers hdst he.destinations hr.destinations hdst'
  · exact matchAnyRefs_of_covers hsvc he.services hr.services hsvc'
  · exact matchAnyRefs_of_covers happ he.applications hr.applications happ'

/-- The first match among rules with known references. -/
theorem firstMatch_eq_find : ∀ {rules : List Rule}, (∀ r ∈ rules, KnownRefs idx r) →
    firstMatch idx input rules = .ok (rules.find? (matchesRule idx · input)) := by
  intro rules
  induction rules with
  | nil => exact fun _ => rfl
  | cons r rules ih =>
      intro hknown
      obtain ⟨reason, hreason, -⟩ := ruleMatches_iff input (hknown r List.mem_cons_self)
      rw [firstMatch, hreason, List.find?_cons, matchesRule, hreason]
      cases reason with
      | none => rfl
      | some why => exact ih fun r' hr' => hknown r' (List.mem_cons_of_mem _ hr')

end Rules

/-! ### Findings

The loop stops at the first rule that matches, so a rule behind one that takes it in never
decides. -/

/-- What a finding says about the list of rules. -/
theorem mem_shadowedRules {rules : List Rule} {i j : Nat} (h : (i, j) ∈ shadowedRules rules) :
    ∃ r e, rules[i]? = some r ∧ rules[j]? = some e ∧ j < i ∧ active r = true ∧
      active e = true ∧ ruleCovers e r = true := by
  obtain ⟨⟨r, k⟩, hr, hx⟩ := List.mem_filterMap.mp h
  have hget := List.mk_mem_zipIdx_iff_getElem?.mp hr
  dsimp only at hx
  split at hx
  · next hactive =>
      obtain ⟨⟨e, l⟩, hfind, heq⟩ := Option.map_eq_some_iff.mp hx
      obtain ⟨rfl, rfl⟩ := Prod.mk.inj heq
      have hcovers := List.find?_some hfind
      have hgete := List.mk_mem_zipIdx_iff_getElem?.mp (List.mem_of_find?_eq_some hfind)
      rw [List.getElem?_take] at hgete
      split at hgete
      · next hlt =>
          rw [Bool.and_eq_true] at hcovers
          exact ⟨r, e, hget, hgete, hlt, hactive, hcovers.1, hcovers.2⟩
      · cases hgete
  · cases hx

section Findings

variable {H : IdentityHash} {p : Phragma.Policy} (hp : Validate p = []) {front back : List Rule}
  {r e : Rule} (hrules : p.rules = front ++ r :: back) (hmem : e ∈ front)
  (hr : r.disabled = false) (he : e.disabled = false) (hcovers : ruleCovers e r = true)
  (hctx : ContextCovers e r)

theorem enabledRules_append (l l' : List Rule) :
    enabledRules (l ++ l') = enabledRules l ++ enabledRules l' := List.filter_append ..

include hp hrules hmem hr he hcovers hctx

/-- A covered rule is never the first to match. -/
theorem firstMatch_shadowed {idx : Index} (hL : LookupOf (normalizeIdentities H p) idx)
    (input : FlowInput) :
    firstMatch idx input (enabledRules p.rules) =
      firstMatch idx input (enabledRules (front ++ back)) ∧
    firstMatch idx input (enabledRules (front ++ back)) =
      .ok ((enabledRules (front ++ back)).find? (matchesRule idx · input)) := by
  have hL' : LookupOf p { idx with policy := p } := ⟨rfl, hL.addresses, hL.services, hL.apps⟩
  have hknown : ∀ x ∈ p.rules, KnownRefs idx x := by
    intro x hx
    have h := knownRefs_of_accepted (accepted_of_Validate hp) hL' hx
    exact ⟨h.sources, h.destinations, h.services, h.applications⟩
  have hall : ∀ x ∈ enabledRules p.rules, KnownRefs idx x := fun x hx =>
    hknown x (List.mem_filter.mp hx).1
  have hfront : ∀ x ∈ enabledRules (front ++ back), KnownRefs idx x := by
    intro x hx
    refine hknown x ?_
    rw [hrules]
    rcases List.mem_append.mp (List.mem_filter.mp hx).1 with h | h
    · exact List.mem_append_left _ h
    · exact List.mem_append_right _ (List.mem_cons_of_mem _ h)
  have hsplit : enabledRules p.rules = enabledRules front ++ r :: enabledRules back := by
    rw [hrules, enabledRules_append]
    simp [enabledRules, hr]
  -- whatever the shadowed rule matches, the earlier one matches before it
  have hshadow : matchesRule idx r input = true →
      ∃ d ∈ enabledRules front, matchesRule idx d input = true := by
    intro hmatch
    have hke := hknown e (hrules ▸ List.mem_append_left _ hmem)
    have hkr := hknown r (by rw [hrules]; simp)
    obtain ⟨reason, hreason, hiff⟩ := ruleMatches_iff input hkr
    obtain ⟨reason', hreason', hiff'⟩ := ruleMatches_iff input hke
    rw [matchesRule, decide_eq_true_eq, hreason, Except.ok.injEq] at hmatch
    refine ⟨e, List.mem_filter.mpr ⟨hmem, by simp [he]⟩, ?_⟩
    rw [matchesRule, decide_eq_true_eq, hreason', Except.ok.injEq]
    exact hiff'.mpr (matches_of_covers hcovers hctx hke hkr (hiff.mp hmatch))
  refine ⟨?_, firstMatch_eq_find hfront⟩
  rw [firstMatch_eq_find hall, firstMatch_eq_find hfront, hsplit, enabledRules_append]
  exact congrArg _ (@find?_of_shadowed _ _ (matchesRule idx) _ _ _ _ hshadow)

/-- The outcome of an accepted policy without the covered rule. -/
theorem outcome_shadowed (req : ExplainFlowRequest) (version : Nat) :
    (ExplainFlow H { p with rules := front ++ back } req version).map
        ExplainFlowResponse.outcome =
      (ExplainFlow H p req version).map ExplainFlowResponse.outcome ∧
    ∀ resp, ExplainFlow H p req version = .ok resp → resp.matchedRuleId ≠ r.id := by
  obtain ⟨hvalid, hnd⟩ := rules_identified hp
  have hmove : (p.rules.map (·.id)).Perm (r.id :: (front ++ back).map (·.id)) := by
    rw [hrules]
    exact List.perm_middle.map Rule.id
  have hnd' : r.id ∉ (front ++ back).map (·.id) ∧ ((front ++ back).map (·.id)).Nodup :=
    List.nodup_cons.mp (hmove.nodup_iff.mp hnd)
  have hsub : ∀ x ∈ front ++ back, x ∈ p.rules := by
    intro x hx
    rw [hrules]
    rcases List.mem_append.mp hx with h | h
    · exact List.mem_append_left _ h
    · exact List.mem_append_right _ (List.mem_cons_of_mem _ h)
  -- both policies are normalized to themselves, up to the ids of other items
  have hq := normalizeIdentities_of_valid H (p := { p with rules := front ++ back })
    (fun x hx => hvalid x (hsub x hx)) hnd'.2
  have hpn := normalizeIdentities_of_accepted H hp
  obtain ⟨idx, hidx, hL⟩ := newIndex_normalized H hp
  have hidx' := newIndex_congr (p := normalizeIdentities H p)
    (q := normalizeIdentities H { p with rules := front ++ back }) rfl rfl rfl rfl hidx
  have halike : SameLookups idx
      { idx with policy := normalizeIdentities H { p with rules := front ++ back } } := by
    refine ⟨fun _ => rfl, fun _ => rfl, fun _ => rfl, ?_, ?_⟩
    · rw [hL.policy]
      rfl
    · rw [hL.policy, hq, hpn]
      rfl
  have houtcome : ∀ input, flowOutcome idx input (normalizeIdentities H p).rules =
      flowOutcome idx input (front ++ back) := by
    intro input
    unfold flowOutcome
    rw [show (normalizeIdentities H p).rules = p.rules by rw [hpn]]
    simp only [(firstMatch_shadowed hp hrules hmem hr he hcovers hctx hL _).1]
  refine ⟨?_, fun resp hresp => ?_⟩
  · rw [ExplainFlow_outcome, ExplainFlow_outcome, requestOutcome, requestOutcome, hidx, hidx']
    cases parseInput req with
    | error err => rfl
    | ok input =>
        refine (flowOutcome_congr halike input ?_).trans (houtcome input).symm
        rw [show (normalizeIdentities H { p with rules := front ++ back }).rules = front ++ back
          by rw [hq]]
  · have hout := ExplainFlow_outcome H p req version
    rw [hresp, requestOutcome, hidx] at hout
    cases hinput : parseInput req with
    | error err =>
        rw [hinput] at hout
        cases hout
    | ok input =>
        rw [hinput] at hout
        have hflow := hout.trans (houtcome input)
        unfold flowOutcome at hflow
        cases hnat : applyDNAT idx input with
        | error err =>
            rw [hnat] at hflow
            cases hflow
        | ok x =>
            rw [hnat] at hflow
            simp only [bind, Except.bind,
              (firstMatch_shadowed hp hrules hmem hr he hcovers hctx hL x.2).2, pure, Except.pure,
              Except.map, Except.ok.injEq] at hflow
            have hid : resp.matchedRuleId = (ruleOutcome
              ((enabledRules (front ++ back)).find? (matchesRule idx · x.2))).ruleId :=
              congrArg Outcome.ruleId hflow
            rw [hid]
            cases hfind : (enabledRules (front ++ back)).find? (matchesRule idx · x.2) with
            | none =>
                exact (ne_empty_of_ValidRuleID (hvalid r (by rw [hrules]; simp))).symm
            | some d =>
                intro heq
                have hd := (List.mem_filter.mp (List.mem_of_find?_eq_some hfind)).1
                exact hnd'.1 (heq ▸ List.mem_map_of_mem (f := (·.id)) hd)

end Findings

/-- **Shadow findings.** Where the context of the covering rule is met whenever that of the
covered rule is, no request is answered by the covered rule, and without it every request is
answered as before. -/
theorem shadow_sound (H : IdentityHash) {p : Phragma.Policy} (hp : Validate p = []) {i j : Nat}
    (hfind : (i, j) ∈ shadowedRules p.rules) {r e : Rule} (hr : p.rules[i]? = some r)
    (he : p.rules[j]? = some e) (hctx : ContextCovers e r) (req : ExplainFlowRequest)
    (version : Nat) :
    (∀ resp, ExplainFlow H p req version = .ok resp → resp.matchedRuleId ≠ r.id) ∧
      (ExplainFlow H { p with rules := p.rules.eraseIdx i } req version).map
          ExplainFlowResponse.outcome =
        (ExplainFlow H p req version).map ExplainFlowResponse.outcome := by
  obtain ⟨r', e', hgetr, hgete, hlt, hactive, hactive', hcovers⟩ := mem_shadowedRules hfind
  rw [hr, Option.some.injEq] at hgetr
  rw [he, Option.some.injEq] at hgete
  subst hgetr hgete
  obtain ⟨hi, hget⟩ := List.getElem?_eq_some_iff.mp hr
  have hrules : p.rules = p.rules.take i ++ r :: p.rules.drop (i + 1) := by
    rw [← hget, List.getElem_cons_drop, List.take_append_drop]
  have hmem : e ∈ p.rules.take i := by
    refine List.mem_of_getElem? (i := j) ?_
    rw [List.getElem?_take, if_pos hlt, he]
  have h := outcome_shadowed (H := H) hp hrules hmem (by simpa [active] using hactive)
    (by simpa [active] using hactive') hcovers hctx req version
  rw [List.eraseIdx_eq_take_drop_succ]
  exact ⟨h.2, h.1⟩

/-- A rule for a network and a context, before a rule for the network. -/
def networkTwice (matchContext : Option RuleMatchContext) : Phragma.Policy where
  addresses := [{ name := "net", cidr := "10.0.0.0/24" }]
  rules := [{ id := "rule-1", name := "staff-out", sourceAddresses := ["net"], action := .allow
              matchContext },
    { id := "rule-2", name := "net-out", sourceAddresses := ["net"], action := .deny }]

/-- A rule that asks for no context does shadow the other one. -/
theorem shadow_sound_networkTwice :
    (1, 0) ∈ shadowedRules (networkTwice none).rules ∧
      (ExplainFlow .zero { networkTwice none with rules := (networkTwice none).rules.eraseIdx 1 }
          hostRequest 1).map ExplainFlowResponse.outcome =
        (ExplainFlow .zero (networkTwice none) hostRequest 1).map ExplainFlowResponse.outcome := by
  have hfind : (1, 0) ∈ shadowedRules (networkTwice none).rules := by decide
  exact ⟨hfind, (shadow_sound .zero (by decide) hfind rfl rfl (contextCovers_of_none rfl)
    hostRequest 1).2⟩

/-- **A context makes the finding wrong**: a request without the group is answered by the rule
that is reported as never reached. -/
theorem shadow_unsound :
    Validate (networkTwice (some { groups := ["staff"] })) = [] ∧
      (1, 0) ∈ shadowedRules (networkTwice (some { groups := ["staff"] })).rules ∧
      (ExplainFlow .zero (networkTwice (some { groups := ["staff"] })) hostRequest 1).map
          ExplainFlowResponse.outcome =
        .ok ⟨.denied, "net-out", "rule-2"⟩ :=
  ⟨by decide, by decide, rfl⟩

end Phragma.Explain
