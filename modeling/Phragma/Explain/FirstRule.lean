import Phragma.Lib.FirstMatch
import Phragma.Explain.Agreement

/-!
# Phragma.Explain.FirstRule

**The verdict is that of the first enabled rule that matches.** When all references of a policy
resolve, nothing in the explainer's loop over the rules can fail, and what `ruleMatches` looks
at falls in two: the addresses, protocol, port and application of the flow (`matchesFlow`), and
the zones and the identity context it is asked with (`admits`). A rule that matches a flow
without zones and context matches it with all of them (`admits_of_least`).
-/

namespace Phragma.Explain

open Lib Go Policy Compiler

/-! ### One rule

The split of a comparison: what only depends on the flow, and what depends on how it is asked
about. -/

/-- The zones of a flow and the context of the request about it. -/
structure Surroundings where
  fromZone : String := ""
  toZone : String := ""
  context : Option RuleMatchContext := none
  deriving DecidableEq, Repr

/-- Do the zones and the context of a rule admit a flow? -/
def admits (r : Rule) (s : Surroundings) : Bool :=
  zoneMatches r.fromZones s.fromZone && zoneMatches r.toZones s.toZone &&
    (ruleMatchContextMatches r.matchContext (requestMatchContext s.context)).isNone

/-- Is a rule about the addresses, protocol, port and application of a flow? -/
def matchesFlow (idx : Index) (input : FlowInput) (r : Rule) : Bool :=
  decide (addressMatches idx r.sourceAddresses input.src = .ok true) &&
    decide (addressMatches idx r.destinationAddresses input.dst = .ok true) &&
    decide (servicesMatch idx r.services input.proto input.dstPort = .ok true) &&
    decide (applicationMatches idx r.applications input = .ok true)

/-- The comparison, as a condition. -/
theorem matchesFlow_iff {idx : Index} {input : FlowInput} {r : Rule} :
    matchesFlow idx input r = true ↔
      addressMatches idx r.sourceAddresses input.src = .ok true ∧
      addressMatches idx r.destinationAddresses input.dst = .ok true ∧
      servicesMatch idx r.services input.proto input.dstPort = .ok true ∧
      applicationMatches idx r.applications input = .ok true := by
  simp [matchesFlow, and_assoc]

/-- A list of zones that admits no zone admits every zone. -/
theorem zoneMatches_of_none {refs : List String} (h : zoneMatches refs "" = true) (zone : String) :
    zoneMatches refs zone = true := by
  unfold zoneMatches at h ⊢
  split at h
  · next hany => rw [if_pos hany]
  · simp at h

/-- A context that is met by nothing requires nothing. -/
theorem ruleMatchContextMatches_of_none {required : Option RuleMatchContext}
    (h : ruleMatchContextMatches required {} = none) (supplied : MatchContext) :
    ruleMatchContextMatches required supplied = none := by
  have hempty : ∀ values : List String, intersectsContext values [] = true → values = [] := by
    intro values hv
    simpa [intersectsContext] using hv
  cases required with
  | none => rfl
  | some m =>
      unfold ruleMatchContextMatches at h ⊢
      simp only at h ⊢
      split at h
      · next hnone => rw [if_pos hnone]
      · next hne =>
          rw [List.findSome?_eq_none_iff] at h
          refine absurd ?_ hne
          have hrow : ∀ name required, (name, required, ([] : List String)) ∈
              [("user", m.users, []), ("group", m.groups, []), ("device", m.devices, []),
                ("posture", m.postureLabels, [])] → required = [] := by
            intro name required hmem
            refine hempty required ?_
            by_contra hno
            have := h _ hmem
            simp [hno] at this
          simp [ruleContextEmpty, hrow "user" m.users (by simp), hrow "group" m.groups (by simp),
            hrow "device" m.devices (by simp), hrow "posture" m.postureLabels (by simp)]

/-- **A rule that admits a flow without zones and context admits it with any.** -/
theorem admits_of_least {r : Rule} (h : admits r {} = true) (s : Surroundings) :
    admits r s = true := by
  simp only [admits, Bool.and_eq_true, Option.isNone_iff_eq_none] at h ⊢
  obtain ⟨⟨hfrom, hto⟩, hctx⟩ := h
  exact ⟨⟨zoneMatches_of_none hfrom _, zoneMatches_of_none hto _⟩,
    ruleMatchContextMatches_of_none hctx _⟩

/-! ### Tables -/

/-- The tables of an index are those of its policy. -/
structure LookupOf (p : Phragma.Policy) (idx : Index) : Prop where
  policy : idx.policy = p
  addresses : ∀ ref, idx.addresses.lookup ref =
    ((tableOf Address.name id p.addresses).lookup ref).bind fun a => parsePrefix a.cidr
  services : idx.services = tableOf Service.name id p.services
  apps : idx.apps = tableOf Application.name id p.applications

theorem lookupOf_of_newIndex {p : Phragma.Policy} {idx : Index} (h : newIndex p = .ok idx)
    (hcidr : ∀ a ∈ p.addresses, (parsePrefix a.cidr).isSome) : LookupOf p idx := by
  unfold newIndex at h
  obtain ⟨addresses, ha, h⟩ := bind_ok.mp h
  obtain ⟨routes, -, h⟩ := bind_ok.mp h
  cases h
  exact ⟨rfl, addressIndex_lookup ha hcidr, rfl, rfl⟩

/-- The index depends on the objects and routes of a policy. -/
theorem newIndex_congr {p q : Phragma.Policy} (haddresses : q.addresses = p.addresses)
    (hservices : q.services = p.services) (happs : q.applications = p.applications)
    (hroutes : q.staticRoutes = p.staticRoutes) {idx : Index} (h : newIndex p = .ok idx) :
    newIndex q = .ok { idx with policy := q } := by
  unfold newIndex at h ⊢
  obtain ⟨addresses, ha, h⟩ := bind_ok.mp h
  obtain ⟨routes, hr, h⟩ := bind_ok.mp h
  cases h
  rw [haddresses, hservices, happs, hroutes, ha, hr]
  rfl

/-! ### References

What a rule refers to is in the tables, so no comparison ends in an error and each is simply true or
false. -/

/-- The references of a rule are in the tables of an index. -/
structure KnownRefs (idx : Index) (r : Rule) : Prop where
  sources : ∀ ref ∈ r.sourceAddresses, ref ≠ Any → (idx.addresses.lookup ref).isSome
  destinations : ∀ ref ∈ r.destinationAddresses, ref ≠ Any → (idx.addresses.lookup ref).isSome
  services : ∀ ref ∈ r.services, ref ≠ Any → (idx.services.lookup ref).isSome
  applications : ∀ ref ∈ r.applications, ref ≠ Any → (idx.apps.lookup ref).isSome

/-- A list of references that are known is compared without an error. -/
theorem matchAnyRefs_of_known {α : Type} {find : String → Option α} {unknown : String → String}
    {test : α → Bool} {refs : List String} (h : ∀ r ∈ refs, r ≠ Any → (find r).isSome) :
    ∃ b, matchAnyRefs find unknown test refs = .ok b := by
  unfold matchAnyRefs
  split
  · exact ⟨true, rfl⟩
  · next hany =>
      refine ⟨_, matchRefs_of_isSome fun r hr => h r hr ?_⟩
      rintro rfl
      simp [containsAny, hr] at hany

/-- **What `ruleMatches` answers** about a rule whose references are known. -/
theorem ruleMatches_of_known {idx : Index} {input : FlowInput} {r : Rule} (h : KnownRefs idx r)
    {s : Surroundings} (hfrom : input.fromZone = s.fromZone) (hto : input.toZone = s.toZone)
    (hctx : input.context = requestMatchContext s.context) :
    ∃ reason, ruleMatches idx input r = .ok reason ∧
      (reason = none ↔ admits r s = true ∧ matchesFlow idx input r = true) := by
  obtain ⟨src, hsrc⟩ : ∃ b, addressMatches idx r.sourceAddresses input.src = .ok b :=
    matchAnyRefs_of_known h.sources
  obtain ⟨dst, hdst⟩ : ∃ b, addressMatches idx r.destinationAddresses input.dst = .ok b :=
    matchAnyRefs_of_known h.destinations
  obtain ⟨svc, hsvc⟩ : ∃ b, servicesMatch idx r.services input.proto input.dstPort = .ok b :=
    matchAnyRefs_of_known h.services
  obtain ⟨app, happ⟩ : ∃ b, applicationMatches idx r.applications input = .ok b :=
    matchAnyRefs_of_known h.applications
  unfold ruleMatches admits matchesFlow
  rw [hsrc, hdst, hsvc, happ, ← hfrom, ← hto, ← hctx]
  simp only [Except.mapError, bind, Except.bind, pure, Except.pure, Except.ok.injEq]
  cases zoneMatches r.fromZones input.fromZone <;> cases zoneMatches r.toZones input.toZone <;>
    cases src <;> cases dst <;> cases svc <;> cases app <;> simp

/-- A reference the validator has checked is in its table. -/
theorem isSome_of_quiet {α : Type} {table : List (String × α)} {refs : List String}
    {msg : String → String}
    (h : (refs.flatMap fun r => errIf (r != Any && (table.lookup r).isNone) (msg r)) = []) :
    ∀ ref ∈ refs, ref ≠ Any → (table.lookup ref).isSome := by
  intro ref href hany
  have hone := List.flatMap_eq_nil_iff.mp h ref href
  by_contra hno
  simp [errIf, hany, Option.not_isSome_iff_eq_none.mp hno] at hone

/-- All references of an accepted policy are known. -/
theorem knownRefs_of_accepted {q : Phragma.Policy} (hA : Accepted q) {idx : Index}
    (hL : LookupOf q idx) {r : Rule} (hr : r ∈ q.rules) : KnownRefs idx r := by
  have hrule := hA.rule hr
  have haddress : ∀ {ref : String}, ((collectAll q).2.addresses.lookup ref).isSome →
      (idx.addresses.lookup ref).isSome := by
    intro ref h
    rw [hA.addresses_eq] at h
    obtain ⟨a, ha⟩ := Option.isSome_iff_exists.mp h
    obtain ⟨a', hmem, -, rfl⟩ := exists_of_lookup_tableOf ha
    rw [hL.addresses, ha]
    exact hA.address_cidr a' hmem
  refine ⟨fun ref href hany => haddress (isSome_of_quiet hrule.sources ref href hany),
    fun ref href hany => haddress (isSome_of_quiet hrule.destinations ref href hany), ?_, ?_⟩
  · rw [hL.services, ← hA.services_eq]
    exact isSome_of_quiet hrule.services
  · rw [hL.apps, ← hA.applications.map_eq]
    exact isSome_of_quiet hrule.applications

/-! ### More objects

Staging an observation adds objects to a policy. A rule that was there before does not notice. -/

/-- An index with more addresses and applications. -/
structure Extends (idx idx' : Index) : Prop where
  addresses : ∀ ref pfx, idx.addresses.lookup ref = some pfx → idx'.addresses.lookup ref = some pfx
  services : idx'.services = idx.services
  apps : ∀ ref app, idx.apps.lookup ref = some app → idx'.apps.lookup ref = some app
  ids : idx'.policy.getIds = idx.policy.getIds

/-- A name that was there is found where it was. -/
theorem lookup_tableOf_append {α : Type} {key : α → String} {l extra : List α} {ref : String}
    {a : α} (hnd : ((l ++ extra).map key).Nodup)
    (h : (tableOf key id l).lookup ref = some a) :
    (tableOf key id (l ++ extra)).lookup ref = some a := by
  obtain ⟨a', hmem, rfl, rfl⟩ := exists_of_lookup_tableOf h
  exact @lookup_tableOf_of_mem _ _ key id _ hnd _ (List.mem_append_left _ hmem)

/-- Objects that are added under new names leave the old ones as they were. -/
theorem extends_of_append {p q : Phragma.Policy} {idx idx' : Index} (hL : LookupOf p idx)
    (hL' : LookupOf q idx') {addrs : List Address} {apps : List Application}
    (haddrs : q.addresses = p.addresses ++ addrs) (happs : q.applications = p.applications ++ apps)
    (hservices : q.services = p.services) (hids : q.getIds = p.getIds)
    (hnd : (q.addresses.map Address.name).Nodup) (hnd' : (q.applications.map Application.name).Nodup) :
    Extends idx idx' := by
  rw [haddrs] at hnd
  rw [happs] at hnd'
  refine ⟨?_, by rw [hL'.services, hL.services, hservices], ?_, by rw [hL'.policy, hL.policy, hids]⟩
  · intro ref pfx h
    rw [hL.addresses] at h
    obtain ⟨a, ha, hpfx⟩ := Option.bind_eq_some_iff.mp h
    rw [hL'.addresses, haddrs, lookup_tableOf_append hnd ha]
    exact hpfx
  · intro ref app h
    rw [hL.apps] at h
    rw [hL'.apps, happs]
    exact lookup_tableOf_append hnd' h

/-- References that resolve alike are compared alike. -/
theorem matchAnyRefs_congr {α : Type} {find find' : String → Option α}
    {unknown : String → String} {test : α → Bool} {refs : List String}
    (h : ∀ r ∈ refs, r ≠ Any → find' r = find r) :
    matchAnyRefs find' unknown test refs = matchAnyRefs find unknown test refs := by
  unfold matchAnyRefs
  split
  · rfl
  · next hany =>
      have hne : ∀ r ∈ refs, find' r = find r := by
        intro r hr
        refine h r hr ?_
        rintro rfl
        simp [containsAny, hr] at hany
      clear h hany
      induction refs with
      | nil => rfl
      | cons r refs ih =>
          rw [matchRefs, matchRefs, hne r List.mem_cons_self,
            ih fun r' hr' => hne r' (List.mem_cons_of_mem _ hr')]

/-- **More objects change nothing for a rule whose references are known.** -/
theorem matchesFlow_of_extends {idx idx' : Index} (h : Extends idx idx') {r : Rule}
    (hr : KnownRefs idx r) (input : FlowInput) :
    matchesFlow idx' input r = matchesFlow idx input r := by
  have haddress : ∀ {refs : List String} (ip : Addr),
      (∀ ref ∈ refs, ref ≠ Any → (idx.addresses.lookup ref).isSome) →
      addressMatches idx' refs ip = addressMatches idx refs ip := by
    intro refs ip hknown
    refine matchAnyRefs_congr fun ref href hany => ?_
    obtain ⟨pfx, hpfx⟩ := Option.isSome_iff_exists.mp (hknown ref href hany)
    rw [hpfx]
    exact h.addresses ref pfx hpfx
  have hsvc : servicesMatch idx' r.services input.proto input.dstPort =
      servicesMatch idx r.services input.proto input.dstPort := by
    unfold servicesMatch
    rw [h.services]
  have happ : applicationMatches idx' r.applications input =
      applicationMatches idx r.applications input := by
    unfold applicationMatches
    rw [h.ids]
    refine matchAnyRefs_congr fun ref href hany => ?_
    obtain ⟨app, happ⟩ := Option.isSome_iff_exists.mp (hr.applications ref href hany)
    rw [happ]
    exact h.apps ref app happ
  unfold matchesFlow
  rw [haddress input.src hr.sources, haddress input.dst hr.destinations, hsvc, happ]

/-! ### The loop

With comparisons that do not fail, the loop is `List.find?`. -/

/-- The enabled rules that are about a flow, in order. -/
def flowRules (idx : Index) (input : FlowInput) (rules : List Rule) : List Rule :=
  rules.filter fun r => !r.disabled && matchesFlow idx input r

/-- A flow in its surroundings. -/
def FlowInput.within (input : FlowInput) (s : Surroundings) : FlowInput :=
  { input with fromZone := s.fromZone, toZone := s.toZone, context := requestMatchContext s.context }

theorem flowRules_within (idx : Index) (input : FlowInput) (s : Surroundings)
    (rules : List Rule) : flowRules idx (input.within s) rules = flowRules idx input rules := rfl

/-- **The loop over the rules stops at the first enabled rule that matches.** -/
theorem walkRules_find {idx : Index} {input : FlowInput} {s : Surroundings}
    (hfrom : input.fromZone = s.fromZone) (hto : input.toZone = s.toZone)
    (hctx : input.context = requestMatchContext s.context) : ∀ {rules : List Rule} (k : Nat),
    (∀ r ∈ rules, KnownRefs idx r) →
    ∃ hit trace, walkRules idx input (rules.zipIdx k) = .ok (hit, trace) ∧
      hit.map Prod.fst = (flowRules idx input rules).find? (admits · s) := by
  intro rules
  induction rules with
  | nil => exact fun k _ => ⟨none, [], rfl, rfl⟩
  | cons r rules ih =>
      intro k hknown
      obtain ⟨hit, trace, hwalk, hhit⟩ := ih (k + 1) fun r' hr' =>
        hknown r' (List.mem_cons_of_mem _ hr')
      obtain ⟨reason, hreason, hiff⟩ :=
        ruleMatches_of_known (hknown r List.mem_cons_self) hfrom hto hctx
      rw [List.zipIdx_cons]
      -- a rule that is skipped leaves the hit to the others
      have hskip : (r.disabled = true ∨ ∃ why, ruleMatches idx input r = .ok (some why)) →
          (flowRules idx input (r :: rules)).find? (admits · s) =
            (flowRules idx input rules).find? (admits · s) →
          ∃ hit trace, walkRules idx input ((r, k) :: rules.zipIdx (k + 1)) = .ok (hit, trace) ∧
            hit.map Prod.fst = (flowRules idx input (r :: rules)).find? (admits · s) := by
        intro hwhy hfind
        obtain ⟨trace', htrace⟩ := walkRules_skip (i := k) hwhy hwalk
        exact ⟨hit, trace', htrace, by rw [hfind, hhit]⟩
      cases hd : r.disabled with
      | true => exact hskip (.inl hd) (by simp [flowRules, hd])
      | false =>
          cases reason with
          | some why =>
              refine hskip (.inr ⟨why, hreason⟩) ?_
              have hno : ¬ (admits r s = true ∧ matchesFlow idx input r = true) := by
                rw [← hiff]
                simp
              cases hm : matchesFlow idx input r with
              | false => simp [flowRules, hm]
              | true =>
                  have ha : admits r s = false := by simpa [hm] using hno
                  simp [flowRules, hd, hm, ha]
          | none =>
              obtain ⟨ha, hm⟩ := hiff.mp rfl
              exact ⟨_, _, walkRules_hit hd hreason, by simp [flowRules, hd, hm, ha]⟩

/-! ### The verdict

The verdict of a request is that of the rule found, whatever else the explanation says. -/

/-- Without destination translations a flow is explained as it is asked. -/
theorem applyDNAT_nil {idx : Index} (h : idx.policy.getNat.destination = []) (input : FlowInput) :
    ∃ nat, applyDNAT idx input = .ok (nat, input) := by
  unfold applyDNAT
  rw [h]
  exact ⟨_, rfl⟩

/-- The first rule found does not depend on the ids of the rules. -/
theorem find?_flowRules_of_map {idx : Index} {input : FlowInput} {s : Surroundings}
    {rules rules' : List Rule}
    (h : (rules.map fun r => { r with id := "" }) = rules'.map fun r => { r with id := "" }) :
    ((flowRules idx input rules).find? (admits · s)).map Rule.action =
      ((flowRules idx input rules').find? (admits · s)).map Rule.action := by
  have hone : ∀ l : List Rule, ((flowRules idx input l).find? (admits · s)).map Rule.action =
      ((flowRules idx input (l.map fun r => { r with id := "" })).find? (admits · s)).map
        Rule.action := by
    intro l
    unfold flowRules
    rw [List.filter_map, List.find?_map, Option.map_map]
    rfl
  rw [hone rules, hone rules', h]

/-- The references of the rules are known, whatever their ids are. -/
theorem knownRefs_of_valid {H : IdentityHash} {p : Phragma.Policy}
    (hvalid : Validate (NormalizeRuleIDs H p).1 = []) {idx : Index} (hL : LookupOf p idx) {r : Rule}
    (hr : r ∈ p.rules ∨ r ∈ (normalizeIdentities H p).rules) : KnownRefs idx r := by
  have hL' : LookupOf (NormalizeRuleIDs H p).1 { idx with policy := (NormalizeRuleIDs H p).1 } :=
    ⟨rfl, hL.addresses, hL.services, hL.apps⟩
  have hnormal : ∀ r ∈ (normalizeIdentities H p).rules, KnownRefs idx r := by
    intro r hr
    have h := knownRefs_of_accepted (accepted_of_Validate hvalid) hL' (r := r) hr
    exact ⟨h.sources, h.destinations, h.services, h.applications⟩
  rcases hr with hr | hr
  · have hmap := normalizeIdentities_rules_map H p (f := fun r => { r with id := "" })
      fun _ _ => rfl
    have hmem := hmap ▸ List.mem_map_of_mem (f := fun r : Rule => { r with id := "" }) hr
    obtain ⟨r', hr', heq⟩ := List.mem_map.mp hmem
    have h := hnormal r' hr'
    have hr_eq : r = { r' with id := r.id } := by
      have := congrArg (fun x : Rule => { x with id := r.id }) heq
      exact this.symm
    rw [hr_eq]
    exact ⟨h.sources, h.destinations, h.services, h.applications⟩
  · exact hnormal r hr

/-- **Denied by the first rule.** On a policy that the validator accepts and that translates no
destinations, a flow is denied exactly when the first enabled rule that matches it denies. -/
theorem ExplainFlow_denied_iff {H : IdentityHash} {p : Phragma.Policy}
    (hvalid : Validate (NormalizeRuleIDs H p).1 = []) (hdnat : p.getNat.destination = [])
    {idx : Index} (hidx : newIndex p = .ok idx) {req : ExplainFlowRequest} {input : FlowInput}
    (hinput : parseInput req = .ok input) {s : Surroundings} (hfrom : input.fromZone = s.fromZone)
    (hto : input.toZone = s.toZone) (hctx : input.context = requestMatchContext s.context)
    (version : Nat) :
    ∃ resp, ExplainFlow H p req version = .ok resp ∧
      (resp.verdict = .denied ↔
        ((flowRules idx input p.rules).find? (admits · s)).map Rule.action = some .deny) := by
  have hL := lookupOf_of_newIndex hidx (accepted_of_Validate hvalid).address_cidr
  have hidx' : newIndex (normalizeIdentities H p) =
      .ok { idx with policy := normalizeIdentities H p } :=
    newIndex_congr (p := p) (q := normalizeIdentities H p) rfl rfl rfl rfl hidx
  -- normalization leaves the tables alone, so the index of the policy will do
  have hE : Extends idx { idx with policy := normalizeIdentities H p } :=
    ⟨fun _ _ h => h, rfl, fun _ _ h => h, by rw [hL.policy]; rfl⟩
  have hknown : ∀ r ∈ (normalizeIdentities H p).rules, KnownRefs idx r := fun r hr =>
    knownRefs_of_valid hvalid hL (.inr hr)
  have hknown' : ∀ r ∈ (normalizeIdentities H p).rules,
      KnownRefs { idx with policy := normalizeIdentities H p } r := by
    intro r hr
    have h := hknown r hr
    exact ⟨h.sources, h.destinations, h.services, h.applications⟩
  have hnone : (normalizeIdentities H p).getNat.destination = [] := by
    have hmap := normalizeIdentities_destination_map H p (f := fun _ => ()) fun _ _ => rfl
    rw [hdnat] at hmap
    simpa using hmap
  obtain ⟨nat, hnat⟩ : ∃ nat, applyDNAT { idx with policy := normalizeIdentities H p } input =
      .ok (nat, input) := applyDNAT_nil hnone input
  obtain ⟨hit, trace, hwalk, hhit⟩ := walkRules_find hfrom hto hctx 0 hknown'
  obtain ⟨resp, hresp, hverdict, -⟩ := ExplainFlow_of_hit version hinput hidx' hnat hwalk
  refine ⟨resp, hresp, ?_⟩
  have hrules := normalizeIdentities_rules_map H p (f := fun r => { r with id := "" })
    fun _ _ => rfl
  have hflow : flowRules { idx with policy := normalizeIdentities H p } input
      (normalizeIdentities H p).rules = flowRules idx input (normalizeIdentities H p).rules :=
    List.filter_congr fun r hr => by rw [matchesFlow_of_extends hE (hknown r hr)]
  have haction : hit.map (fun r => r.1.action) =
      ((flowRules idx input p.rules).find? (admits · s)).map Rule.action := by
    rw [← find?_flowRules_of_map hrules, ← hflow, ← hhit, Option.map_map]
    rfl
  rw [hverdict, ← haction]
  cases hit with
  | none => simp [hitVerdict]
  | some r => cases ha : r.1.action <;> simp [hitVerdict, verdictForAction, ha]

end Phragma.Explain
