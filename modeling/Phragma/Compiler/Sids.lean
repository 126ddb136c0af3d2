import Mathlib.Data.List.Nodup
import Phragma.Compiler.Applications

/-!
# Phragma.Compiler.Sids

**The signature ids of generated Suricata rules.** The controls of applications are numbered from
4200001 on and the rules of security profiles from 4300001 on, both in `uint32` and neither with
an upper limit. So the ids are pairwise different exactly when the first numbering does not reach
the second, and the second does not come round to the first (`generatedSids_nodup_iff`).
-/

namespace Phragma.Compiler

open Lib Go Policy

/-! ### Two numberings

Both are the numbers from a base on, modulo 2³². They meet as intervals on a circle do. -/

/-- The ids of so many rules, from a base on. -/
def sidsFrom (base n : Nat) : List Nat := (List.range n).map fun i => (base + (i + 1)) % 2 ^ 32

/-- **When the two numberings stay apart**, for so many controls and profile rules. -/
def SIDsFit (controls profileRules : Nat) : Prop :=
  (profileRules = 0 ∧ controls ≤ 2 ^ 32) ∨ (controls = 0 ∧ profileRules ≤ 2 ^ 32) ∨
    (controls ≤ securityProfileRuleSIDBase - appIDControlSIDBase ∧
      profileRules ≤ 2 ^ 32 - (securityProfileRuleSIDBase - appIDControlSIDBase))

instance (controls profileRules : Nat) : Decidable (SIDsFit controls profileRules) :=
  inferInstanceAs (Decidable (_ ∨ _ ∨ _))

/-- The ids of a numbering, one for each position. -/
theorem mem_sidsFrom {base n sid : Nat} :
    sid ∈ sidsFrom base n ↔ ∃ i < n, (base + (i + 1)) % 2 ^ 32 = sid := by
  simp [sidsFrom]

/-- A numbering repeats itself when it has come round. -/
theorem nodup_sidsFrom {base n : Nat} : (sidsFrom base n).Nodup ↔ n ≤ 2 ^ 32 := by
  constructor
  · intro h
    by_contra hlt
    have hinj := List.inj_on_of_nodup_map h
    have := hinj (List.mem_range.mpr (by omega : 0 < n))
      (List.mem_range.mpr (by omega : 2 ^ 32 < n))
      (by omega)
    omega
  · intro hle
    refine List.Nodup.map_on ?_ List.nodup_range
    intro i hi j hj hij
    rw [List.mem_range] at hi hj
    omega

/-- Together the ids are pairwise different exactly when the numberings fit. -/
theorem nodup_sids {n m : Nat} :
    (sidsFrom appIDControlSIDBase n ++ sidsFrom securityProfileRuleSIDBase m).Nodup ↔
      SIDsFit n m := by
  unfold SIDsFit
  rw [List.nodup_append, nodup_sidsFrom, nodup_sidsFrom]
  unfold appIDControlSIDBase securityProfileRuleSIDBase
  constructor
  · rintro ⟨hn, hm, hapart⟩
    by_cases hm0 : m = 0
    · exact .inl ⟨hm0, hn⟩
    by_cases hn0 : n = 0
    · exact .inr (.inl ⟨hn0, hm⟩)
    refine .inr (.inr ⟨?_, ?_⟩)
    -- the first profile rule has the id of the control behind the last one that fits
    · by_contra hlt
      exact hapart 4300001 (mem_sidsFrom.mpr ⟨100000, by omega, rfl⟩) 4300001
        (mem_sidsFrom.mpr ⟨0, by omega, rfl⟩) rfl
    -- the first control has the id of the profile rule that has come round
    · by_contra hlt
      exact hapart 4200001 (mem_sidsFrom.mpr ⟨0, by omega, rfl⟩) 4200001
        (mem_sidsFrom.mpr ⟨2 ^ 32 - 100000, by omega, rfl⟩) rfl
  · rintro (⟨rfl, hn⟩ | ⟨rfl, hm⟩ | ⟨hn, hm⟩)
    · exact ⟨hn, by omega, by simp [sidsFrom]⟩
    · exact ⟨by omega, hm, by simp [sidsFrom]⟩
    · refine ⟨by omega, by omega, ?_⟩
      intro sid hsid sid' hsid' heq
      obtain ⟨i, hi, rfl⟩ := mem_sidsFrom.mp hsid
      obtain ⟨j, hj, rfl⟩ := mem_sidsFrom.mp hsid'
      omega

/-! ### The generators

Both generators are `numberSIDs` of a list of rules that lack their id, so the ids depend on how
many there are and on nothing else. -/

/-- Generated rules that keep the id they are given are numbered from the base on. -/
theorem map_numberSIDs {β : Type} {sid : β → Nat} {mks : List (Nat → β)}
    (h : ∀ mk ∈ mks, ∀ n, sid (mk n) = n) (base : Nat) :
    (numberSIDs base (fun mk n => mk n) mks).map sid = sidsFrom base mks.length := by
  unfold numberSIDs sidsFrom
  rw [List.map_map, List.range_eq_range', ← List.zipIdx_map_snd 0 mks, List.map_map]
  refine List.map_congr_left fun r hr => ?_
  exact h r.1 (List.fst_mem_of_mem_zipIdx hr) _

/-- How many controls a compiled rule has. -/
def compiledControls (rule : RuleIR) : Nat :=
  if rule.action = .reject then 0
  else (rule.appIDSignals.map fun app => app.signals.length * max 1 rule.services.length).sum

/-- How many profile rules a compiled rule has. -/
def compiledProfileRules (profiles : List (String × SecurityProfile)) (rule : RuleIR) : Nat :=
  if rule.action ≠ .allow ∨ !rule.inspectionRequired then 0
  else (rule.securityProfiles.map fun ref =>
    ((profiles.lookup ref).elim [] securityProfileControls).length).sum

/-- The ids of the controls. -/
theorem compileAppIDControls_sids (rules : List RuleIR) (ids : Option IDsIR) :
    (compileAppIDControls rules ids).map AppIDControlIR.sid = sidsFrom appIDControlSIDBase
      (if enforcedInline ids then (rules.map compiledControls).sum else 0) := by
  unfold compileAppIDControls
  cases enforcedInline ids with
  | false => rfl
  | true =>
      simp only [Bool.not_true, Bool.false_eq_true, if_false, if_true]
      rw [map_numberSIDs]
      · congr 1
        rw [List.length_flatMap]
        congr 1
        refine List.map_congr_left fun rule _ => ?_
        unfold compiledControls
        split
        · rfl
        have hservices : (if rule.services.isEmpty then [⟨.any, []⟩]
            else rule.services).length = max 1 rule.services.length := by
          cases rule.services <;> simp
        simp only [List.length_flatMap, List.length_map, hservices, List.map_const',
          List.sum_replicate_nat]
      · intro mk hmk n
        obtain ⟨rule, -, hmk⟩ := List.mem_flatMap.mp hmk
        split at hmk
        · cases hmk
        obtain ⟨app, -, hmk⟩ := List.mem_flatMap.mp hmk
        obtain ⟨signal, -, hmk⟩ := List.mem_flatMap.mp hmk
        obtain ⟨service, -, rfl⟩ := List.mem_map.mp hmk
        rfl

/-- The ids of the profile rules. -/
theorem compileSecurityProfileRules_sids (rules : List RuleIR) (ids : Option IDsIR)
    (profiles : List (String × SecurityProfile)) :
    (compileSecurityProfileRules rules ids profiles).map SecurityProfileRuleIR.sid =
      sidsFrom securityProfileRuleSIDBase
        (if enforcedInline ids then (rules.map (compiledProfileRules profiles)).sum else 0) := by
  unfold compileSecurityProfileRules
  cases enforcedInline ids with
  | false => rfl
  | true =>
      simp only [Bool.not_true, Bool.false_eq_true, if_false, if_true]
      rw [map_numberSIDs]
      · congr 1
        rw [List.length_flatMap]
        congr 1
        refine List.map_congr_left fun rule _ => ?_
        unfold compiledProfileRules
        split
        · rfl
        simp only [List.length_flatMap, List.length_map]
      · intro mk hmk n
        obtain ⟨rule, -, hmk⟩ := List.mem_flatMap.mp hmk
        split at hmk
        · cases hmk
        obtain ⟨ref, -, hmk⟩ := List.mem_flatMap.mp hmk
        obtain ⟨control, -, rfl⟩ := List.mem_map.mp hmk
        rfl

/-! ### What the policy makes of them

How many rules are generated can be counted on the policy, without compiling it. -/

/-- Are generated rules enforced? Intrusion prevention is on and does not fail open. -/
def idsEnforced (ids : Ids) : Bool :=
  ids.enabled && ids.mode == .prevent && ids.failureBehavior != .failOpen

/-- How many signals of the application of a name reach Suricata. -/
def signalCount (p : Phragma.Policy) (ref : String) : Nat :=
  ((tableOf Application.name id p.applications).lookup ref).elim 0 fun app =>
    (supportedAppIDSignals app.engineSignals).length

/-- How many services the hints of the application of a name give. -/
def hintCount (p : Phragma.Policy) (ref : String) : Nat :=
  ((tableOf Application.name id p.applications).lookup ref).elim 0 fun app =>
    (applicationServiceMatches app).length

/-- How many services a rule is about: those it names, and the hints of its applications. -/
def serviceCount (p : Phragma.Policy) (r : Rule) : Nat :=
  (if Any ∈ r.services then 0 else r.services.length) +
    ((leadingRefs r.applications).map (hintCount p)).sum

/-- How many App-ID controls a rule gives: one for each signal of each of its applications and
each of its services. -/
def controlCount (p : Phragma.Policy) (r : Rule) : Nat :=
  if r.action = .reject then 0
  else
    ((leadingRefs r.applications).map fun ref =>
      signalCount p ref * max 1 (serviceCount p r)).sum

/-- How many controls the security profile of a name has. -/
def profileCount (p : Phragma.Policy) (ref : String) : Nat :=
  (((tableOf SecurityProfile.name id p.securityProfiles).lookup ref).elim []
    securityProfileControls).length

/-- How many security profile rules a rule gives: one for each control of its profiles. -/
def profileRuleCount (p : Phragma.Policy) (r : Rule) : Nat :=
  if r.action ≠ .allow then 0 else (r.securityProfiles.map (profileCount p)).sum

/-- A total over the enabled rules, once generated rules are enforced. -/
def enforcedTotal (count : Phragma.Policy → Rule → Nat) (p : Phragma.Policy) : Nat :=
  if idsEnforced p.getIds then
    ((p.rules.filter fun r => !r.disabled).map (count p)).sum
  else 0

/-- How many App-ID controls a policy gives. -/
def appIDControlCount : Phragma.Policy → Nat := enforcedTotal controlCount

/-- How many security profile rules a policy gives. -/
def securityProfileRuleCount : Phragma.Policy → Nat := enforcedTotal profileRuleCount

/-- The mode that the compiled rules are subject to is that of the policy. -/
theorem enforcedInline_of_compileIDs {p : Phragma.Policy} {addrs : List (String × Prefix)}
    {ids : Option IDsIR} (h : compileIDs p addrs = .ok ids) :
    enforcedInline ids = idsEnforced p.getIds := by
  unfold idsEnforced
  cases ids with
  | none => simp [enforcedInline, compileIDs_none h]
  | some ids =>
      obtain ⟨henabled, hprevent, hopen, -⟩ := compileIDs_ok h
      simp only [enforcedInline, hprevent, hopen, henabled, Bool.true_and]
      cases p.getIds.mode == .prevent <;> simp [bne]

/-- A sum of sums. -/
theorem sum_flatMap {α : Type} (f : α → List Nat) (as : List α) :
    (as.flatMap f).sum = (as.map fun a => (f a).sum).sum := by
  induction as with
  | nil => rfl
  | cons a as ih => rw [List.flatMap_cons, List.sum_append_nat, ih, List.map_cons, List.sum_cons]

section Rules

variable {p : Phragma.Policy} {c : Compilation} {ir : IR}

/-- The controls of a compiled rule, counted on the rule. -/
theorem compiledControls_eq (hT : TablesOf p c) {r : Rule} {rule : RuleIR}
    (h : compileRule c r = .ok rule) : compiledControls rule = controlCount p r := by
  obtain ⟨services, hsvc, hservices, hsignals, -⟩ := services_of_compileRule h
  obtain ⟨-, -, -, -, -, haction, -⟩ := compileRule_ok h
  have hreject : rule.action = .reject ↔ r.action = .reject := by
    cases ha : r.action <;> simp [actionFromProto, ha] at haction <;> simp [← haction]
  -- every service that is named gives one match
  have hnamed : services.length = if Any ∈ r.services then 0 else r.services.length := by
    rcases resolveRefs_ok hsvc with ⟨hany, rfl⟩ | ⟨hany, hall, rfl⟩
    · simp [hany]
    · rw [if_neg hany, List.nil_append, List.length_flatMap]
      rw [List.map_congr_left (g := fun _ => 1)]
      · simp
      · intro ref href
        have hsome := hall ref href
        cases hl : c.svcs.lookup ref <;> simp [hl] at hsome ⊢
  -- and so does every hint
  have hcount : rule.services.length = serviceCount p r := by
    rw [hservices, List.length_append, hnamed, List.length_flatMap]
    unfold serviceCount
    congr 2
    refine List.map_congr_left fun ref _ => ?_
    unfold hintedServices hintCount
    rw [hT.apps]
    cases (tableOf Application.name id p.applications).lookup ref <;> rfl
  unfold compiledControls controlCount
  simp only [hreject, hcount, hsignals]
  split
  · rfl
  rw [List.map_flatMap, sum_flatMap]
  congr 1
  refine List.map_congr_left fun ref _ => ?_
  unfold signalEntry signalCount
  rw [hT.apps]
  cases (tableOf Application.name id p.applications).lookup ref with
  | none => simp
  | some app =>
      simp only [Option.elim_some]
      split
      · rename_i hnone
        rw [List.isEmpty_iff.mp hnone]
        simp
      · simp

/-- A profile that requires no inspection has no controls. -/
theorem securityProfileControls_eq_nil {profile : SecurityProfile}
    (h : securityProfileRequiresInlineInspection profile = false) :
    securityProfileControls profile = [] := by
  simp only [securityProfileRequiresInlineInspection, Bool.or_eq_false_iff, beq_eq_false_iff_ne,
    Bool.not_eq_false', List.isEmpty_iff] at h
  obtain ⟨⟨⟨⟨htls, hurl⟩, hdns⟩, hexecutables⟩, hrisk⟩ := h
  simp only [securityProfileControls, htls, hurl, hdns, if_false, List.map_nil, List.append_nil]

/-- Profiles that require no inspection have no controls, so leaving them out changes no count. -/
theorem compileSecurityProfiles_sum {rule : String} : ∀ {refs out : List String},
    compileSecurityProfiles c rule refs = .ok out →
      (out.map fun ref => ((c.securityProfiles.lookup ref).elim [] securityProfileControls).length).sum =
        (refs.map fun ref =>
          ((c.securityProfiles.lookup ref).elim [] securityProfileControls).length).sum := by
  intro refs out h
  unfold compileSecurityProfiles at h
  obtain ⟨required, hrequired, hout⟩ := bind_ok.mp h
  cases hout
  have hrel := mapM_ok.mp hrequired
  clear h hrequired
  induction hrel with
  | nil => rfl
  | @cons ref isRequired refs required hentry _ ih =>
      rw [List.zip_cons_cons, List.filterMap_cons, List.map_cons, List.sum_cons, ← ih]
      cases isRequired with
      | true => simp
      | false =>
          cases hl : c.securityProfiles.lookup ref with
          | none => simp
          | some profile =>
              rw [hl] at hentry
              simp [securityProfileControls_eq_nil (Except.ok.inj hentry)]

/-- The profiles of a compiled rule, and whether it requires inspection. -/
theorem securityProfiles_of_compileRule {r : Rule} {rule : RuleIR}
    (h : compileRule c r = .ok rule) :
    compileSecurityProfiles c r.name r.securityProfiles = .ok rule.securityProfiles ∧
      rule.inspectionRequired = !rule.securityProfiles.isEmpty := by
  unfold compileRule at h
  obtain ⟨fromIfaces, -, h⟩ := bind_ok.mp h
  obtain ⟨toIfaces, -, h⟩ := bind_ok.mp h
  obtain ⟨srcPrefixes, -, h⟩ := bind_ok.mp h
  obtain ⟨dstPrefixes, -, h⟩ := bind_ok.mp h
  obtain ⟨services, -, h⟩ := bind_ok.mp h
  obtain ⟨apps, -, h⟩ := bind_ok.mp h
  obtain ⟨profiles, hprofiles, h⟩ := bind_ok.mp h
  obtain ⟨qosProfile, -, h⟩ := bind_ok.mp h
  obtain ⟨action, -, h⟩ := bind_ok.mp h
  cases h
  exact ⟨hprofiles, rfl⟩

/-- The profile rules of a compiled rule, counted on the rule. -/
theorem compiledProfileRules_eq (hT : TablesOf p c) {r : Rule} {rule : RuleIR}
    (h : compileRule c r = .ok rule) :
    compiledProfileRules c.securityProfiles rule = profileRuleCount p r := by
  obtain ⟨hprofiles, hinspect⟩ := securityProfiles_of_compileRule h
  obtain ⟨-, -, -, -, -, haction, -⟩ := compileRule_ok h
  have hallow : rule.action = .allow ↔ r.action = .allow := by
    cases ha : r.action <;> simp [actionFromProto, ha] at haction <;> simp [← haction]
  have hsum := compileSecurityProfiles_sum hprofiles
  unfold compiledProfileRules profileRuleCount profileCount
  rw [← hT.securityProfiles, ← hsum, hinspect]
  by_cases h : r.action = .allow
  · cases hnil : rule.securityProfiles <;> simp [hallow, h]
  · simp [hallow, h]

/-- Counted rule by rule, the total of the compiled rules is that of the policy. -/
theorem enforcedTotal_eq (hC : Compiled p c ir) {compiledCount : RuleIR → Nat}
    {count : Phragma.Policy → Rule → Nat}
    (h : ∀ {r rule}, compileRule c r = .ok rule → compiledCount rule = count p r) :
    (if enforcedInline ir.ids then (ir.rules.map compiledCount).sum else 0) =
      enforcedTotal count p := by
  have hmap : (p.rules.filter fun r => !r.disabled).map (count p) =
      ir.rules.map compiledCount := by
    rw [← List.forall₂_eq_eq_eq, List.forall₂_map_left_iff, List.forall₂_map_right_iff]
    exact hC.rules.imp fun r rule hrule => (h hrule).symm
  unfold enforcedTotal
  rw [enforcedInline_of_compileIDs hC.ids, hmap]

end Rules

/-- Normalization changes ids only. -/
theorem enforcedTotal_normalizeIdentities (H : IdentityHash) (p : Phragma.Policy)
    {count : Phragma.Policy → Rule → Nat} (hid : ∀ q r id, count q { r with id } = count q r)
    (hcount : count (normalizeIdentities H p) = count p) :
    enforcedTotal count (normalizeIdentities H p) = enforcedTotal count p := by
  have hrules : ∀ rules : List Rule, ((rules.filter fun r => !r.disabled).map (count p)).sum =
      (rules.map fun r => if !r.disabled then count p r else 0).sum := by
    intro rules
    induction rules with
    | nil => rfl
    | cons r rules ih => cases hd : r.disabled <;> simp [hd, ih]
  unfold enforcedTotal
  rw [hcount, hrules, hrules, normalizeIdentities_rules_map H p fun r id => by rw [hid]]
  rfl

/-- The ids of everything generated, by how much is generated. -/
theorem generatedSids_eq {H : IdentityHash} {p : Phragma.Policy} {ir : IR}
    (h : Compile H p = .ok ir) :
    ir.appIDControls.map AppIDControlIR.sid ++
        ir.securityProfileRules.map SecurityProfileRuleIR.sid =
      sidsFrom appIDControlSIDBase (appIDControlCount p) ++
        sidsFrom securityProfileRuleSIDBase (securityProfileRuleCount p) := by
  obtain ⟨c, hC, -, hprofileRules⟩ := generated_of_Compile h
  have hcontrols := enforcedTotal_eq hC fun hrule => compiledControls_eq hC.toTablesOf hrule
  have hprofiles := enforcedTotal_eq hC fun hrule => compiledProfileRules_eq hC.toTablesOf hrule
  rw [hC.controls, hprofileRules, compileAppIDControls_sids, compileSecurityProfileRules_sids,
    hcontrols, hprofiles, enforcedTotal_normalizeIdentities H p (fun _ _ _ => rfl) rfl,
    enforcedTotal_normalizeIdentities H p (fun _ _ _ => rfl) rfl]
  rfl

/-- **Generated signature ids are pairwise different exactly when the two numberings fit.** -/
theorem generatedSids_nodup_iff {H : IdentityHash} {p : Phragma.Policy} {ir : IR}
    (h : Compile H p = .ok ir) :
    (ir.appIDControls.map AppIDControlIR.sid ++
        ir.securityProfileRules.map SecurityProfileRuleIR.sid).Nodup ↔
      SIDsFit (appIDControlCount p) (securityProfileRuleCount p) := by
  rw [generatedSids_eq h]
  exact nodup_sids

/-! ### A rule over many applications

A rule may name one application any number of times, and each time gives the controls anew. So the
first numbering reaches the second with a policy of a few objects. -/

/-- One rule that names an application so many times, with a profile that has one control. -/
def repeatedApplication (n : Nat) : Phragma.Policy where
  zones := [{ name := "lan", interfaces := ["eth0"] }]
  applications := [{
    name := "web", category := "web", engineSignals := ["http"]
    ports := [{ protocol := .tcp, ports := [⟨80, 0⟩] }] }]
  securityProfiles := [{ name := "strict", dnsSecurity := .blockMalicious }]
  rules := [{
    id := "r1", name := "web", applications := List.replicate n "web"
    securityProfiles := ["strict"], action := .allow }]
  ids := some { enabled := true, mode := .prevent, failureBehavior := .failClosed }

example : appIDControlCount (repeatedApplication 2) = 4 ∧
    securityProfileRuleCount (repeatedApplication 2) = 1 := by decide

/-- With the application named twice, all ids are different. -/
theorem generatedSids_repeatedApplication : ∃ ir, Compile .zero (repeatedApplication 2) = .ok ir ∧
    ((ir.appIDControls.map AppIDControlIR.sid ++
        ir.securityProfileRules.map SecurityProfileRuleIR.sid).Nodup ↔ SIDsFit 4 1) := by
  have hok : (Compile .zero (repeatedApplication 2)).isOk = true := by decide +kernel
  cases h : Compile .zero (repeatedApplication 2) with
  | error e => simp [h, Except.isOk, Except.toBool] at hok
  | ok ir => exact ⟨ir, rfl, generatedSids_nodup_iff h⟩

/-- With the application named 317 times, the controls reach the id of the profile rule. -/
theorem generatedSids_clash : ∃ ir, Compile .zero (repeatedApplication 317) = .ok ir ∧
    ¬ (ir.appIDControls.map AppIDControlIR.sid ++
        ir.securityProfileRules.map SecurityProfileRuleIR.sid).Nodup := by
  have hok : (Compile .zero (repeatedApplication 317)).isOk = true := by decide +kernel
  have hcontrols : appIDControlCount (repeatedApplication 317) = 100489 := by decide +kernel
  have hprofileRules : securityProfileRuleCount (repeatedApplication 317) = 1 := by decide +kernel
  cases h : Compile .zero (repeatedApplication 317) with
  | error e => simp [h, Except.isOk, Except.toBool] at hok
  | ok ir =>
      refine ⟨ir, rfl, ?_⟩
      rw [generatedSids_eq h, hcontrols, hprofileRules, nodup_sids]
      decide

end Phragma.Compiler
