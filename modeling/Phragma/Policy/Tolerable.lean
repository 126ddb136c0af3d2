import Phragma.Policy.Risk

/-!
# Phragma.Policy.Tolerable

**What a change may do without being of high risk.** Only high risk has to be acknowledged before
a policy is applied, so `Tolerable` is what the running policy and its successor have in common
whenever nobody acknowledged anything. `risk_high_iff` derives it from the grades, item by item,
for policies that the validator accepts. `Steady` is what of it survives any number of such changes.

The grades treat a blocking rule that is gone otherwise than one that is switched off
(`blocking_rule_changed`).
-/

namespace Phragma.Policy

open Lib Go

/-! ### Rules -/

/-- What a modification of a rule may do. -/
structure TolerableChange (before after : Rule) : Prop where
  allowing : allow before = true → allow after = true
  blocking : active before = false → active after = true → block after = false
  broad : allow before = false → allow after = true → broadRule after = false

/-- What changes of the rules may do. -/
structure TolerableRules (before after : List Rule) : Prop where
  kept : ∀ r ∈ before, active r = true → block r = true → ∃ r' ∈ after, r'.id = r.id
  modified : ∀ r ∈ before, ∀ r' ∈ after, r'.id = r.id → r ≠ r' → TolerableChange r r'
  broad : ∀ r ∈ after, active r = true → allow r = true → broadRule r = false

theorem block_eq_false_of_allow {r : Rule} (h : allow r = true) : block r = false := by
  have haction : r.action = .allow := by simpa [allow] using h
  simp [block, haction]

theorem rank_added_lt_three {r : Rule} {i : Nat} : (ruleItem (.added r i)).risk.rank < 3 ↔
    (active r = true → allow r = true → broadRule r = false) := by
  simp only [ruleItem]
  cases active r <;> cases allow r <;> cases block r <;> cases broadRule r <;>
    simp [ChangeRisk.rank]

theorem rank_removed_lt_three {r : Rule} {i : Nat} : (ruleItem (.removed r i)).risk.rank < 3 ↔
    ¬ (active r = true ∧ block r = true) := by
  simp only [ruleItem]
  cases active r <;> cases allow r <;> cases block r <;> simp [ChangeRisk.rank]

theorem rank_modified_lt_three {b a : Rule} {i : Nat} :
    (ruleItem (.modified b a i)).risk.rank < 3 ↔
      TolerableChange b a ∧ (active b = false → active a = true → allow a = true →
        broadRule a = false) := by
  have hchange : TolerableChange b a ↔ (allow b = true → allow a = true) ∧
      (active b = false → active a = true → block a = false) ∧
      (allow b = false → allow a = true → broadRule a = false) :=
    ⟨fun h => ⟨h.1, h.2, h.3⟩, fun h => ⟨h.1, h.2.1, h.2.2⟩⟩
  have hexclusive : allow a = true → block a = false := block_eq_false_of_allow
  rw [hchange]
  simp only [ruleItem]
  revert hexclusive
  cases active b <;> cases active a <;> cases allow b <;> cases allow a <;> cases block a <;>
    cases broadRule a <;> simp [ChangeRisk.rank]

theorem below_three_hygieneItems {rules : List Rule} : Below 3 (hygieneItems rules) ↔
    ∀ r ∈ rules, active r = true → allow r = true → broadRule r = false := by
  constructor
  · intro h r hr hactive hallow
    by_contra hbroad
    rw [Bool.not_eq_false] at hbroad
    obtain ⟨i, hi⟩ := List.mem_iff_getElem?.mp hr
    have hmem := h _ (List.mem_append_right _ (List.mem_filterMap.mpr ⟨(r, i),
      List.mk_mem_zipIdx_iff_getElem?.mpr hi, by simp [hactive, hallow, hbroad]; rfl⟩))
    exact absurd hmem (Nat.lt_irrefl 3)
  · intro h item hitem
    rcases List.mem_append.mp hitem with hitem | hitem
    · obtain ⟨⟨i, j⟩, -, rfl⟩ := List.mem_map.mp hitem
      exact Nat.lt_succ_self 2
    · obtain ⟨⟨r, i⟩, hr, hx⟩ := List.mem_filterMap.mp hitem
      have hmem := List.fst_mem_of_mem_zipIdx hr
      dsimp only at hx
      split at hx
      · next hall =>
          simp only [Bool.and_eq_true] at hall
          rw [h r hmem hall.1.1 hall.1.2] at hall
          exact absurd hall.2 Bool.false_ne_true
      · cases hx

section Rules

variable {o : MapOrders}

theorem ruleName_eq_iff {r r' : Rule} : ruleName r = ruleName r' ↔ r.id = r'.id :=
  ⟨fun h => append_left_injective "id:" h, fun h => congrArg ("id:" ++ ·) h⟩

theorem ruleName_mem_map {r : Rule} {rules : List Rule} :
    ruleName r ∈ rules.map ruleName ↔ ∃ r' ∈ rules, r'.id = r.id := by
  simp only [List.mem_map, ruleName_eq_iff]

theorem below_ruleItems {n : Nat} {before after : List Rule}
    (hb : KeyedBy ruleKey ruleName before) (ha : KeyedBy ruleKey ruleName after) :
    Below n ((changes o ruleKey before after).map ruleItem) ↔
      ∀ c : Change Rule, c.Holds ruleName before after → (ruleItem c).risk.rank < n := by
  simp only [Below, List.mem_map, forall_exists_index, and_imp, forall_apply_eq_imp_iff₂,
    mem_changes_iff hb ha]

/-- The grades of the rules' changes, from the keys of the two lists. -/
theorem below_three_ruleItems {before after : List Rule} (hb : KeyedBy ruleKey ruleName before)
    (ha : KeyedBy ruleKey ruleName after) :
    Below 3 ((changes o ruleKey before after).map ruleItem) ∧
        Below 3 (hygieneItems after) ↔ TolerableRules before after := by
  rw [below_ruleItems hb ha, below_three_hygieneItems]
  constructor
  · rintro ⟨hitems, hbroad⟩
    refine ⟨fun r hr hactive hblock => ?_, fun r hr r' hr' hid hne => ?_, hbroad⟩
    · obtain ⟨i, hi⟩ := List.mem_iff_getElem?.mp hr
      by_contra hgone
      have hlt := hitems (.removed r i) ⟨hi, fun hmem => hgone (ruleName_mem_map.mp hmem)⟩
      exact rank_removed_lt_three.mp hlt ⟨hactive, hblock⟩
    · obtain ⟨i, hi⟩ := List.mem_iff_getElem?.mp hr'
      have hlt := hitems (.modified r r' i) ⟨hi, hr, ruleName_eq_iff.mpr hid.symm, hne⟩
      exact (rank_modified_lt_three.mp hlt).1
  · intro h
    refine ⟨fun c hholds => ?_, h.broad⟩
    cases c with
    | added r i =>
        exact rank_added_lt_three.mpr (h.broad r (List.mem_of_getElem? hholds.1))
    | modified b a i =>
        obtain ⟨hget, hmem, hname, hne⟩ := hholds
        have hmema := List.mem_of_getElem? hget
        exact rank_modified_lt_three.mpr ⟨h.modified b hmem a hmema
          (ruleName_eq_iff.mp hname).symm hne, fun _ => h.broad a hmema⟩
    | removed r i =>
        refine rank_removed_lt_three.mpr fun hboth => hholds.2 (ruleName_mem_map.mpr ?_)
        exact h.kept r (List.mem_of_getElem? hholds.1) hboth.1 hboth.2

end Rules

/-! ### All sections -/

/-- What changes of the security profiles may do: the one a change shows asks for no decryption. -/
def TolerableProfiles (before after : List SecurityProfile) : Prop :=
  ∀ c : Change SecurityProfile, c.Holds (fun s => objectName (SecurityProfile.name s)) before after →
    c.shown.tlsInspection ≠ .decryptionRequired

/-- **What a change of the policy may do without being of high risk.** -/
structure Tolerable (p q : Phragma.Policy) : Prop where
  rules : TolerableRules p.rules q.rules
  zones : p.zones.Perm q.zones
  zoneProtectionProfiles : p.zoneProtectionProfiles.Perm q.zoneProtectionProfiles
  securityProfiles : TolerableProfiles p.securityProfiles q.securityProfiles
  nat : p.nat = q.nat
  staticRoutes : p.staticRoutes = q.staticRoutes
  routing : p.routing = q.routing
  vpn : p.vpn = q.vpn
  network : p.network = q.network
  hostInput : p.hostInput = q.hostInput
  ids : p.ids ≠ q.ids → ¬ (p.getIds.enabled = true ∧ q.getIds.enabled = false) ∧
    ¬ (q.getIds.enabled = true ∧ q.getIds.mode = .prevent)
  intel : p.intel ≠ q.intel → intelFeedDisabled (p.intel.getD {}) (q.intel.getD {}) = false

section All

variable {orders : String → MapOrders} {running candidate : Phragma.Policy}
  (hr : Validate running = []) (hc : Validate candidate = [])

include hr hc

theorem below_three_securityProfiles {orders : MapOrders} :
    Below 3 (objectItems orders SecurityProfile.name "security profile" "security profile"
      securityProfileGrade running.securityProfiles candidate.securityProfiles) ↔
      TolerableProfiles running.securityProfiles candidate.securityProfiles := by
  have hkr := (accepted_of_Validate hr).securityProfiles.keyed
  have hkc := (accepted_of_Validate hc).securityProfiles.keyed
  have hgrade : ∀ profile : SecurityProfile, (securityProfileGrade profile).1.rank < 3 ↔
      profile.tlsInspection ≠ .decryptionRequired := by
    intro profile
    unfold securityProfileGrade
    split
    · next h => exact iff_of_false (Nat.lt_irrefl 3) (not_not.mpr h)
    · next h => exact iff_of_true (Nat.lt_succ_self 2) h
  rw [below_objectItems]
  simp only [hgrade, mem_changes_iff hkr hkc]
  rfl

/-- **The risk is high** exactly when the change does more than a change may do without being of
high risk. -/
theorem risk_high_iff : (Impact orders running candidate).risk = .high ↔
    ¬ Tolerable running candidate := by
  have hA := accepted_of_Validate hr
  have hA' := accepted_of_Validate hc
  obtain ⟨hoffload, hinterfaces⟩ := no_offload_conflict hc
  have hrules := below_three_ruleItems (o := orders "rules") (ruleKey_keyed hr)
    (ruleKey_keyed hc)
  have hmedium : ¬ 3 ≤ ChangeRisk.medium.rank := by decide
  have hhigh : 3 ≤ ChangeRisk.high.rank := Nat.le_refl 3
  have hlow : ¬ 3 ≤ ChangeRisk.low.rank := by decide
  have hintel : ∀ b : Bool, 3 ≤ (if b then ChangeRisk.high else ChangeRisk.medium).rank ↔ b = true :=
    fun b => by cases b <;> simp [ChangeRisk.rank]
  rw [Impact_high_iff, not_iff_not]
  -- each part of the impact is below three exactly when its part of `Tolerable` holds
  unfold impactItems
  simp only [below_append, below_itemIf, hoffload, hinterfaces,
    below_objectItems_const hA.zoneKeyed hA'.zoneKeyed,
    below_objectItems_const hA.addressKeyed hA'.addressKeyed,
    below_objectItems_const hA.services.keyed hA'.services.keyed,
    below_objectItems_const hA.applications.keyed hA'.applications.keyed,
    below_three_securityProfiles hr hc,
    below_objectItems_const hA.qosProfiles.keyed hA'.qosProfiles.keyed,
    below_objectItems_const hA.zoneProtections.keyed hA'.zoneProtections.keyed,
    below_networkItems (Nat.le_refl 3), below_hostInputItems (Nat.le_refl 3),
    below_idsItems_three, hmedium, hhigh, hlow, hintel, forall_const, false_implies,
    bne_eq_false_iff_eq, and_assoc, and_true]
  constructor
  · rintro ⟨hitems, hhygiene, hzones, hprofiles, hprotections, hnat, hroutes, hrouting, hvpn,
      hnetwork, hhost, hids, hfeeds⟩
    refine ⟨hrules.mp ⟨hitems, hhygiene⟩, hzones, hprotections, hprofiles, hnat, hroutes, hrouting,
      hvpn, hnetwork, hhost, hids, fun hne => ?_⟩
    by_contra hdisabled
    exact hne (hfeeds (by simpa using hdisabled))
  · intro h
    obtain ⟨hitems, hhygiene⟩ := hrules.mpr h.rules
    refine ⟨hitems, hhygiene, h.zones, h.securityProfiles, h.zoneProtectionProfiles, h.nat,
      h.staticRoutes, h.routing, h.vpn, h.network, h.hostInput, h.ids, fun hdisabled => ?_⟩
    by_contra hne
    rw [h.intel hne] at hdisabled
    cases hdisabled

end All

/-! ### What stays

A change that may be made without an acknowledgement can be followed by another one, so what lasts
is only what every such change keeps. -/

/-- No rule that is in force allows anything from anywhere to anywhere. -/
def NoBroadAllow (rules : List Rule) : Prop :=
  ∀ r ∈ rules, active r = true → allow r = true → broadRule r = false

/-- **What no number of changes that are not of high risk undoes**, from a first policy to a
last one. -/
structure Steady (p q : Phragma.Policy) : Prop where
  zones : p.zones.Perm q.zones
  zoneProtectionProfiles : p.zoneProtectionProfiles.Perm q.zoneProtectionProfiles
  nat : p.nat = q.nat
  staticRoutes : p.staticRoutes = q.staticRoutes
  routing : p.routing = q.routing
  vpn : p.vpn = q.vpn
  network : p.network = q.network
  hostInput : p.hostInput = q.hostInput
  narrow : NoBroadAllow p.rules → NoBroadAllow q.rules
  decryption : ∀ s ∈ q.securityProfiles, s.tlsInspection = .decryptionRequired →
    s ∈ p.securityProfiles
  inspection : p.getIds.enabled = true → q.getIds.enabled = true
  prevention : q.getIds.enabled = true ∧ q.getIds.mode = .prevent → p.ids = q.ids

theorem Steady.refl (p : Phragma.Policy) : Steady p p where
  zones := .refl _
  zoneProtectionProfiles := .refl _
  nat := rfl
  staticRoutes := rfl
  routing := rfl
  vpn := rfl
  network := rfl
  hostInput := rfl
  narrow := id
  decryption := fun _ h _ => h
  inspection := id
  prevention := fun _ => rfl

theorem Steady.trans {p q r : Phragma.Policy} (hpq : Steady p q) (hqr : Steady q r) :
    Steady p r where
  zones := hpq.zones.trans hqr.zones
  zoneProtectionProfiles := hpq.zoneProtectionProfiles.trans hqr.zoneProtectionProfiles
  nat := hpq.nat.trans hqr.nat
  staticRoutes := hpq.staticRoutes.trans hqr.staticRoutes
  routing := hpq.routing.trans hqr.routing
  vpn := hpq.vpn.trans hqr.vpn
  network := hpq.network.trans hqr.network
  hostInput := hpq.hostInput.trans hqr.hostInput
  narrow := hqr.narrow ∘ hpq.narrow
  decryption := fun s hs hreq => hpq.decryption s (hqr.decryption s hs hreq) hreq
  inspection := hqr.inspection ∘ hpq.inspection
  prevention := by
    intro h
    have hq := hqr.prevention h
    have hids : q.getIds = r.getIds := by
      unfold Policy.getIds
      rw [hq]
    exact (hpq.prevention (hids ▸ h)).trans hq

/-- A profile that asks for decryption was there before. -/
theorem decryption_of_tolerableProfiles {before after : List SecurityProfile}
    (h : TolerableProfiles before after) {s : SecurityProfile} (hs : s ∈ after)
    (hreq : s.tlsInspection = .decryptionRequired) : s ∈ before := by
  obtain ⟨i, hi⟩ := List.mem_iff_getElem?.mp hs
  by_contra hnew
  by_cases hname : objectName s.name ∈ before.map fun s => objectName (SecurityProfile.name s)
  · obtain ⟨b, hb, hbs⟩ := List.mem_map.mp hname
    have hne : b ≠ s := by
      rintro rfl
      exact hnew hb
    exact h (.modified b s i) ⟨hi, hb, hbs, hne⟩ hreq
  · exact h (.added s i) ⟨hi, hname⟩ hreq

theorem Tolerable.steady {p q : Phragma.Policy} (h : Tolerable p q) : Steady p q where
  zones := h.zones
  zoneProtectionProfiles := h.zoneProtectionProfiles
  nat := h.nat
  staticRoutes := h.staticRoutes
  routing := h.routing
  vpn := h.vpn
  network := h.network
  hostInput := h.hostInput
  narrow := fun _ => h.rules.broad
  decryption := fun _ hs hreq => decryption_of_tolerableProfiles h.securityProfiles hs hreq
  inspection := by
    intro hon
    by_cases hids : p.ids = q.ids
    · unfold Policy.getIds at hon ⊢
      rw [← hids]
      exact hon
    · have hoff := (h.ids hids).1
      rw [not_and, Bool.not_eq_false] at hoff
      exact hoff hon
  prevention := fun hprevent => by
    by_contra hids
    exact (h.ids hids).2 hprevent

/-- A change that is not of high risk leaves the translation and host-input rules as they are,
so what it leads to from a normalized policy is normalized. -/
theorem normalizeIdentities_of_tolerable (H : IdentityHash) {p q : Phragma.Policy}
    (hp : normalizeIdentities H p = p) (hq : Validate q = []) (h : Tolerable p q) :
    normalizeIdentities H q = q := by
  have hpItems : (NormalizePolicyItemIDs H p).1 = p := by
    have hidem := NormalizePolicyItemIDs_idem H (NormalizeRuleIDs H p).1
    change (NormalizePolicyItemIDs H (normalizeIdentities H p)).1 = normalizeIdentities H p at hidem
    rwa [hp] at hidem
  have hsame : normalizeHostInput H q = normalizeHostInput H p := by
    unfold normalizeHostInput
    rw [h.hostInput]
  have hhost : (normalizeHostInput H q).1 = q.hostInput := by
    rw [hsame, ← h.hostInput]
    exact congrArg Policy.hostInput hpItems
  have hnat : (normalizeNat H (normalizeHostInput H q).2.seen q.nat).1 = q.nat := by
    rw [hsame, ← h.nat]
    exact congrArg Policy.nat hpItems
  rw [normalizeIdentities, NormalizeRuleIDs_of_accepted H hq, NormalizePolicyItemIDs]
  dsimp only
  rw [hhost, hnat]

/-! ### Blocking rules

To remove a rule that blocks is of high risk; to switch it off is a modification, and graded as
one. -/

/-- The policy in which a rule stands for the one of its id. -/
def replaceRule (p : Phragma.Policy) (r' : Rule) : Phragma.Policy :=
  { p with rules := p.rules.map fun r => if r.id = r'.id then r' else r }

section Blocking

variable {orders : String → MapOrders} {running candidate : Phragma.Policy}

/-- What the grades of the rules add to those of the other sections. -/
theorem below_three_impactItems (hc : Validate candidate = []) (rules : List Rule) :
    Below 3 (impactItems orders { running with rules } candidate) ↔
      Below 3 ((changes (orders "rules") ruleKey rules candidate.rules).map ruleItem) ∧
      Below 3 (impactItems orders { running with rules := candidate.rules } candidate) := by
  have hkc := ruleKey_keyed hc
  have hsame : changes (orders "rules") ruleKey candidate.rules candidate.rules = [] :=
    (changes_eq_nil_iff hkc hkc).mpr (.refl _)
  have hmedium : ¬ 3 ≤ ChangeRisk.medium.rank := by decide
  unfold impactItems
  simp only [below_append, below_itemIf, hmedium, false_implies, hsame, List.map_nil, below_nil,
    true_and, and_true, and_assoc]
  rfl

variable (hr : Validate running = []) (hc : Validate candidate = []) {r r' : Rule}
  (hmem : r ∈ running.rules) (hmem' : r' ∈ candidate.rules) (hid : r'.id = r.id)

theorem ruleName_replace (x : Rule) :
    ruleName (if x.id = r'.id then r' else x) = ruleName x := by
  split
  · next h => exact ruleName_eq_iff.mpr h.symm
  · rfl

theorem map_ruleName_replace (p : Phragma.Policy) :
    (replaceRule p r').rules.map ruleName = p.rules.map ruleName := by
  rw [replaceRule, List.map_map]
  exact List.map_congr_left fun x _ => ruleName_replace x

include hr hc hmem'

theorem replaceRule_keyed : KeyedBy ruleKey ruleName (replaceRule running r').rules := by
  refine ⟨fun x hx i => ?_, ?_⟩
  · obtain ⟨y, hy, rfl⟩ := List.mem_map.mp hx
    have hne : (if y.id = r'.id then r' else y).id ≠ "" := by
      split
      · exact ne_empty_of_ValidRuleID ((rules_identified hc).1 r' hmem')
      · exact ne_empty_of_ValidRuleID ((rules_identified hr).1 y hy)
    rw [ruleKey, if_pos hne]
    rfl
  · rw [map_ruleName_replace]
    exact (ruleKey_keyed hr).nodup

include hmem hid

omit hr in
/-- The changes after a replacement are those that do not show the rule that was put in. -/
theorem holds_replace_iff {c : Change Rule} :
    c.Holds ruleName (replaceRule running r').rules candidate.rules ↔
      c.Holds ruleName running.rules candidate.rules ∧ c.shown ≠ r' := by
  have hname' : ruleName r' ∈ running.rules.map ruleName :=
    ruleName_mem_map.mpr ⟨r, hmem, hid.symm⟩
  have hafter : ruleName r' ∈ candidate.rules.map ruleName := List.mem_map_of_mem hmem'
  have hunique : ∀ {a : Rule} {i : Nat}, candidate.rules[i]? = some a → ruleName a = ruleName r' →
      a = r' := fun hget hname =>
    map_ruleName_injOn hc _ (List.mem_of_getElem? hget) _ hmem' hname
  cases c with
  | added a i =>
      simp only [Change.Holds, map_ruleName_replace, Change.shown]
      refine ⟨fun h => ⟨h, ?_⟩, And.left⟩
      rintro rfl
      exact h.2 hname'
  -- the rule that was replaced has no change left: it is the candidate's own
  | modified b a i =>
      simp only [Change.Holds, Change.shown]
      constructor
      · rintro ⟨hget, hb, hname, hne⟩
        obtain ⟨y, hy, rfl⟩ := List.mem_map.mp hb
        split at hname
        · next h =>
            rw [if_pos h] at hne
            exact absurd (hunique hget hname.symm).symm hne
        · next h =>
            rw [if_neg h] at hne ⊢
            refine ⟨⟨hget, hy, hname, hne⟩, ?_⟩
            rintro rfl
            exact h (ruleName_eq_iff.mp hname)
      · rintro ⟨⟨hget, hb, hname, hne⟩, hshown⟩
        refine ⟨hget, List.mem_map.mpr ⟨b, hb, if_neg fun h => ?_⟩, hname, hne⟩
        exact hshown (hunique hget (hname.symm.trans (ruleName_eq_iff.mpr h)))
  | removed b i =>
      simp only [Change.Holds, Change.shown, replaceRule, List.getElem?_map, Option.map_eq_some_iff]
      constructor
      · rintro ⟨⟨y, hy, rfl⟩, hgone⟩
        split at hgone
        · exact absurd hafter hgone
        · next h =>
            rw [if_neg h]
            refine ⟨⟨hy, hgone⟩, ?_⟩
            rintro rfl
            exact h rfl
      · rintro ⟨⟨hget, hgone⟩, hshown⟩
        refine ⟨⟨b, hget, if_neg fun h => ?_⟩, hgone⟩
        exact hgone (ruleName_eq_iff.mpr h ▸ hafter)

/-- The grades of the rules' changes with and without the change of one active blocking rule. -/
theorem below_three_replace (hactive : active r = true) (hblock : block r = true)
    {o : MapOrders} :
    Below 3 ((changes o ruleKey running.rules candidate.rules).map ruleItem) ↔
      ¬ (allow r' = true ∧ broadRule r' = true) ∧
        Below 3 ((changes o ruleKey (replaceRule running r').rules candidate.rules).map
          ruleItem) := by
  have hkr := ruleKey_keyed hr
  have hkc := ruleKey_keyed hc
  have hallow : allow r = false := by
    cases h : allow r with
    | false => rfl
    | true =>
        rw [block_eq_false_of_allow h] at hblock
        cases hblock
  rw [below_ruleItems hkr hkc, below_ruleItems (replaceRule_keyed hr hc hmem') hkc]
  simp only [holds_replace_iff hc hmem hmem' hid, and_imp]
  constructor
  · intro h
    refine ⟨fun hbroad => ?_, fun c hholds _ => h c hholds⟩
    obtain ⟨i, hi⟩ := List.mem_iff_getElem?.mp hmem'
    have hne : r ≠ r' := by
      rintro rfl
      rw [hallow] at hbroad
      exact absurd hbroad.1 Bool.false_ne_true
    -- the rule's own change is one of those that stay below three
    have hlt := h (.modified r r' i) ⟨hi, hmem, ruleName_eq_iff.mpr hid.symm, hne⟩
    rw [(rank_modified_lt_three.mp hlt).1.broad hallow hbroad.1] at hbroad
    exact absurd hbroad.2 Bool.false_ne_true
  · rintro ⟨hbroad, h⟩ c hholds
    -- only a change that shows the rule itself is missing after the replacement
    by_cases hshown : c.shown = r'
    · cases c with
      | added a i =>
          rw [show a = r' from hshown] at hholds
          exact absurd (ruleName_mem_map.mpr ⟨r, hmem, hid.symm⟩) hholds.2
      | removed b i =>
          rw [show b = r' from hshown] at hholds
          exact absurd (List.mem_map_of_mem hmem') hholds.2
      | modified b a i =>
          obtain ⟨hget, hb, hname, hne⟩ := hholds
          rw [show a = r' from hshown] at hname ⊢
          have hbr : b = r := map_ruleName_injOn hr b hb r hmem
            (hname.trans (ruleName_eq_iff.mpr hid))
          rw [hbr]
          refine rank_modified_lt_three.mpr ⟨⟨fun hyes => ?_, fun hno => ?_, fun _ hyes => ?_⟩,
            fun hno => ?_⟩
          · rw [hallow] at hyes
            cases hyes
          · rw [hactive] at hno
            cases hno
          · by_contra hall
            exact hbroad ⟨hyes, by simpa using hall⟩
          · rw [hactive] at hno
            cases hno
    · exact h c hholds hshown

end Blocking

/-- **Blocking rules.** A candidate without an active blocking rule of the running policy is of
high risk, whatever else it changes. A candidate that has another rule under its id is of high risk
only if that rule is a broad allow rule, or if it would be of high risk had the running policy that
rule already: to switch a blocking rule off, or to turn it into an allow rule that is not broad,
counts for nothing. -/
theorem blocking_rule_changed {orders : String → MapOrders} {running candidate : Phragma.Policy}
    (hr : Validate running = []) (hc : Validate candidate = []) {r : Rule}
    (hmem : r ∈ running.rules) (hactive : active r = true) (hblock : block r = true) :
    ((∀ r' ∈ candidate.rules, r'.id ≠ r.id) → (Impact orders running candidate).risk = .high) ∧
      ∀ r' ∈ candidate.rules, r'.id = r.id →
        ((Impact orders running candidate).risk = .high ↔
          (allow r' = true ∧ broadRule r' = true) ∨
            (Impact orders (replaceRule running r') candidate).risk = .high) := by
  refine ⟨fun hgone => ?_, fun r' hmem' hid => ?_⟩
  · refine (risk_high_iff hr hc).mpr fun htolerable => ?_
    obtain ⟨r', hr', hid⟩ := htolerable.rules.kept r hmem hactive hblock
    exact hgone r' hr' hid
  · have hrunning := @below_three_impactItems orders running candidate hc running.rules
    have hreplaced := @below_three_impactItems orders running candidate hc
      (replaceRule running r').rules
    have hrules := below_three_replace hr hc hmem hmem' hid hactive hblock
      (o := orders "rules")
    rw [Impact_high_iff, Impact_high_iff]
    have hfirst : Below 3 (impactItems orders running candidate) ↔
        ¬ (allow r' = true ∧ broadRule r' = true) ∧
          Below 3 (impactItems orders (replaceRule running r') candidate) := by
      refine hrunning.trans ?_
      rw [hrules, and_assoc]
      exact and_congr_right fun _ => hreplaced.symm
    rw [hfirst, not_and_or, not_not]

/-- One rule that keeps a network in, switched off or not. -/
def networkIn (disabled : Bool) : Phragma.Policy where
  addresses := [{ name := "net", cidr := "10.0.0.0/24" }]
  rules := [{ id := "rule-1", name := "net-in", sourceAddresses := ["net"], action := .deny
              disabled }]

/-- Without the rule the risk is high; with the rule switched off it is not. -/
theorem blocking_rule_changed_networkIn :
    (Impact (fun _ => .asEntered) (networkIn false) { networkIn false with rules := [] }).risk =
        .high ∧
      (Impact (fun _ => .asEntered) (networkIn false) (networkIn true)).risk = .medium := by
  have hgone := (@blocking_rule_changed (fun _ => .asEntered) (networkIn false)
    { networkIn false with rules := [] } (by decide) (by decide) _ (List.mem_singleton.mpr rfl)
    (by decide) (by decide)).1
  exact ⟨hgone fun r' hr' => absurd hr' List.not_mem_nil, by decide⟩

/-! ### Two changes in place of one

Switched off first and removed then, a rule goes without an acknowledgement. -/

/-- A change of the rules alone. -/
theorem tolerable_of_rules {p : Phragma.Policy} (hp : Validate p = []) {rules rules' : List Rule}
    (h : TolerableRules rules rules') : Tolerable { p with rules } { p with rules := rules' } where
  rules := h
  zones := .refl _
  zoneProtectionProfiles := .refl _
  securityProfiles := by
    intro c hc
    have hkeyed := (accepted_of_Validate hp).securityProfiles.keyed
    have hmem := (mem_changes_iff (o := .asEntered) hkeyed hkeyed).mpr hc
    rw [(changes_eq_nil_iff hkeyed hkeyed).mpr (.refl _)] at hmem
    cases hmem
  nat := rfl
  staticRoutes := rfl
  routing := rfl
  vpn := rfl
  network := rfl
  hostInput := rfl
  ids := fun h => absurd rfl h
  intel := fun h => absurd rfl h

section Steps

variable {p : Phragma.Policy} (hp : Validate p = []) {r : Rule} (hmem : r ∈ p.rules)
  (hactive : active r = true) (hblock : block r = true)

/-- The rule, switched off. -/
def switchedOff (r : Rule) : Rule := { r with disabled := true }

theorem mem_replaceRule {x : Rule} : x ∈ (replaceRule p (switchedOff r)).rules ↔
    (∃ y ∈ p.rules, y.id = r.id ∧ x = switchedOff r) ∨ x ∈ p.rules ∧ x.id ≠ r.id := by
  simp only [replaceRule, List.mem_map]
  constructor
  · rintro ⟨y, hy, rfl⟩
    by_cases hid : y.id = r.id
    · exact .inl ⟨y, hy, hid, if_pos hid⟩
    · rw [if_neg (show ¬ y.id = (switchedOff r).id from hid)]
      exact .inr ⟨hy, hid⟩
  · rintro (⟨y, hy, hid, rfl⟩ | ⟨hx, hid⟩)
    · exact ⟨y, hy, if_pos hid⟩
    · exact ⟨x, hx, if_neg hid⟩

include hp hmem hblock

/-- To switch a blocking rule off is tolerable. -/
theorem tolerable_switchedOff (hnarrow : NoBroadAllow p.rules) :
    TolerableRules p.rules (replaceRule p (switchedOff r)).rules where
  kept := by
    intro x hx _ _
    by_cases hid : x.id = r.id
    · exact ⟨_, mem_replaceRule.mpr (.inl ⟨x, hx, hid, rfl⟩), hid.symm⟩
    · exact ⟨x, mem_replaceRule.mpr (.inr ⟨hx, hid⟩), rfl⟩
  modified := by
    intro x hx y hy hid hne
    rcases mem_replaceRule.mp hy with ⟨-, -, -, rfl⟩ | ⟨hy, -⟩
    · -- only the rule itself has another one in its place
      have hxr : x = r := map_ruleName_injOn hp x hx r hmem (ruleName_eq_iff.mpr hid.symm)
      have hallow : allow r = false := by
        cases h : allow r with
        | false => rfl
        | true =>
            rw [block_eq_false_of_allow h] at hblock
            cases hblock
      rw [hxr]
      refine ⟨fun h => ?_, fun _ h => ?_, fun _ h => ?_⟩
      · rw [hallow] at h
        cases h
      · cases h
      · change allow r = true at h
        rw [hallow] at h
        cases h
    · exact absurd (map_ruleName_injOn hp x hx y hy (ruleName_eq_iff.mpr hid.symm)) hne
  broad := by
    intro x hx hon hallow
    rcases mem_replaceRule.mp hx with ⟨-, -, -, rfl⟩ | ⟨hx, -⟩
    · cases hon
    · exact hnarrow x hx hon hallow

omit hmem hblock in
/-- And so is to remove it then. -/
theorem tolerable_removed (hnarrow : NoBroadAllow p.rules) :
    TolerableRules (replaceRule p (switchedOff r)).rules (p.rules.filter (·.id ≠ r.id)) where
  kept := by
    intro x hx hon _
    rcases mem_replaceRule.mp hx with ⟨-, -, -, rfl⟩ | ⟨hx, hid⟩
    · cases hon
    · exact ⟨x, List.mem_filter.mpr ⟨hx, by simpa using hid⟩, rfl⟩
  modified := by
    intro x hx y hy hid hne
    obtain ⟨hy, hyid⟩ := List.mem_filter.mp hy
    rcases mem_replaceRule.mp hx with ⟨-, -, -, rfl⟩ | ⟨hx, -⟩
    · exact absurd hid (show ¬ y.id = r.id by simpa using hyid)
    · exact absurd (map_ruleName_injOn hp x hx y hy (ruleName_eq_iff.mpr hid.symm)) hne
  broad := fun x hx => hnarrow x (List.mem_filter.mp hx).1

include hactive

/-- **Two changes can do what one may not.** To remove an active blocking rule is of high risk. To
switch it off first and to remove it then is not, in either step, unless the policy has a broad
allow rule in force. -/
theorem removed_in_two_steps {orders : String → MapOrders} (hnarrow : NoBroadAllow p.rules)
    (hoff : Validate (replaceRule p (switchedOff r)) = [])
    (hgone : Validate { p with rules := p.rules.filter (·.id ≠ r.id) } = []) :
    (Impact orders p { p with rules := p.rules.filter (·.id ≠ r.id) }).risk = .high ∧
      (Impact orders p (replaceRule p (switchedOff r))).risk ≠ .high ∧
      (Impact orders (replaceRule p (switchedOff r))
        { p with rules := p.rules.filter (·.id ≠ r.id) }).risk ≠ .high := by
  refine ⟨(blocking_rule_changed hp hgone hmem hactive hblock).1 fun r' hr' => ?_, ?_, ?_⟩
  · simpa using (List.mem_filter.mp hr').2
  · rw [Ne, risk_high_iff hp hoff, not_not]
    exact tolerable_of_rules hp (tolerable_switchedOff hp hmem hblock hnarrow)
  · rw [Ne, risk_high_iff hoff hgone, not_not]
    exact tolerable_of_rules hp (tolerable_removed hp hnarrow)

end Steps

/-- A network that is kept in can be let out in two unacknowledged changes. -/
theorem removed_in_two_steps_networkIn :
    (Impact (fun _ => .asEntered) (networkIn false) { networkIn false with rules := [] }).risk =
        .high ∧
      (Impact (fun _ => .asEntered) (networkIn false) (networkIn true)).risk ≠ .high ∧
      (Impact (fun _ => .asEntered) (networkIn true) { networkIn false with rules := [] }).risk ≠
        .high :=
  @removed_in_two_steps (networkIn false) (by decide) _ (List.mem_singleton.mpr rfl) (by decide)
    (by decide) (fun _ => .asEntered) (fun x hx _ hallow => by
      rw [List.mem_singleton.mp hx] at hallow
      cases hallow) (by decide) (by decide)

end Phragma.Policy
