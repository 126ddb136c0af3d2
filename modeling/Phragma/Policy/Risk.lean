import Phragma.Policy.Impact

/-!
# Phragma.Policy.Risk

**What the grades of the risk summary say** about a running policy and a candidate that the
validator accepts. Such policies have distinct rule ids and object names, so the changes found
through the maps of `Policy.Impact` are the changes between the lists. Section by section
(`below_…`), the items of a section stay below a grade exactly when the section is the same, up
to the order of its objects, or is graded lower; `below_impactItems` puts the sections together.
-/

namespace Phragma.Policy

open Lib Go

/-! ### Keys

The maps of the summary are keyed by texts made of ids, names and places. In an accepted policy
these tell the items apart. -/

/-- **The rules of an accepted policy have valid ids, no two the same.** -/
theorem rules_identified {p : Phragma.Policy} (h : Validate p = []) :
    (∀ r ∈ p.rules, ValidRuleID r.id = true) ∧ (p.rules.map (·.id)).Nodup := by
  unfold Validate at h
  simp only [List.append_eq_nil_iff] at h
  obtain ⟨⟨⟨⟨⟨⟨⟨⟨⟨-, hrules⟩, -⟩, -⟩, -⟩, -⟩, -⟩, -⟩, -⟩, -⟩ := h
  unfold checkRules at hrules
  have hrun := collect_quiet_all (named "rule" Rule.name
      (fun (s : RuleState) n => s.seen.contains n) (checkRule (collectAll p).2 p.getIds)) {}
    (fun pre s => s.seenIDs.map Prod.fst = (pre.map (·.id)).reverse ∧
      (∀ r ∈ pre, ValidRuleID r.id = true) ∧ (pre.map (·.id)).Nodup) ?_
    ⟨rfl, by simp, List.nodup_nil⟩ hrules
  · exact hrun.2
  · rintro pre s r ⟨hseen, hvalid, hnd⟩ hq
    obtain ⟨-, -, hcheck, hsnd⟩ := named_quiet hq
    -- of the checks of a rule only the first is about its id
    have hid : (checkRuleID ("rule " ++ quote r.name) s.seenIDs r).1 = [] := by
      unfold checkRule at hcheck
      simp only [List.append_eq_nil_iff] at hcheck
      exact hcheck.1.1.1.1.1.1.1.1.1.1.1.1.1
    have hstate : (checkRule (collectAll p).2 p.getIds s r).2.seenIDs =
        (checkRuleID ("rule " ++ quote r.name) s.seenIDs r).2 := rfl
    rw [hsnd, hstate]
    unfold checkRuleID at hid ⊢
    split_ifs at hid ⊢ with hempty hspace hpattern
    · have hrule : ValidRuleID r.id = true := by simpa using hpattern
      cases hlookup : s.seenIDs.lookup r.id with
      | some other => simp [hlookup] at hid
      | none =>
          have hnew : r.id ∉ pre.map (·.id) := by
            rw [← List.mem_reverse, ← hseen]
            intro hmem
            obtain ⟨e, he, hfst⟩ := List.mem_map.mp hmem
            have hne := List.lookup_eq_none_iff.mp hlookup e he
            simp [hfst] at hne
          refine ⟨by simp [hseen], ?_, ?_⟩
          · intro x hx
            rcases List.mem_append.mp hx with hx | hx
            · exact hvalid x hx
            · rw [List.mem_singleton.mp hx]
              exact hrule
          · rw [List.map_append]
            exact nodup_snoc hnd hnew

/-- **Normalization leaves rules with valid and distinct ids alone.** -/
theorem NormalizeRuleIDs_of_valid (H : IdentityHash) {p : Phragma.Policy}
    (hvalid : ∀ r ∈ p.rules, ValidRuleID r.id = true) (hnd : (p.rules.map (·.id)).Nodup) :
    (NormalizeRuleIDs H p).1 = p := by
  have hquiet := (mapAccum_quiet (ruleKind_durable H) p.rules { seen := [] } hvalid hnd
    fun _ _ => List.not_mem_nil).1
  have hrules : (normalizeItems (ruleKind H) [] p.rules).1 = p.rules := hquiet
  simp only [NormalizeRuleIDs, hrules]

theorem NormalizeRuleIDs_of_accepted (H : IdentityHash) {p : Phragma.Policy}
    (h : Validate p = []) : (NormalizeRuleIDs H p).1 = p :=
  NormalizeRuleIDs_of_valid H (rules_identified h).1 (rules_identified h).2

/-- All characters of a valid id are id characters. -/
theorem isRuleIDChar_of_ValidRuleID {id : String} (h : ValidRuleID id = true) :
    ∀ c ∈ id.toList, isRuleIDChar c = true := by
  simp only [ValidRuleID, Bool.and_eq_true] at h
  have hre := h.2
  cases hl : id.toList with
  | nil => exact fun c hc => absurd hc List.not_mem_nil
  | cons x xs =>
      rw [hl, ruleIDValidRE, Bool.and_eq_true, Bool.and_eq_true, List.all_eq_true] at hre
      intro c hc
      rcases List.mem_cons.mp hc with rfl | hc
      · exact isRuleIDChar_of_isLowerAlnum hre.1.1
      · exact hre.2 c hc

/-- A valid id is not empty. -/
theorem ne_empty_of_ValidRuleID {id : String} (h : ValidRuleID id = true) : id ≠ "" := by
  rintro rfl
  simp [ValidRuleID] at h

theorem append_left_injective (pfx : String) : Function.Injective (pfx ++ ·) := by
  intro a b hab
  have hlist := congrArg String.toList hab
  simp only [String.toList_append, List.append_cancel_left_eq] at hlist
  exact String.toList_injective hlist

/-- The name the maps know a rule by. -/
def ruleName (r : Rule) : String := "id:" ++ r.id

/-- The name the maps know an object by. -/
def objectName (name : String) : String := "name:" ++ name

theorem ruleKey_keyed {p : Phragma.Policy} (h : Validate p = []) :
    KeyedBy ruleKey ruleName p.rules := by
  obtain ⟨hvalid, hnd⟩ := rules_identified h
  refine ⟨fun r hr i => ?_, ?_⟩
  · rw [ruleKey, if_pos (ne_empty_of_ValidRuleID (hvalid r hr))]
    rfl
  · have hmap : p.rules.map ruleName = (p.rules.map (·.id)).map ("id:" ++ ·) := by
      rw [List.map_map]
      rfl
    rw [hmap]
    exact hnd.map (append_left_injective _)

theorem objectKey_keyed {α : Type} {name : α → String} {l : List α}
    (hne : ∀ a ∈ l, name a ≠ "") (hnd : (l.map name).Nodup) :
    KeyedBy (fun a i => objectKey (name a) i) (fun a => objectName (name a)) l := by
  refine ⟨fun a ha i => ?_, ?_⟩
  · rw [objectKey, if_pos (hne a ha)]
    rfl
  · have hmap : l.map (fun a => objectName (name a)) = (l.map name).map ("name:" ++ ·) := by
      rw [List.map_map]
      rfl
    rw [hmap]
    exact hnd.map (append_left_injective _)

theorem Accepted.zoneKeyed {p : Phragma.Policy} (h : Accepted p) :
    KeyedBy (fun z i => objectKey (Zone.name z) i) (fun z => objectName (Zone.name z)) p.zones :=
  objectKey_keyed (fun z hz => (h.zone_usable z hz).ne_empty) h.zone_names

theorem Accepted.addressKeyed {p : Phragma.Policy} (h : Accepted p) :
    KeyedBy (fun a i => objectKey (Address.name a) i) (fun a => objectName (Address.name a))
      p.addresses :=
  objectKey_keyed (fun a ha => (h.address_usable a ha).ne_empty) h.address_names

theorem Section.keyed {α : Type} {name : α → String} {check : α → List String} {l : List α}
    {map : List (String × α)} (h : Section name check l map) :
    KeyedBy (fun a i => objectKey (name a) i) (fun a => objectName (name a)) l :=
  objectKey_keyed (fun a ha => (h.usable a ha).ne_empty) h.names

/-! ### Items of a section

A section's items are one for each change, so a bound on the section is a bound on every change. -/

section Items

variable {n : Nat} {risk : ChangeRisk}

theorem below_itemIf {b : Bool} {title detail : String} :
    Below n (itemIf b risk title detail) ↔ (n ≤ risk.rank → b = false) := by
  cases b <;> simp [itemIf, Below]

theorem below_cons {item : ChangeImpactItem} {items : List ChangeImpactItem} :
    Below n (item :: items) ↔ item.risk.rank < n ∧ Below n items := by
  simp [Below]

theorem below_nil : Below n [] := fun _ h => absurd h List.not_mem_nil

variable {α : Type} [DecidableEq α] {orders : MapOrders} {name : α → String} {noun kind : String}
  {before after : List α}

theorem below_objectItems {grade : α → ChangeRisk × String} :
    Below n (objectItems orders name noun kind grade before after) ↔
      ∀ c ∈ changes orders (fun a i => objectKey (name a) i) before after,
        (grade c.shown).1.rank < n := by
  simp only [Below, objectItems, List.mem_map, forall_exists_index, and_imp,
    forall_apply_eq_imp_iff₂]

/-- Where all changes of a section have one grade, the section is the same up to order or graded
lower. -/
theorem below_objectItems_const {detail : String}
    (hb : KeyedBy (fun a i => objectKey (name a) i) (fun a => objectName (name a)) before)
    (ha : KeyedBy (fun a i => objectKey (name a) i) (fun a => objectName (name a)) after) :
    Below n (objectItems orders name noun kind (fun _ => (risk, detail)) before after) ↔
      (n ≤ risk.rank → before.Perm after) := by
  rw [below_objectItems, ← changes_eq_nil_iff hb ha (o := orders)]
  constructor
  · intro h hn
    refine List.eq_nil_iff_forall_not_mem.mpr fun c hc => ?_
    exact absurd (h c hc) (Nat.not_lt.mpr hn)
  · intro h c hc
    by_contra hn
    rw [h (Nat.not_lt.mp hn)] at hc
    exact List.not_mem_nil hc

end Items

/-! ### The sections

A section stays below a grade exactly when each of its changes is graded lower. -/

section Sections

variable {n : Nat} {running candidate : Phragma.Policy}

theorem below_networkItems (hn : n ≤ 3) :
    Below n (networkItems running candidate) ↔ running.network = candidate.network := by
  unfold networkItems
  split
  · next h => exact iff_of_true below_nil h
  · next h =>
      refine iff_of_false (fun hbelow => ?_) h
      have hhigh := (below_cons.mp hbelow).1
      exact absurd hhigh (Nat.not_lt.mpr hn)

theorem below_hostInputItems (hn : n ≤ 3) :
    Below n (hostInputItems running candidate) ↔ running.hostInput = candidate.hostInput := by
  have hitem : ∀ title detail, ¬ Below n [⟨.high, title, detail⟩] := fun title detail h =>
    absurd (below_cons.mp h).1 (Nat.not_lt.mpr hn)
  unfold hostInputItems
  split
  · next h => exact iff_of_true below_nil h
  · next h =>
      refine iff_of_false ?_ h
      split
      · exact hitem _ _
      · split <;> exact hitem _ _

theorem below_idsItems (hn : n ≤ 2) :
    Below n (idsItems running candidate) ↔ running.ids = candidate.ids := by
  have hitem : ∀ (risk : ChangeRisk) title detail, 2 ≤ risk.rank →
      ¬ Below n [⟨risk, title, detail⟩] := fun risk title detail hrisk h =>
    absurd (below_cons.mp h).1 (Nat.not_lt.mpr (hn.trans hrisk))
  unfold idsItems
  split
  · next h => exact iff_of_true below_nil h
  · next h =>
      refine iff_of_false ?_ h
      split
      · exact hitem _ _ _ (by decide)
      · split <;> exact hitem _ _ _ (by decide)

/-- A change of the inspection settings is high where inspection ends or where it goes on to
prevent. -/
theorem below_idsItems_three : Below 3 (idsItems running candidate) ↔
    (running.ids ≠ candidate.ids →
      ¬ (running.getIds.enabled = true ∧ candidate.getIds.enabled = false) ∧
      ¬ (candidate.getIds.enabled = true ∧ candidate.getIds.mode = .prevent)) := by
  unfold idsItems
  split
  · next h => exact iff_of_true below_nil fun hne => absurd h hne
  · next h =>
      rw [imp_iff_right h]
      cases hr : running.getIds.enabled <;> cases hc : candidate.getIds.enabled <;>
        by_cases hm : candidate.getIds.mode = .prevent <;>
          simp [below_cons, below_nil, ChangeRisk.rank, hm]

/-- **An accepted candidate has no conflict of the fast path.** -/
theorem no_offload_conflict (h : Validate candidate = []) :
    (candidate.getNetwork.enableFlowOffload && candidate.getIds.enabled) = false ∧
      (candidate.getNetwork.enableFlowOffload && !hasZoneInterface candidate.zones) = false := by
  have hnet := (accepted_of_Validate h).network_ok
  unfold Policy.getNetwork
  cases hn : candidate.network with
  | none => exact ⟨rfl, rfl⟩
  | some net =>
      cases hoff : net.enableFlowOffload with
      | false => simp [hoff]
      | true =>
          rw [hn] at hnet
          simp only [checkNetwork, hoff, if_true, List.append_eq_nil_iff] at hnet
          obtain ⟨-, hids, hzones⟩ := hnet
          have hids' : candidate.getIds.enabled = false := by
            cases he : candidate.getIds.enabled with
            | false => rfl
            | true => simp [he, errIf] at hids
          have hzone : hasZoneInterface candidate.zones = true := by
            by_contra hno
            refine absurd hzones ?_
            have hall : (candidate.zones.all fun z => z.interfaces.isEmpty) = true := by
              simpa [hasZoneInterface] using hno
            simp [errIf, hall]
          simp [hoff, hids', hzone]

end Sections

/-! ### Rules

A rule that is in force and allows or blocks something is graded when it comes or goes; a modified
one by what the modification does. -/

/-- A rule whose addition or removal is more than a low risk. -/
def graded (r : Rule) : Bool := active r && (allow r || block r)

theorem rank_ruleItem_lt_two {c : Change Rule} : (ruleItem c).risk.rank < 2 ↔ c.Spares graded := by
  cases c with
  | added r i =>
      simp only [ruleItem, Change.Spares, graded]
      cases active r <;> cases allow r <;> cases block r <;> cases broadRule r <;>
        simp [ChangeRisk.rank]
  | removed r i =>
      simp only [ruleItem, Change.Spares, graded]
      cases active r <;> cases allow r <;> cases block r <;> simp [ChangeRisk.rank]
  | modified b a i =>
      simp only [ruleItem, Change.Spares, iff_false, Nat.not_lt]
      cases active b <;> cases active a <;> cases allow b <;> cases allow a <;>
        cases block a <;> cases broadRule a <;> simp [ChangeRisk.rank]

theorem below_two_ruleItems {l : List (Change Rule)} :
    Below 2 (l.map ruleItem) ↔ ∀ c ∈ l, c.Spares graded := by
  simp only [Below, List.mem_map, forall_exists_index, and_imp, forall_apply_eq_imp_iff₂,
    rank_ruleItem_lt_two]

theorem below_hygieneItems {n : Nat} (hn : n ≤ 2) {rules : List Rule} :
    Below n (hygieneItems rules) ↔ hygieneItems rules = [] := by
  constructor
  · intro h
    refine List.eq_nil_iff_forall_not_mem.mpr fun item hitem => ?_
    have hlt := h item hitem
    have hrank : 2 ≤ item.risk.rank := by
      rcases List.mem_append.mp hitem with hitem | hitem
      · obtain ⟨⟨i, j⟩, -, rfl⟩ := List.mem_map.mp hitem
        exact Nat.le_refl 2
      · obtain ⟨⟨r, i⟩, -, hx⟩ := List.mem_filterMap.mp hitem
        dsimp only at hx
        split at hx
        · cases hx
          exact Nat.le_succ 2
        · cases hx
    omega
  · intro h
    rw [h]
    exact below_nil

/-- The order key of a rule of an accepted policy is the name the maps know it by. -/
theorem ruleOrderKey_eq {p : Phragma.Policy} (h : Validate p = []) {r : Rule}
    (hr : r ∈ p.rules) : ruleOrderKey r = ruleName r := by
  rw [ruleOrderKey, if_pos (ne_empty_of_ValidRuleID ((rules_identified h).1 r hr))]
  rfl

theorem ruleName_ne_empty (r : Rule) : ruleName r ≠ "" := by
  intro h
  have hlen := congrArg String.length h
  simp [ruleName] at hlen

theorem zip_map_ne {α β : Type} [DecidableEq β] {f g : α → β} : ∀ {l l' : List α},
    l.length = l'.length → ((l.zip l').any fun x => f x.1 != g x.2) = false →
      l.map f = l'.map g := by
  intro l
  induction l with
  | nil =>
      intro l' hlen _
      rw [List.eq_nil_of_length_eq_zero hlen.symm]
      rfl
  | cons a l ih =>
      intro l' hlen hany
      cases l' with
      | nil => cases hlen
      | cons b l' =>
          rw [List.zip_cons_cons, List.any_cons, Bool.or_eq_false_iff] at hany
          have hhead : f a = g b := by simpa using hany.1
          rw [List.map_cons, List.map_cons, hhead, ih (Nat.succ_inj.mp hlen) hany.2]

/-- **Where no rule is added or removed, the order check misses no change of the order.** -/
theorem ruleOrderChanged_iff {p q : Phragma.Policy} (hp : Validate p = []) (hq : Validate q = [])
    (hids : (p.rules.map ruleName).Perm (q.rules.map ruleName)) :
    ruleOrderChanged p.rules q.rules = false ↔ p.rules.map ruleName = q.rules.map ruleName := by
  have hlen : p.rules.length = q.rules.length := by simpa using hids.length_eq
  have hkeyp : p.rules.map ruleOrderKey = p.rules.map ruleName :=
    List.map_congr_left fun r hr => ruleOrderKey_eq hp hr
  have hkeyq : q.rules.map ruleOrderKey = q.rules.map ruleName :=
    List.map_congr_left fun r hr => ruleOrderKey_eq hq hr
  -- accepted rules have keys, so the comparison is not given up
  have hnonempty : ((p.rules.zip q.rules).any fun x =>
      ruleOrderKey x.1 == "" || ruleOrderKey x.2 == "") = false := by
    rw [List.any_eq_false]
    intro x hx
    have hx1 := (List.of_mem_zip hx).1
    have hx2 := (List.of_mem_zip hx).2
    simp [ruleOrderKey_eq hp hx1, ruleOrderKey_eq hq hx2, ruleName_ne_empty]
  -- and every rule is known before, so only the order is left to compare
  have hseen : (q.rules.any fun r => !(p.rules.map ruleOrderKey).contains (ruleOrderKey r)) =
      false := by
    rw [List.any_eq_false, hkeyp]
    intro r hr
    have hmem : ruleName r ∈ p.rules.map ruleName :=
      hids.mem_iff.mpr (List.mem_map_of_mem hr)
    simp only [ruleOrderKey_eq hq hr, Bool.not_eq_true', Bool.not_eq_false]
    simpa using hmem
  unfold ruleOrderChanged
  rw [if_neg (not_not.mpr hlen), hnonempty, hseen, ← hkeyp, ← hkeyq]
  simp only [Bool.false_eq_true, if_false]
  refine ⟨zip_map_ne hlen, fun heq => ?_⟩
  rw [List.any_eq_false]
  intro x hx
  have hzip : ∀ {l l' : List Rule}, l.map ruleOrderKey = l'.map ruleOrderKey →
      ∀ x ∈ l.zip l', ruleOrderKey x.1 = ruleOrderKey x.2 := by
    intro l
    induction l with
    | nil => simp
    | cons a l ih =>
        intro l' h x hx
        cases l' with
        | nil => cases h
        | cons b l' =>
            rw [List.map_cons, List.map_cons, List.cons.injEq] at h
            rcases List.mem_cons.mp hx with rfl | hx
            · exact h.1
            · exact ih h.2 x hx
  simp [hzip heq x hx]

theorem map_ruleName_injOn {p : Phragma.Policy} (h : Validate p = []) :
    ∀ r ∈ p.rules, ∀ r' ∈ p.rules, ruleName r = ruleName r' → r = r' := fun _ hr _ hr' heq =>
  List.inj_on_of_nodup_map (ruleKey_keyed h).nodup hr hr' heq

theorem eq_of_perm_of_map {α β : Type} {f : α → β} : ∀ {l l' : List α},
    (∀ a ∈ l, ∀ b ∈ l', f a = f b → a = b) → l.map f = l'.map f → l = l' := by
  intro l
  induction l with
  | nil =>
      intro l' _ h
      exact (List.map_eq_nil_iff.mp h.symm).symm
  | cons a l ih =>
      intro l' hinj h
      cases l' with
      | nil => cases h
      | cons b l' =>
          rw [List.map_cons, List.map_cons, List.cons.injEq] at h
          rw [hinj a List.mem_cons_self b List.mem_cons_self h.1,
            ih (fun x hx y hy => hinj x (List.mem_cons_of_mem _ hx) y (List.mem_cons_of_mem _ hy))
              h.2]

/-- **No change of a rule and none of the order: the rules are the same.** -/
theorem rules_eq_iff {p q : Phragma.Policy} (hp : Validate p = []) (hq : Validate q = []) :
    p.rules.Perm q.rules ∧ ruleOrderChanged p.rules q.rules = false ↔ p.rules = q.rules := by
  constructor
  · rintro ⟨hperm, horder⟩
    refine eq_of_perm_of_map (fun a ha b hb => ?_)
      ((ruleOrderChanged_iff hp hq (hperm.map _)).mp horder)
    exact map_ruleName_injOn hp a ha b (hperm.mem_iff.mpr hb)
  · intro h
    exact ⟨h ▸ .refl _, (ruleOrderChanged_iff hp hq (h ▸ .refl _)).mpr (by rw [h])⟩

/-! ### All sections -/

/-- **The sections besides the rules and the telemetry are the same**, objects up to their
order. -/
structure SameSections (p q : Phragma.Policy) : Prop where
  zones : p.zones.Perm q.zones
  addresses : p.addresses.Perm q.addresses
  services : p.services.Perm q.services
  applications : p.applications.Perm q.applications
  securityProfiles : p.securityProfiles.Perm q.securityProfiles
  qosProfiles : p.qosProfiles.Perm q.qosProfiles
  zoneProtectionProfiles : p.zoneProtectionProfiles.Perm q.zoneProtectionProfiles
  nat : p.nat = q.nat
  staticRoutes : p.staticRoutes = q.staticRoutes
  routing : p.routing = q.routing
  vpn : p.vpn = q.vpn
  network : p.network = q.network
  hostInput : p.hostInput = q.hostInput
  ids : p.ids = q.ids
  intel : p.intel = q.intel

section All

variable {orders : String → MapOrders} {running candidate : Phragma.Policy}
  (hr : Validate running = []) (hc : Validate candidate = [])

include hr hc

theorem below_securityProfiles {n : Nat} (hn : n ≤ 2) {orders : MapOrders} :
    Below n (objectItems orders SecurityProfile.name "security profile" "security profile"
      securityProfileGrade running.securityProfiles candidate.securityProfiles) ↔
      running.securityProfiles.Perm candidate.securityProfiles := by
  have hkr := (accepted_of_Validate hr).securityProfiles.keyed
  have hkc := (accepted_of_Validate hc).securityProfiles.keyed
  rw [below_objectItems, ← changes_eq_nil_iff hkr hkc (o := orders)]
  have hgrade : ∀ profile : SecurityProfile, n ≤ (securityProfileGrade profile).1.rank := by
    intro profile
    unfold securityProfileGrade
    split
    · exact hn.trans (Nat.le_succ 2)
    · exact hn
  constructor
  · intro h
    exact List.eq_nil_iff_forall_not_mem.mpr fun c hc =>
      absurd (h c hc) (Nat.not_lt.mpr (hgrade _))
  · intro h c hc
    rw [h] at hc
    exact absurd hc List.not_mem_nil

/-- **When all items stay below medium**: the rules change in nothing that counts, the order
check and the hygiene checks are quiet, and the other sections are the same. -/
theorem below_impactItems {n : Nat} (hn : n ≤ 2) :
    Below n (impactItems orders running candidate) ↔
      Below n ((changes (orders "rules") ruleKey running.rules candidate.rules).map ruleItem) ∧
      ruleOrderChanged running.rules candidate.rules = false ∧
      hygieneItems candidate.rules = [] ∧ SameSections running candidate ∧
      (n ≤ 1 → running.telemetry = candidate.telemetry) := by
  have hA := accepted_of_Validate hr
  have hA' := accepted_of_Validate hc
  obtain ⟨hoffload, hinterfaces⟩ := no_offload_conflict hc
  have hmedium : n ≤ ChangeRisk.medium.rank := hn
  have hhigh : n ≤ ChangeRisk.high.rank := hn.trans (Nat.le_succ 2)
  have hintel : ∀ b : Bool, n ≤ (if b then ChangeRisk.high else ChangeRisk.medium).rank :=
    fun b => by cases b <;> assumption
  unfold impactItems
  simp only [below_append, below_itemIf, below_hygieneItems hn, hoffload, hinterfaces,
    below_objectItems_const hA.zoneKeyed hA'.zoneKeyed,
    below_objectItems_const hA.addressKeyed hA'.addressKeyed,
    below_objectItems_const hA.services.keyed hA'.services.keyed,
    below_objectItems_const hA.applications.keyed hA'.applications.keyed,
    below_securityProfiles hr hc hn,
    below_objectItems_const hA.qosProfiles.keyed hA'.qosProfiles.keyed,
    below_objectItems_const hA.zoneProtections.keyed hA'.zoneProtections.keyed,
    below_networkItems (hn.trans (Nat.le_succ 2)), below_hostInputItems (hn.trans (Nat.le_succ 2)),
    below_idsItems hn, hmedium, hhigh, hintel, forall_const, bne_eq_false_iff_eq, and_assoc,
    true_and]
  constructor
  · rintro ⟨hrules, horder, hhygiene, h1, h2, h3, h4, h5, h6, h7, h8, h9, h10, h11, h12, h13, h14,
      h15, htelemetry⟩
    exact ⟨hrules, horder, hhygiene, ⟨h1, h2, h3, h4, h5, h6, h7, h8, h9, h10, h11, h12, h13, h14,
      h15⟩, htelemetry⟩
  · rintro ⟨hrules, horder, hhygiene, hsame, htelemetry⟩
    exact ⟨hrules, horder, hhygiene, hsame.zones, hsame.addresses, hsame.services,
      hsame.applications, hsame.securityProfiles, hsame.qosProfiles, hsame.zoneProtectionProfiles,
      hsame.nat, hsame.staticRoutes, hsame.routing, hsame.vpn, hsame.network, hsame.hostInput,
      hsame.ids, hsame.intel, htelemetry⟩

/-- **The risk is low** exactly when no rule that is in force was added, removed or modified, the
order and hygiene checks are quiet, and all sections but the telemetry are the same. -/
theorem risk_low_iff : (Impact orders running candidate).risk = .low ↔
    (∀ c ∈ changes (orders "rules") ruleKey running.rules candidate.rules, c.Spares graded) ∧
      ruleOrderChanged running.rules candidate.rules = false ∧
      hygieneItems candidate.rules = [] ∧ SameSections running candidate := by
  rw [Impact_low_iff, below_impactItems hr hc (Nat.le_refl 2), below_two_ruleItems]
  have htelemetry : (2 ≤ 1 → running.telemetry = candidate.telemetry) := fun h =>
    absurd h (by decide)
  exact ⟨fun ⟨h1, h2, h3, h4, _⟩ => ⟨h1, h2, h3, h4⟩,
    fun ⟨h1, h2, h3, h4⟩ => ⟨h1, h2, h3, h4, htelemetry⟩⟩

/-- **There is nothing to report** exactly when rules, telemetry and the other sections are the
same and the hygiene checks are quiet. -/
theorem impactItems_eq_nil_iff : impactItems orders running candidate = [] ↔
    running.rules = candidate.rules ∧ hygieneItems candidate.rules = [] ∧
      SameSections running candidate ∧ running.telemetry = candidate.telemetry := by
  rw [← below_one_iff, below_impactItems hr hc (by decide), below_one_iff, List.map_eq_nil_iff,
    changes_eq_nil_iff (ruleKey_keyed hr) (ruleKey_keyed hc), ← rules_eq_iff hr hc, and_assoc]
  exact ⟨fun ⟨h1, h2, h3, h4, h5⟩ => ⟨h1, h2, h3, h4, h5 (Nat.le_refl 1)⟩,
    fun ⟨h1, h2, h3, h4, h5⟩ => ⟨h1, h2, h3, h4, fun _ => h5⟩⟩

end All

/-! ### Nothing to report

Without changes there is one item that says so. No other item has its title, since titles are told
apart by their first letters. -/

/-- The item of a candidate without changes. -/
def noMaterialRisk : ChangeImpactItem :=
  ⟨.low, "No material policy risk detected", "The candidate matches the running policy."⟩

/-- Titles that are told apart by their first letters. -/
def Telling (items : List ChangeImpactItem) : Prop :=
  ∀ item ∈ items, item.title.toList.take 3 ≠ ['N', 'o', ' ']

theorem telling_append {items items' : List ChangeImpactItem} :
    Telling (items ++ items') ↔ Telling items ∧ Telling items' := by
  simp only [Telling, List.mem_append, or_imp, forall_and]

theorem telling_itemIf {b : Bool} {risk : ChangeRisk} {title detail : String}
    (h : title.toList.take 3 ≠ ['N', 'o', ' ']) : Telling (itemIf b risk title detail) := by
  intro item hitem
  cases b with
  | false => cases hitem
  | true =>
      rw [List.mem_singleton.mp hitem]
      exact h

theorem telling_objectItems {α : Type} [DecidableEq α] {orders : MapOrders} {name : α → String}
    {noun kind : String} {grade : α → ChangeRisk × String} {before after : List α} :
    Telling (objectItems orders name noun kind grade before after) := by
  intro item hitem
  obtain ⟨c, -, rfl⟩ := List.mem_map.mp hitem
  cases c <;> simp [changeTitle, String.toList_append]

theorem telling_ruleItems {l : List (Change Rule)} : Telling (l.map ruleItem) := by
  intro item hitem
  obtain ⟨c, -, rfl⟩ := List.mem_map.mp hitem
  cases c with
  | added r i =>
      simp only [ruleItem]
      split_ifs <;> simp
  | removed r i =>
      simp only [ruleItem]
      split_ifs <;> simp
  | modified b a i =>
      simp only [ruleItem]
      split_ifs <;> simp

theorem telling_hygieneItems {rules : List Rule} : Telling (hygieneItems rules) := by
  refine telling_append.mpr ⟨fun item hitem => ?_, fun item hitem => ?_⟩
  · obtain ⟨⟨i, j⟩, -, rfl⟩ := List.mem_map.mp hitem
    simp
  · obtain ⟨⟨r, i⟩, -, hx⟩ := List.mem_filterMap.mp hitem
    dsimp only at hx
    split at hx
    · cases hx
      simp
    · cases hx

theorem telling_networkItems {running candidate : Phragma.Policy} :
    Telling (networkItems running candidate) := by
  unfold networkItems
  simp only [Telling]
  split_ifs <;> simp

theorem telling_hostInputItems {running candidate : Phragma.Policy} :
    Telling (hostInputItems running candidate) := by
  unfold hostInputItems
  simp only [Telling]
  split_ifs <;> simp

theorem telling_idsItems {running candidate : Phragma.Policy} :
    Telling (idsItems running candidate) := by
  unfold idsItems
  simp only [Telling]
  split_ifs <;> simp

theorem telling_impactItems {orders : String → MapOrders} {running candidate : Phragma.Policy} :
    Telling (impactItems orders running candidate) := by
  have hhygiene := telling_append.mp (@telling_hygieneItems candidate.rules)
  unfold impactItems
  repeat' refine telling_append.mpr ⟨?_, ?_⟩
  any_goals exact telling_objectItems
  any_goals exact telling_itemIf (by simp)
  · exact telling_ruleItems
  · exact hhygiene.1
  · exact hhygiene.2
  · exact telling_networkItems
  · exact telling_hostInputItems
  · exact telling_idsItems

/-- **The item that says that nothing has changed** stands in a summary exactly when there is no
other. -/
theorem noMaterialRisk_mem_iff {orders : String → MapOrders} {running candidate : Phragma.Policy} :
    noMaterialRisk ∈ (Impact orders running candidate).items ↔
      impactItems orders running candidate = [] := by
  unfold Impact
  dsimp only
  rw [items_foldl_add, List.nil_append]
  split
  · next h =>
      refine iff_of_true ?_ (List.isEmpty_iff.mp h)
      simp [ChangeImpact.add, noMaterialRisk]
  · next h =>
      rw [items_foldl_add, List.nil_append]
      refine iff_of_false (fun hmem => ?_) fun hnil => h (List.isEmpty_iff.mpr hnil)
      exact telling_impactItems _ hmem (by simp [noMaterialRisk])

end Phragma.Policy
