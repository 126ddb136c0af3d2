import Phragma.Go.AddrText
import Phragma.Policy.Risk

/-!
# Phragma.Apiserver.ChangeSummaries

The change summary of a candidate (`candidateChangeSummaries` of `internal/apiserver/policy.go`):
for each section of the policy how many items were added, modified and removed. It is written
apart from the risk summary of `Policy.Impact`; both are shown to the operator who commits.

For policies that the validator accepts, `summaries_eq_nil_iff` says when the summary is empty,
and `summaries_cover` when an operator is told of changes and of no risk at once: when the only
section that differs is the proxy, which the risk summary does not look at.
-/

namespace Phragma.Apiserver

open Lib Go Policy

/-! ### Counting

Items are counted by a key of theirs: the id of a rule, the name of an object, the place of a route.
What has no key is one item. -/

/-- `candidateChangeCounts`; a policy message has fewer than `2 ^ 32` items, so that the counters
are numbers. -/
structure ChangeCounts where
  added : Nat := 0
  modified : Nat := 0
  removed : Nat := 0
  deriving DecidableEq, Repr

/-- All changes of a section. -/
def ChangeCounts.total (c : ChangeCounts) : Nat := c.added + c.modified + c.removed

/-- `CandidateChangeSummary`: the counts of a section. -/
structure CandidateChangeSummary where
  name : String
  counts : ChangeCounts
  deriving DecidableEq, Repr

section Counting

variable {α : Type} [DecidableEq α]

/-- The loops over the maps of `countNamedPolicyChanges` and `countRuleIdentityChanges`. -/
def countChanges (old new : List (String × α × Nat)) : ChangeCounts where
  added := (mapKeys new).countP fun k => (old.lookup k).isNone
  modified := (mapKeys new).countP fun k =>
    match new.lookup k, old.lookup k with
    | some a, some b => decide (b.1 ≠ a.1)
    | _, _ => false
  removed := (mapKeys old).countP fun k => (new.lookup k).isNone

/-- `countNamedPolicyChanges`, as it is called: the order is not tracked. -/
def countNamedPolicyChanges (name : α → String) (before after : List α) : ChangeCounts :=
  countChanges (keyed (fun a i => objectKey (name a) i) before)
    (keyed (fun a i => objectKey (name a) i) after)

/-- `countIndexedPolicyChanges`: items counted by their places. -/
def countIndexedPolicyChanges (before after : List α) : ChangeCounts where
  added := after.length - before.length
  modified := (before.zip after).countP fun x => decide (x.1 ≠ x.2)
  removed := before.length - after.length

/-- `countPolicyMessageChange`: a section as one item. -/
def countPolicyMessageChange (before after : α) : ChangeCounts :=
  if before = after then {} else { modified := 1 }

/-- `sameCandidateKeys`: have both the same keys? -/
def sameCandidateKeys (old new : List (String × α × Nat)) : Bool :=
  (mapKeys old).length == (mapKeys new).length &&
    (mapKeys old).all fun k => (new.lookup k).isSome

end Counting

/-- The keys of the rules in their order, in one string. -/
def ruleOrder (rules : List Rule) : String :=
  join (rules.zipIdx.map fun x => ruleKey x.1 x.2) "\x00"

/-- `countRuleIdentityChanges`: rules counted by their ids. A new order of the same rules counts as
one change. -/
def countRuleIdentityChanges (before after : List Rule) : ChangeCounts :=
  let old := keyed ruleKey before
  let new := keyed ruleKey after
  let counts := countChanges old new
  if sameCandidateKeys old new && ruleOrder before != ruleOrder after then
    { counts with modified := counts.modified + 1 }
  else counts

/-! ### Sections

All sections of a policy are counted; those without a change are left out. -/

/-- `appendCandidateChange`: a section added, if it has changed. -/
def appendCandidateChange (out : List CandidateChangeSummary) (summary : CandidateChangeSummary) :
    List CandidateChangeSummary :=
  if summary.counts.total = 0 then out else out ++ [summary]

/-- The counts of all sections of two policies. -/
def sectionCounts (running candidate : Phragma.Policy) : List CandidateChangeSummary :=
  [⟨"rules", countRuleIdentityChanges running.rules candidate.rules⟩,
    ⟨"zones", countNamedPolicyChanges Zone.name running.zones candidate.zones⟩,
    ⟨"addresses", countNamedPolicyChanges Address.name running.addresses candidate.addresses⟩,
    ⟨"services", countNamedPolicyChanges Service.name running.services candidate.services⟩,
    ⟨"applications", countNamedPolicyChanges Application.name running.applications
      candidate.applications⟩,
    ⟨"securityProfiles", countNamedPolicyChanges SecurityProfile.name running.securityProfiles
      candidate.securityProfiles⟩,
    ⟨"qosProfiles", countNamedPolicyChanges QosProfile.name running.qosProfiles
      candidate.qosProfiles⟩,
    ⟨"zoneProtectionProfiles", countNamedPolicyChanges ZoneProtectionProfile.name
      running.zoneProtectionProfiles candidate.zoneProtectionProfiles⟩,
    ⟨"nat", countPolicyMessageChange running.nat candidate.nat⟩,
    ⟨"staticRoutes", countIndexedPolicyChanges running.staticRoutes candidate.staticRoutes⟩,
    ⟨"routing", countPolicyMessageChange running.routing candidate.routing⟩,
    ⟨"vpn", countPolicyMessageChange running.vpn candidate.vpn⟩,
    ⟨"network", countPolicyMessageChange running.network candidate.network⟩,
    ⟨"hostInput", countPolicyMessageChange running.hostInput candidate.hostInput⟩,
    ⟨"proxy", countPolicyMessageChange running.proxy candidate.proxy⟩,
    ⟨"ids", countPolicyMessageChange running.ids candidate.ids⟩,
    ⟨"intel", countPolicyMessageChange running.intel candidate.intel⟩,
    ⟨"telemetry", countPolicyMessageChange running.telemetry candidate.telemetry⟩]

/-- `candidateChangeSummaries`: the changes from the running policy to a candidate, after both have
been given rule ids. -/
def candidateChangeSummaries (H : IdentityHash) (running candidate : Phragma.Policy) :
    List CandidateChangeSummary :=
  (sectionCounts (NormalizeRuleIDs H running).1 (NormalizeRuleIDs H candidate).1).foldl
    appendCandidateChange []

/-! ### Counts and changes

The counts of a keyed section are the changes of its maps (`Phragma.Lib.KeyedDiff`). With distinct names there are none exactly when the items are the same up to their order. -/

theorem countP_of_disjoint {α : Type} {p q r : α → Bool} (l : List α)
    (h : ∀ a ∈ l, (r a = true ↔ p a = true ∨ q a = true) ∧ ¬ (p a = true ∧ q a = true)) :
    l.countP r = l.countP p + l.countP q := by
  induction l with
  | nil => rfl
  | cons a l ih =>
      have ha := h a List.mem_cons_self
      rw [List.countP_cons, List.countP_cons, List.countP_cons,
        ih fun b hb => h b (List.mem_cons_of_mem _ hb)]
      cases hp : p a <;> cases hq : q a <;> cases hr : r a <;> simp_all <;> omega

theorem length_filterMap_eq {α β : Type} (f : α → Option β) (l : List α) :
    (l.filterMap f).length = l.countP fun a => (f a).isSome := by
  induction l with
  | nil => rfl
  | cons a l ih =>
      rw [List.filterMap_cons, List.countP_cons]
      cases f a <;> simp [ih]

section Maps

variable {α : Type}

theorem isSome_lookup_of_mem {m : List (String × α × Nat)} {k : String} (h : k ∈ mapKeys m) :
    (m.lookup k).isSome = true := by
  by_contra hno
  rw [Bool.not_eq_true, Option.isSome_eq_false_iff, Option.isNone_iff_eq_none,
    List.lookup_eq_none_iff] at hno
  obtain ⟨e, he, rfl⟩ := List.mem_map.mp (List.mem_dedup.mp h)
  simpa using hno e he

variable [DecidableEq α]

/-- **The counters count the changes**, whatever the order of the maps. -/
theorem total_countChanges (orders : MapOrders) (key : α → Nat → String)
    (before after : List α) :
    (countChanges (keyed key before) (keyed key after)).total =
      (changes orders key before after).length := by
  unfold changes ChangeCounts.total countChanges
  dsimp only
  rw [List.length_append, length_filterMap_eq, length_filterMap_eq,
    (orders.perm_new _).countP_eq, (orders.perm_old _).countP_eq]
  congr 1
  · refine (countP_of_disjoint _ fun k hk => ?_).symm
    obtain ⟨a, ha⟩ := Option.isSome_iff_exists.mp (isSome_lookup_of_mem hk)
    unfold newChange
    rw [ha]
    cases (keyed key before).lookup k with
    | none => simp
    | some b =>
        by_cases hab : b.1 = a.1 <;> simp [hab]
  · refine List.countP_congr fun k hk => ?_
    obtain ⟨b, hb⟩ := Option.isSome_iff_exists.mp (isSome_lookup_of_mem hk)
    unfold goneChange
    rw [hb]
    cases (keyed key after).lookup k <;> simp

end Maps

theorem total_indexed_eq_zero {α : Type} [DecidableEq α] : ∀ {before after : List α},
    (countIndexedPolicyChanges before after).total = 0 ↔ before = after := by
  intro before
  induction before with
  | nil =>
      intro after
      cases after <;> simp [countIndexedPolicyChanges, ChangeCounts.total]
  | cons a before ih =>
      intro after
      cases after with
      | nil => simp [countIndexedPolicyChanges, ChangeCounts.total]
      | cons b after =>
          have htail := @ih after
          simp only [countIndexedPolicyChanges, ChangeCounts.total, List.zip_cons_cons,
            List.countP_cons, List.length_cons, List.cons.injEq] at htail ⊢
          by_cases hab : a = b
          · rw [← htail]
            simp [hab]
          · simp [hab]

theorem total_message_eq_zero {α : Type} [DecidableEq α] {before after : α} :
    (countPolicyMessageChange before after).total = 0 ↔ before = after := by
  unfold countPolicyMessageChange
  split
  · next h => exact iff_of_true rfl h
  · next h => exact iff_of_false (by decide) h

theorem total_named_eq_zero {α : Type} [DecidableEq α] {name : α → String} {before after : List α}
    (hb : KeyedBy (fun a i => objectKey (name a) i) (fun a => objectName (name a)) before)
    (ha : KeyedBy (fun a i => objectKey (name a) i) (fun a => objectName (name a)) after) :
    (countNamedPolicyChanges name before after).total = 0 ↔ before.Perm after := by
  rw [countNamedPolicyChanges, total_countChanges .asEntered, List.length_eq_zero_iff]
  exact changes_eq_nil_iff hb ha

/-! ### The order of the rules

The orders are compared as texts, rule ids with a separator between them. Ids do not contain it, so
equal texts are equal orders. -/

/-- Parts without the separator can be told from their join. -/
theorem join_injective {c : Char} : ∀ {parts parts' : List String}, parts ≠ [] → parts' ≠ [] →
    (∀ part ∈ parts, c ∉ part.toList) → (∀ part ∈ parts', c ∉ part.toList) →
    join parts (String.singleton c) = join parts' (String.singleton c) → parts = parts' := by
  intro parts parts' hne hne' hc hc' h
  have hsplit : ∀ {l : List String}, l ≠ [] → (∀ part ∈ l, c ∉ part.toList) →
      splitOn c (join l (String.singleton c)).toList = l.map String.toList := by
    intro l hl hcl
    rw [join, String.toList_intercalate, String.toList_singleton]
    refine splitOn_intercalate (by simpa using hl) fun p hp => ?_
    obtain ⟨part, hpart, rfl⟩ := List.mem_map.mp hp
    exact hcl part hpart
  have hmap : parts.map String.toList = parts'.map String.toList := by
    rw [← hsplit hne hc, ← hsplit hne' hc', h]
  exact (List.map_injective_iff.mpr fun _ _ => String.toList_injective) hmap

theorem nul_notMem_ruleName {r : Rule} (h : ValidRuleID r.id = true) :
    '\x00' ∉ (ruleName r).toList := by
  intro hmem
  rw [ruleName, String.toList_append, List.mem_append] at hmem
  rcases hmem with hmem | hmem
  · revert hmem
    decide
  · have hid := isRuleIDChar_of_ValidRuleID h _ hmem
    revert hid
    decide

section Rules

variable {running candidate : Phragma.Policy} (hr : Validate running = [])
  (hc : Validate candidate = [])

theorem ruleOrder_eq {p : Phragma.Policy} (h : Validate p = []) :
    ruleOrder p.rules = join (p.rules.map ruleName) "\x00" := by
  rw [ruleOrder, (ruleKey_keyed h).map_keys]

include hr hc

/-- **The order is compared** where both policies have the same rule ids. -/
theorem ruleOrder_eq_iff (hperm : running.rules.Perm candidate.rules) :
    ruleOrder running.rules = ruleOrder candidate.rules ↔ running.rules = candidate.rules := by
  refine ⟨fun h => ?_, fun h => by rw [h]⟩
  by_cases hnil : running.rules = []
  · rw [hnil] at hperm
    rw [hnil, hperm.symm.eq_nil]
  · have hnil' : candidate.rules ≠ [] := fun hempty => hnil (hempty ▸ hperm).eq_nil
    rw [ruleOrder_eq hr, ruleOrder_eq hc] at h
    have hnul : ∀ {p : Phragma.Policy}, Validate p = [] →
        ∀ part ∈ p.rules.map ruleName, '\x00' ∉ part.toList := by
      intro p hp part hpart
      obtain ⟨r, hrule, rfl⟩ := List.mem_map.mp hpart
      exact nul_notMem_ruleName ((rules_identified hp).1 r hrule)
    have hnames := join_injective (c := '\x00') (by simpa using hnil) (by simpa using hnil')
      (hnul hr) (hnul hc) h
    exact eq_of_perm_of_map (fun a ha b hb => map_ruleName_injOn hr a ha b
      (hperm.mem_iff.mpr hb)) hnames

theorem total_rules_eq_zero :
    (countRuleIdentityChanges running.rules candidate.rules).total = 0 ↔
      running.rules = candidate.rules := by
  have hkr := ruleKey_keyed hr
  have hkc := ruleKey_keyed hc
  have hzero : (countChanges (keyed ruleKey running.rules) (keyed ruleKey candidate.rules)).total =
      0 ↔ running.rules.Perm candidate.rules := by
    rw [total_countChanges .asEntered, List.length_eq_zero_iff]
    exact changes_eq_nil_iff hkr hkc
  unfold countRuleIdentityChanges
  dsimp only
  split
  · next h =>
      refine iff_of_false (by simp [ChangeCounts.total]) fun heq => ?_
      rw [heq] at h
      simp at h
  · next h =>
      rw [hzero]
      refine ⟨fun hperm => ?_, fun heq => heq ▸ .refl _⟩
      have hsame : sameCandidateKeys (keyed ruleKey running.rules)
          (keyed ruleKey candidate.rules) = true := by
        have hkeys : (mapKeys (keyed ruleKey running.rules)).Perm
            (mapKeys (keyed ruleKey candidate.rules)) := by
          refine (List.perm_ext_iff_of_nodup (List.nodup_dedup _) (List.nodup_dedup _)).mpr
            fun k => ?_
          exact (hkr.mem_mapKeys.trans (hperm.map ruleName).mem_iff).trans hkc.mem_mapKeys.symm
        rw [sameCandidateKeys, Bool.and_eq_true, beq_iff_eq, List.all_eq_true]
        exact ⟨hkeys.length_eq, fun k hk => isSome_lookup_of_mem (hkeys.mem_iff.mp hk)⟩
      have horder : ruleOrder running.rules = ruleOrder candidate.rules := by
        simpa [hsame] using h
      exact (ruleOrder_eq_iff hr hc hperm).mp horder

/-! ### All sections -/

/-- **The summary is empty** exactly when the policies are the same up to the order of their
objects. -/
theorem summaries_eq_nil_iff (H : IdentityHash) :
    candidateChangeSummaries H running candidate = [] ↔
      running.rules = candidate.rules ∧ SameSections running candidate ∧
        running.telemetry = candidate.telemetry ∧ running.proxy = candidate.proxy := by
  -- a section without changes adds no summary, any other does
  have hnil : ∀ (summaries out : List CandidateChangeSummary),
      summaries.foldl appendCandidateChange out = [] ↔
        out = [] ∧ ∀ summary ∈ summaries, summary.counts.total = 0 := by
    intro summaries
    induction summaries with
    | nil => simp
    | cons s summaries ih =>
        intro out
        rw [List.foldl_cons, ih, List.forall_mem_cons, appendCandidateChange]
        split
        · next hzero => simp [hzero]
        · next hzero => simp [hzero]
  have hA := accepted_of_Validate hr
  have hA' := accepted_of_Validate hc
  unfold candidateChangeSummaries
  rw [NormalizeRuleIDs_of_accepted H hr, NormalizeRuleIDs_of_accepted H hc, hnil]
  simp only [sectionCounts, List.forall_mem_cons, List.not_mem_nil, false_implies, implies_true,
    and_true, true_and, total_rules_eq_zero hr hc, total_message_eq_zero, total_indexed_eq_zero,
    total_named_eq_zero hA.zoneKeyed hA'.zoneKeyed,
    total_named_eq_zero hA.addressKeyed hA'.addressKeyed,
    total_named_eq_zero hA.services.keyed hA'.services.keyed,
    total_named_eq_zero hA.applications.keyed hA'.applications.keyed,
    total_named_eq_zero hA.securityProfiles.keyed hA'.securityProfiles.keyed,
    total_named_eq_zero hA.qosProfiles.keyed hA'.qosProfiles.keyed,
    total_named_eq_zero hA.zoneProtections.keyed hA'.zoneProtections.keyed]
  constructor
  · rintro ⟨hrules, h1, h2, h3, h4, h5, h6, h7, h8, h9, h10, h11, h12, h13, hproxy, h14, h15,
      htelemetry⟩
    exact ⟨hrules, ⟨h1, h2, h3, h4, h5, h6, h7, h8, h9, h10, h11, h12, h13, h14, h15⟩, htelemetry,
      hproxy⟩
  · rintro ⟨hrules, h, htelemetry, hproxy⟩
    exact ⟨hrules, h.zones, h.addresses, h.services, h.applications, h.securityProfiles,
      h.qosProfiles, h.zoneProtectionProfiles, h.nat, h.staticRoutes, h.routing, h.vpn, h.network,
      h.hostInput, hproxy, h.ids, h.intel, htelemetry⟩

/-- **What an operator is told of a candidate.** The summary is empty exactly when the policies
are the same up to the order of their objects. It lists changes while the risk summary says that
the candidate matches the running policy exactly when the proxy section is all that differs and
the candidate has no hygiene findings. -/
theorem summaries_cover (H : IdentityHash) (orders : String → MapOrders) :
    (candidateChangeSummaries H running candidate = [] ↔
      running.rules = candidate.rules ∧ SameSections running candidate ∧
        running.telemetry = candidate.telemetry ∧ running.proxy = candidate.proxy) ∧
    (candidateChangeSummaries H running candidate ≠ [] ∧
        noMaterialRisk ∈ (Impact orders running candidate).items ↔
      running.rules = candidate.rules ∧ SameSections running candidate ∧
        running.telemetry = candidate.telemetry ∧ running.proxy ≠ candidate.proxy ∧
        hygieneItems candidate.rules = []) := by
  refine ⟨summaries_eq_nil_iff hr hc H, ?_⟩
  rw [ne_eq, summaries_eq_nil_iff hr hc H, noMaterialRisk_mem_iff, impactItems_eq_nil_iff hr hc]
  constructor
  · rintro ⟨hdiffer, hrules, hhygiene, hsame, htelemetry⟩
    exact ⟨hrules, hsame, htelemetry, fun hproxy => hdiffer ⟨hrules, hsame, htelemetry, hproxy⟩,
      hhygiene⟩
  · rintro ⟨hrules, hsame, htelemetry, hproxy, hhygiene⟩
    exact ⟨fun h => hproxy h.2.2.2, hrules, hhygiene, hsame, htelemetry⟩

end Rules

/-- A candidate that adds a proxy section is listed as changed and reported without risk. -/
theorem summaries_cover_proxy :
    candidateChangeSummaries .zero {} { proxy := some {} } ≠ [] ∧
      noMaterialRisk ∈ (Impact (fun _ => .asEntered) {} { proxy := some {} }).items := by
  have hcover := (@summaries_cover {} { proxy := some {} } (by decide) (by decide) .zero
    fun _ => .asEntered).2
  refine hcover.mpr ⟨rfl, ?_, rfl, by decide, rfl⟩
  exact ⟨.refl _, .refl _, .refl _, .refl _, .refl _, .refl _, .refl _, rfl, rfl, rfl, rfl, rfl,
    rfl, rfl, rfl⟩

end Phragma.Apiserver
