import Phragma.Lib.KeyedDiff
import Phragma.Policy.Accepted
import Phragma.Policy.UniqueIdentity

/-!
# Phragma.Policy.Impact

The risk summary of a candidate (`internal/policy/impact.go`): what has changed against the
running policy, section by section, with a grade for each change, and the highest of them as the
risk of the whole. A commit of high risk has to be acknowledged.

Rules and objects go by a key, and their changes are found through maps (`ruleChanges`,
`objectChanges`, both `Lib.changes`); the orders in which the maps are iterated are a parameter.
The other sections are compared as messages. A policy that is nil is the empty one.

An accepted policy has no two rules of one id and no two objects of one name, so `Lib.KeyedDiff`
says what each section's items mean.
-/

namespace Phragma.Policy

open Lib Go

/-! ### Items

Each change of a policy gives an item with its own risk. The risk of the whole is the highest of
them. -/

/-- `ChangeRisk`, as far as it is given. -/
inductive ChangeRisk
  | low
  | medium
  | high
  deriving DecidableEq, Repr

/-- `riskRank`: the order of the risks. -/
def ChangeRisk.rank : ChangeRisk → Nat
  | .low => 1
  | .medium => 2
  | .high => 3

/-- `ChangeImpactItem`: one finding, as it is shown. -/
structure ChangeImpactItem where
  risk : ChangeRisk
  title : String
  detail : String
  deriving DecidableEq, Repr

/-- `ChangeImpact`: all findings, and their risk. -/
structure ChangeImpact where
  risk : ChangeRisk := .low
  items : List ChangeImpactItem := []
  deriving DecidableEq, Repr

/-- The closure `add`. -/
def ChangeImpact.add (out : ChangeImpact) (item : ChangeImpactItem) : ChangeImpact where
  risk := if out.risk.rank < item.risk.rank then item.risk else out.risk
  items := out.items ++ [item]

/-- `objectKey`, of an object's name. -/
def objectKey (name : String) (i : Nat) : String :=
  if name ≠ "" then "name:" ++ name else "index:" ++ decimal i

/-- `ruleKey`: what a rule is recognized by in the other policy, its id if it has one. -/
def ruleKey (r : Rule) (i : Nat) : String :=
  if r.id ≠ "" then "id:" ++ r.id else objectKey r.name i

/-- `displayName`: the name of an item, or its position. -/
def displayName (name kind : String) (i : Nat) : String :=
  if name ≠ "" then name else kind ++ " #" ++ decimal (i + 1)

/-! ### Rules

A rule that blocks is worth more than one that allows: taking it away is high risk, adding it is
not. What is broad is decided without the applications. -/

/-- `active`: a rule that is not disabled. -/
def active (r : Rule) : Bool := !r.disabled

/-- `allow`: a rule that lets through. -/
def allow (r : Rule) : Bool := r.action == .allow

/-- `block`: a rule that does not. -/
def block (r : Rule) : Bool := r.action == .deny || r.action == .reject

/-- `anyToken`: does a list say nothing, or the wildcard? -/
def anyToken (xs : List String) : Bool := xs.isEmpty || xs.contains Any

/-- `broadRule`: is a rule about everything, its applications and its context apart? -/
def broadRule (r : Rule) : Bool :=
  anyToken r.fromZones && anyToken r.toZones && anyToken r.sourceAddresses &&
    anyToken r.destinationAddresses && anyToken r.services

/-- The item of a change of the rules. -/
def ruleItem : Change Rule → ChangeImpactItem
  | .added r i =>
      let name := displayName r.name "rule" i
      if active r && allow r then
        ⟨if broadRule r then .high else .medium, "New active allow rule",
          name ++ " can permit traffic when committed."⟩
      else if active r && block r then
        ⟨.medium, "New active blocking rule", name ++ " can drop or reject matching traffic."⟩
      else ⟨.low, "New disabled rule", name ++ " is staged but disabled."⟩
  | .removed r i =>
      let name := displayName r.name "rule" i
      if active r && block r then
        ⟨.high, "Removed active blocking rule",
          name ++ " may expose traffic that was previously denied."⟩
      else if active r && allow r then
        ⟨.medium, "Removed active allow rule", name ++ " may interrupt allowed traffic."⟩
      else ⟨.low, "Removed disabled rule", name⟩
  | .modified before after i =>
      let name := displayName after.name "rule" i
      let wasActive := active before
      let nowActive := active after
      if (!wasActive && nowActive && allow after) || (!allow before && allow after) then
        ⟨if broadRule after then .high else .medium, "Rule now allows traffic",
          name ++ " changed to an active allow path."⟩
      else if (allow before && !allow after) || (!wasActive && nowActive && block after) then
        ⟨.high, "Rule can interrupt traffic", name ++ " changed toward deny/reject behavior."⟩
      else if wasActive != nowActive then
        if nowActive then ⟨.medium, "Rule enabled", name⟩ else ⟨.medium, "Rule disabled", name⟩
      else
        ⟨.medium, "Rule match changed",
          name ++ " changed match criteria, action, logging, or description."⟩

/-- `ruleOrderKey`: what a rule is recognized by when orders are compared. -/
def ruleOrderKey (r : Rule) : String :=
  if r.id ≠ "" then "id:" ++ r.id else if r.name ≠ "" then "name:" ++ r.name else ""

/-- `ruleOrderChanged`: the same rules in another order. Where rules were added or removed, or one
cannot be recognized, it says no. -/
def ruleOrderChanged (before after : List Rule) : Bool :=
  if before.length ≠ after.length then false
  else if (before.zip after).any fun x => ruleOrderKey x.1 == "" || ruleOrderKey x.2 == "" then
    false
  else if after.any fun r => !(before.map ruleOrderKey).contains (ruleOrderKey r) then false
  else (before.zip after).any fun x => ruleOrderKey x.1 != ruleOrderKey x.2

/-- `coversDim`: does one list take in all that another does? -/
def coversDim (a b : List String) : Bool :=
  if anyToken a then true else if anyToken b then false else b.all fun x => a.contains x

/-- `ruleCovers`: does one rule take in all that another does? Their contexts are not compared. -/
def ruleCovers (a b : Rule) : Bool :=
  coversDim a.fromZones b.fromZones && coversDim a.toZones b.toZones &&
    coversDim a.sourceAddresses b.sourceAddresses &&
    coversDim a.destinationAddresses b.destinationAddresses && coversDim a.services b.services &&
    coversDim a.applications b.applications

/-- `shadowedRules`: the positions of a rule and of the first active rule before it that covers
it. -/
def shadowedRules (rules : List Rule) : List (Nat × Nat) :=
  rules.zipIdx.filterMap fun (r, i) =>
    if active r then
      ((rules.take i).zipIdx.find? fun (e, _) => active e && ruleCovers e r).map fun e => (i, e.2)
    else none

/-- The name of the rule at a position. -/
def ruleLabel (rules : List Rule) (i : Nat) : String :=
  displayName ((rules[i]?.getD {}).name) "rule" i

/-- `addRuleHygieneImpact`: what is odd about the rules of the candidate, whatever they were
before. -/
def hygieneItems (rules : List Rule) : List ChangeImpactItem :=
  (shadowedRules rules).map (fun (i, by') =>
    ⟨.medium, "Shadowed rule", ruleLabel rules i ++ " is fully covered by earlier rule " ++
      ruleLabel rules by' ++ "; first-match evaluation will not reach it."⟩) ++
  rules.zipIdx.filterMap fun (r, i) =>
    if active r && allow r && broadRule r then
      some ⟨.high, "Active broad allow rule", displayName r.name "rule" i ++
        " permits any source to any destination/service; narrow the match or document the exception before production use."⟩
    else none

/-! ### Objects

Objects are compared by name, kind by kind. What a removed or changed one is worth depends on the
kind. -/

/-- `changeTitle`: the change as a heading. -/
def changeTitle {α : Type} (c : Change α) (noun : String) : String :=
  match c with
  | .added _ _ => "Added " ++ noun
  | .removed _ _ => "Removed " ++ noun
  | .modified _ _ _ => "Modified " ++ noun

/-- The items of the changes of a list of objects. What is graded and described is the object
after the change, or before it where it was removed. -/
def objectItems {α : Type} [DecidableEq α] (orders : MapOrders) (name : α → String)
    (noun kind : String) (grade : α → ChangeRisk × String) (before after : List α) :
    List ChangeImpactItem :=
  (changes orders (fun a i => objectKey (name a) i) before after).map fun c =>
    ⟨(grade c.shown).1, changeTitle c noun,
      displayName (name c.shown) kind c.index ++ (grade c.shown).2⟩

/-- How a change of a security profile is graded. -/
def securityProfileGrade (profile : SecurityProfile) : ChangeRisk × String :=
  if profile.tlsInspection = .decryptionRequired then
    (.high, " declares decryption-required inspection intent; confirm external TLS broker and certificate prerequisites before commit.")
  else
    (.medium, " changes layered TLS/DNS/URL/file inspection intent attached to rules.")

/-! ### Sections

The other sections are compared as wholes, with an item for each thing in them that matters. -/

/-- `hostInputDefault`: what happens to traffic to the firewall that no rule is about. Without the
section everything is allowed. -/
def hostInputDefault (hostInput : Option HostInput) : Action :=
  match hostInput with
  | none => .allow
  | some hi => if hi.defaultAction = .unspecified then .allow else hi.defaultAction

/-- `hasZoneInterface`: has any zone an interface? -/
def hasZoneInterface (zones : List Zone) : Bool := zones.any fun z => !z.interfaces.isEmpty

/-- `intelFeedDisabled`: is a feed switched off that was on? -/
def intelFeedDisabled (before after : Intel) : Bool :=
  after.feeds.any fun f =>
    ((tableOf FeedEnable.name FeedEnable.enabled before.feeds).lookup f.name).getD false &&
      !f.enabled

/-- An item, where there is a reason for it. -/
def itemIf (b : Bool) (risk : ChangeRisk) (title detail : String) : List ChangeImpactItem :=
  if b then [⟨risk, title, detail⟩] else []

/-- The items about the network section. -/
def networkItems (running candidate : Phragma.Policy) : List ChangeImpactItem :=
  if running.network = candidate.network then []
  else
    let was := running.getNetwork.enableFlowOffload
    let now := candidate.getNetwork.enableFlowOffload
    ⟨.high, "Interface/network changed",
      "Interface ownership, MTU, offload, or forwarding acceleration changed."⟩ ::
    if !was && now then
      [⟨.high, "Flowtable fast path enabled", "Established L3/L4 flows can use nftables flowtable acceleration; this profile must not use IDS/IPS inspection."⟩]
    else if was && !now then
      [⟨.medium, "Flowtable fast path disabled",
        "Forwarding returns to the standard nftables/conntrack path."⟩]
    else []

/-- The items about the host-input section. -/
def hostInputItems (running candidate : Phragma.Policy) : List ChangeImpactItem :=
  if running.hostInput = candidate.hostInput then []
  else if hostInputDefault running.hostInput = .deny ∧
      hostInputDefault candidate.hostInput = .allow then
    [⟨.high, "Host input opened",
      "Traffic to the firewall appliance changes from default-deny to default-allow."⟩]
  else if hostInputDefault candidate.hostInput = .deny then
    [⟨.high, "Host input hardened", "Traffic to the firewall appliance is default-deny; confirm management allow rules before commit."⟩]
  else
    [⟨.high, "Host input policy changed",
      "Management-plane access to the firewall appliance changed."⟩]

/-- The items about the inspection section. -/
def idsItems (running candidate : Phragma.Policy) : List ChangeImpactItem :=
  if running.ids = candidate.ids then []
  else if running.getIds.enabled && !candidate.getIds.enabled then
    [⟨.high, "IDS/IPS disabled", "Traffic inspection will stop for this policy."⟩]
  else if candidate.getIds.enabled && candidate.getIds.mode == .prevent then
    [⟨.high, "IPS prevention changed",
      "Inline prevention can drop traffic and depends on fail behavior."⟩]
  else [⟨.medium, "IDS detection changed", "Inspection settings changed."⟩]

/-- The items of all sections, in their order. -/
def impactItems (orders : String → MapOrders) (running candidate : Phragma.Policy) :
    List ChangeImpactItem :=
  (changes (orders "rules") ruleKey running.rules candidate.rules).map ruleItem ++
  itemIf (ruleOrderChanged running.rules candidate.rules) .medium "Rule order changed"
    "Security rules are first-match; order changes can alter verdicts." ++
  hygieneItems candidate.rules ++
  objectItems (orders "zones") Zone.name "zone" "zone" (fun _ => (.high, ""))
    running.zones candidate.zones ++
  objectItems (orders "addresses") Address.name "address object" "address"
    (fun _ => (.medium, "")) running.addresses candidate.addresses ++
  objectItems (orders "services") Service.name "service object" "service"
    (fun _ => (.medium, "")) running.services candidate.services ++
  objectItems (orders "applications") Application.name "application object" "application"
    (fun _ => (.medium, "")) running.applications candidate.applications ++
  objectItems (orders "securityProfiles") SecurityProfile.name "security profile"
    "security profile" securityProfileGrade running.securityProfiles
    candidate.securityProfiles ++
  objectItems (orders "qosProfiles") QosProfile.name "QoS profile" "QoS profile"
    (fun _ => (.medium, " changes plan-only shaping intent; live tc/nft enforcement proof remains hardening."))
    running.qosProfiles candidate.qosProfiles ++
  objectItems (orders "zoneProtectionProfiles") ZoneProtectionProfile.name
    "zone protection profile" "zone protection profile"
    (fun _ => (.high, " changes plan-only DoS/zone-protection intent; live flood enforcement, scale limits, HA sync, and abuse proof remain hardening."))
    running.zoneProtectionProfiles candidate.zoneProtectionProfiles ++
  itemIf (running.nat != candidate.nat) .high "NAT changed"
    "Source or destination translation can redirect production traffic." ++
  itemIf (running.staticRoutes != candidate.staticRoutes) .high "Static routes changed"
    "Routing changes can redirect or blackhole traffic." ++
  itemIf (running.routing != candidate.routing) .high "Dynamic routing changed"
    "FRR/BGP/OSPF behavior can change forwarding paths." ++
  itemIf (running.vpn != candidate.vpn) .high "VPN changed"
    "Tunnel, peer, or cryptographic settings changed." ++
  networkItems running candidate ++ hostInputItems running candidate ++
  idsItems running candidate ++
  itemIf (candidate.getNetwork.enableFlowOffload && candidate.getIds.enabled) .high
    "Flowtable fast path conflicts with IDS/IPS"
    "Offloaded flows can bypass inspection. Disable IDS/IPS or turn off flowtable before commit." ++
  itemIf (candidate.getNetwork.enableFlowOffload && !hasZoneInterface candidate.zones) .high
    "Flowtable fast path needs zone interfaces"
    "Assign at least one interface to a zone before enabling the fast path." ++
  itemIf (running.intel != candidate.intel)
    (if intelFeedDisabled (running.intel.getD {}) (candidate.intel.getD {}) then .high
      else .medium)
    "Threat intel changed" "Feed or content settings changed." ++
  itemIf (running.telemetry != candidate.telemetry) .low "Telemetry changed"
    "Logging or export behavior changed."

/-- `Impact`: the findings about a candidate, or a single one that says that there are none. -/
def Impact (orders : String → MapOrders) (running candidate : Phragma.Policy) : ChangeImpact :=
  let out := (impactItems orders running candidate).foldl ChangeImpact.add {}
  if out.items.isEmpty then
    out.add ⟨.low, "No material policy risk detected",
      "The candidate matches the running policy."⟩
  else out

/-! ### The risk of the whole

The risk is a maximum, so it stays below a rank exactly when every item does (`Below`). -/

/-- A grade of items is below a rank. -/
def Below (n : Nat) (items : List ChangeImpactItem) : Prop := ∀ item ∈ items, item.risk.rank < n

theorem below_append {n : Nat} {items items' : List ChangeImpactItem} :
    Below n (items ++ items') ↔ Below n items ∧ Below n items' := by
  simp only [Below, List.mem_append, or_imp, forall_and]

theorem below_one_iff {items : List ChangeImpactItem} : Below 1 items ↔ items = [] := by
  constructor
  · intro h
    refine List.eq_nil_iff_forall_not_mem.mpr fun item hitem => ?_
    have hrank := h item hitem
    cases hrisk : item.risk <;> simp [hrisk, ChangeRisk.rank] at hrank
  · rintro rfl
    exact fun item hitem => absurd hitem List.not_mem_nil

theorem items_foldl_add (items : List ChangeImpactItem) : ∀ out : ChangeImpact,
    (items.foldl ChangeImpact.add out).items = out.items ++ items := by
  induction items with
  | nil => exact fun out => (List.append_nil _).symm
  | cons item items ih =>
      intro out
      rw [List.foldl_cons, ih]
      simp [ChangeImpact.add]

/-- **The risk of the whole is below a rank when every item is.** -/
theorem rank_foldl_add {n : Nat} (items : List ChangeImpactItem) : ∀ out : ChangeImpact,
    (items.foldl ChangeImpact.add out).risk.rank < n ↔ out.risk.rank < n ∧ Below n items := by
  induction items with
  | nil => exact fun out => ⟨fun h => ⟨h, fun _ hi => absurd hi List.not_mem_nil⟩, And.left⟩
  | cons item items ih =>
      intro out
      rw [List.foldl_cons, ih]
      have hadd : (out.add item).risk.rank < n ↔ out.risk.rank < n ∧ item.risk.rank < n := by
        simp only [ChangeImpact.add]
        split <;> omega
      simp only [hadd, Below, List.mem_cons, forall_eq_or_imp, and_assoc]

section Whole

variable (orders : String → MapOrders) (running candidate : Phragma.Policy)

theorem rank_Impact {n : Nat} (hn : 1 < n) :
    (Impact orders running candidate).risk.rank < n ↔
      Below n (impactItems orders running candidate) := by
  have hfold := rank_foldl_add (n := n) (impactItems orders running candidate) {}
  have hlow : ChangeRisk.low.rank < n := hn
  unfold Impact
  dsimp only
  split
  · next hempty =>
      rw [items_foldl_add, List.nil_append, List.isEmpty_iff] at hempty
      rw [hempty]
      exact iff_of_true hlow fun _ hi => absurd hi List.not_mem_nil
  · rw [hfold]
    exact and_iff_right hlow

theorem Impact_low_iff : (Impact orders running candidate).risk = .low ↔
    Below 2 (impactItems orders running candidate) := by
  rw [← rank_Impact orders running candidate (by decide)]
  cases (Impact orders running candidate).risk <;> decide

theorem Impact_high_iff : (Impact orders running candidate).risk = .high ↔
    ¬ Below 3 (impactItems orders running candidate) := by
  rw [← rank_Impact orders running candidate (by decide)]
  cases (Impact orders running candidate).risk <;> decide

end Whole

end Phragma.Policy
