import Phragma.Lib.Resolve
import Phragma.Policy.Validate

/-!
# Phragma.Policy.Accepted

**What acceptance gives.** A policy for which `Validate` stays quiet has the structure
its consumers rely on: names are unique and usable, no interface is in two zones, every
port and host reference is what it should be. `Accepted` lists these facts and
`accepted_of_Validate` derives them, loop by loop, from the quiet-run rule of
`Lib.Collect`.
-/

namespace Phragma.Policy

open Lib Go

/-! ### Loops over named objects

A loop that collects names in a map complains of a name that is there already. If it is quiet, the
map is the table of the section. -/

theorem tableOf_snoc {α β : Type} (key : α → String) (val : α → β) (l : List α) (a : α) :
    tableOf key val (l ++ [a]) = (key a, val a) :: tableOf key val l := by
  simp [tableOf]

theorem not_mem_of_lookup_tableOf {α β : Type} {key : α → String} {val : α → β} {l : List α}
    {k : String} (h : ((tableOf key val l).lookup k).isSome = false) : k ∉ l.map key := by
  intro hk
  obtain ⟨a, ha, rfl⟩ := List.mem_map.mp hk
  have hnone : (tableOf key val l).lookup (key a) = none := by simpa using h
  rw [List.lookup_eq_none_iff] at hnone
  have hmem : (key a, val a) ∈ tableOf key val l := by
    simp only [tableOf, List.mem_reverse]
    exact List.mem_map.mpr ⟨a, ha, rfl⟩
  simpa using hnone _ hmem

theorem nodup_snoc {l : List String} {k : String} (hl : l.Nodup) (hk : k ∉ l) :
    (l ++ [k]).Nodup := by
  rw [List.nodup_append]
  refine ⟨hl, List.pairwise_singleton _ k, ?_⟩
  intro a ha b hb
  rw [List.mem_singleton.mp hb]
  rintro rfl
  exact hk ha

/-- A quiet object loop enters every object, under distinct and usable names, and each of
them passed its check. -/
theorem collectObjects_quiet {α : Type} {kind : String} {name : α → String}
    {check : α → List String} {keep : α → Bool} {l : List α}
    (hkeep : ∀ a, check a = [] → keep a = true)
    (h : (collectObjects kind name check keep l).1 = []) :
    (collectObjects kind name check keep l).2 = tableOf name id l ∧ (l.map name).Nodup ∧
      ∀ a ∈ l, checkName kind (name a) = [] ∧ check a = [] := by
  refine collect_quiet_all
    (named kind name (fun (m : List (String × α)) n => (m.lookup n).isSome) fun m a =>
      (check a, if keep a then (name a, a) :: m else m)) []
    (fun pre m => m = tableOf name id pre ∧ (pre.map name).Nodup ∧
      ∀ a ∈ pre, checkName kind (name a) = [] ∧ check a = []) ?_ ⟨rfl, List.nodup_nil, by simp⟩ h
  · rintro pre m a ⟨rfl, hnd, hall⟩ hq
    obtain ⟨hname, hseen, hcheck, hsnd⟩ := named_quiet hq
    simp only at hcheck
    refine ⟨?_, ?_, ?_⟩
    · rw [hsnd, tableOf_snoc]
      simp [hkeep a hcheck]
    · rw [List.map_append]
      exact nodup_snoc hnd (not_mem_of_lookup_tableOf hseen)
    · intro b hb
      rcases List.mem_append.mp hb with hb | hb
      · exact hall b hb
      · rw [List.mem_singleton.mp hb]
        exact ⟨hname, hcheck⟩

/-- A quiet loop that only remembers names: distinct and usable names, checks passed. -/
theorem checkEach_quiet {α : Type} {kind : String} {name : α → String} {check : α → List String}
    {l : List α} (h : checkEach kind name check l = []) :
    (l.map name).Nodup ∧ ∀ a ∈ l, checkName kind (name a) = [] ∧ check a = [] := by
  have hrun := collect_quiet_all
    (named kind name (fun (s : List String) n => s.contains n) fun s a => (check a, name a :: s)) []
    (fun pre s => s = (pre.map name).reverse ∧ (pre.map name).Nodup ∧
      ∀ a ∈ pre, checkName kind (name a) = [] ∧ check a = []) ?_ ⟨rfl, List.nodup_nil, by simp⟩ h
  · exact hrun.2
  · rintro pre s a ⟨rfl, hnd, hall⟩ hq
    obtain ⟨hname, hseen, hcheck, hsnd⟩ := named_quiet hq
    refine ⟨?_, ?_, ?_⟩
    · rw [hsnd]
      simp
    · rw [List.map_append]
      refine nodup_snoc hnd ?_
      simpa using hseen
    · intro b hb
      rcases List.mem_append.mp hb with hb | hb
      · exact hall b hb
      · rw [List.mem_singleton.mp hb]
        exact ⟨hname, hcheck⟩

/-! ### Zones

The loop over interfaces is inside the one over zones, and shares its map. -/

/-- A quiet interface loop: the owner map gains exactly the interfaces of the zone, which
are new, distinct and not empty. -/
theorem ifaces_quiet {zone : String} {owner : List (String × String)} {ifaces : List String}
    (hnd : (owner.map Prod.fst).Nodup) (h : (collect (ifaceStep zone) owner ifaces).1 = []) :
    (collect (ifaceStep zone) owner ifaces).2.map Prod.fst =
        ifaces.reverse ++ owner.map Prod.fst ∧
      ((collect (ifaceStep zone) owner ifaces).2.map Prod.fst).Nodup ∧
      ∀ ifc ∈ ifaces, ifc ≠ "" := by
  refine collect_quiet_all (ifaceStep zone) owner
    (fun pre m => m.map Prod.fst = pre.reverse ++ owner.map Prod.fst ∧ (m.map Prod.fst).Nodup ∧
      ∀ ifc ∈ pre, ifc ≠ "") ?_ ⟨by simp, hnd, by simp⟩ h
  · rintro pre m ifc ⟨hm, hnd, hne⟩ hq
    unfold ifaceStep at hq ⊢
    by_cases hifc : ifc = ""
    · simp [hifc] at hq
    · rw [if_neg hifc] at hq ⊢
      cases hl : m.lookup ifc with
      | some other => simp [hl] at hq
      | none =>
          have hnew : ifc ∉ m.map Prod.fst := by
            intro hmem
            obtain ⟨⟨k, v⟩, he, rfl⟩ := List.mem_map.mp hmem
            rw [List.lookup_eq_none_iff] at hl
            simpa using hl _ he
          refine ⟨by simp [hm], List.nodup_cons.mpr ⟨hnew, hnd⟩, ?_⟩
          intro i hi
          rcases List.mem_append.mp hi with hi | hi
          · exact hne i hi
          · rw [List.mem_singleton.mp hi]
            exact hifc

/-- A quiet `collectZones`: zone names are distinct and usable, and no interface occurs
twice. -/
theorem collectZones_quiet {zones : List Zone} (h : (collectZones zones).1 = []) :
    (collectZones zones).2.zones = (zones.map Zone.name).reverse ∧
      (zones.map Zone.name).Nodup ∧ (zones.flatMap Zone.interfaces).Nodup ∧
      ∀ z ∈ zones, checkName "zone" z.name = [] ∧ ∀ ifc ∈ z.interfaces, ifc ≠ "" := by
  have hrun := collect_quiet_all zoneStep {}
    (fun pre s => s.zones = (pre.map Zone.name).reverse ∧
      (pre.map Zone.name).Nodup ∧ s.ifaceOwner.map Prod.fst = (pre.flatMap Zone.interfaces).reverse ∧
      (s.ifaceOwner.map Prod.fst).Nodup ∧
      ∀ z ∈ pre, checkName "zone" z.name = [] ∧ ∀ ifc ∈ z.interfaces, ifc ≠ "")
    ?_ ⟨rfl, List.nodup_nil, rfl, List.nodup_nil, by simp⟩ h
  · obtain ⟨h1, h2, h3, h4, h5⟩ := hrun
    refine ⟨h1, h2, ?_, h5⟩
    have h4' := h4
    rw [h3] at h4'
    exact (List.pairwise_reverse.mp h4').imp fun hne => hne.symm
  · rintro pre s z ⟨hz, hnd, ho, hond, hall⟩ hq
    obtain ⟨hname, hseen, hbody, hsnd⟩ := named_quiet hq
    simp only at hbody
    obtain ⟨hkeys, hnd', hne⟩ := ifaces_quiet hond hbody
    have hnew : z.name ∉ pre.map Zone.name := by simpa [hz] using hseen
    rw [zoneStep, hsnd]
    refine ⟨by simp [hz], ?_, ?_, hnd', ?_⟩
    · rw [List.map_append]
      exact nodup_snoc hnd hnew
    · simp [hkeys, ho]
    · intro b hb
      rcases List.mem_append.mp hb with hb | hb
      · exact hall b hb
      · rw [List.mem_singleton.mp hb]
        exact ⟨hname, hne⟩

/-! ### The facts -/

/-- A section of named objects after a quiet collecting loop: the map of the validator is
the table of the section, names are distinct and usable, and every object passed its
check. -/
structure Section {α : Type} (name : α → String) (check : α → List String) (objects : List α)
    (map : List (String × α)) : Prop where
  map_eq : map = tableOf name id objects
  names : (objects.map name).Nodup
  usable : ∀ a ∈ objects, UsableName (name a)
  checked : ∀ a ∈ objects, check a = []

theorem section_of_quiet {α : Type} {kind : String} {name : α → String}
    {check : α → List String} {keep : α → Bool} {l : List α}
    (hkeep : ∀ a, check a = [] → keep a = true)
    (h : (collectObjects kind name check keep l).1 = []) :
    Section name check l (collectObjects kind name check keep l).2 := by
  obtain ⟨hmap, hnames, hall⟩ := collectObjects_quiet hkeep h
  exact ⟨hmap, hnames, fun a ha => usable_of_checkName (hall a ha).1, fun a ha => (hall a ha).2⟩

/-- What every consumer of an accepted policy may rely on. -/
structure Accepted (p : Phragma.Policy) : Prop where
  zones_eq : (collectAll p).2.zones = (p.zones.map Zone.name).reverse
  zone_names : (p.zones.map Zone.name).Nodup
  zone_usable : ∀ z ∈ p.zones, UsableName z.name
  interfaces : (p.zones.flatMap Zone.interfaces).Nodup
  interface_ne : ∀ z ∈ p.zones, ∀ ifc ∈ z.interfaces, ifc ≠ ""
  addresses_eq : (collectAll p).2.addresses = tableOf Address.name id p.addresses
  address_names : (p.addresses.map Address.name).Nodup
  address_usable : ∀ a ∈ p.addresses, UsableName a.name
  address_cidr : ∀ a ∈ p.addresses, (parsePrefix a.cidr).isSome
  services_eq : (collectAll p).2.services = tableOf Service.name id p.services
  service_ok : ∀ s ∈ p.services, checkService s = []
  services : Section Service.name checkService p.services (collectAll p).2.services
  application_ok : ∀ app ∈ p.applications, checkApplication app = []
  applications : Section Application.name checkApplication p.applications (collectAll p).2.apps
  securityProfiles : Section SecurityProfile.name checkSecurityProfile p.securityProfiles
    (collectAll p).2.securityProfiles
  qosProfiles : Section QosProfile.name checkQoSProfile p.qosProfiles (collectAll p).2.qosProfiles
  zoneProtections : Section ZoneProtectionProfile.name checkZoneProtectionProfile
    p.zoneProtectionProfiles (collectAll p).2.zoneProtections
  zoneProtection_ok : checkZoneProtectionRefs (collectAll p).2 p.zones = []
  rule_ok : ∀ r ∈ p.rules, ∃ s, (checkRule (collectAll p).2 p.getIds s r).1 = []
  hostInput_default : ∀ hi, p.hostInput = some hi →
    hi.defaultAction = .unspecified ∨ hi.defaultAction = .allow ∨ hi.defaultAction = .deny
  hostInput_ok : ∀ hi, p.hostInput = some hi →
    ∀ r ∈ hi.rules, checkHostInputRule (collectAll p).2 r = []
  source_ok : ∀ sn ∈ p.getNat.source, checkSourceNat (collectAll p).2 sn = []
  destination_ok : ∀ dn ∈ p.getNat.destination, checkDestinationNat (collectAll p).2 dn = []
  ids_ok : checkIDs (collectAll p).2 p.getIds = []
  route_ok : checkRoutes p.staticRoutes = []
  bgp_ok : checkBgp p.getBgp = []
  ospf_ok : checkOspf p.getOspf = []
  ipsec_ok : ∀ t ∈ p.getVpn.ipsecTunnels, checkIpsecTunnel t = []
  wireguard_ok : ∀ w ∈ p.getVpn.wireguardInterfaces,
    badInterfaceName w.name = false ∧ checkWireguardInterface w = []
  network_ok : checkNetwork p p.network = []

/-- A quiet WireGuard loop: every interface has a usable name and passed its check. -/
theorem wireguard_quiet {l : List WireguardInterface} (h : (collect wireguardStep [] l).1 = [])
    {w : WireguardInterface} (hw : w ∈ l) :
    badInterfaceName w.name = false ∧ checkWireguardInterface w = [] := by
  obtain ⟨seen, hq⟩ := collect_quiet_mem h hw
  unfold wireguardStep at hq
  cases hname : badInterfaceName w.name with
  | true => simp [hname] at hq
  | false =>
      cases hseen : seen.contains w.name with
      | true => simp [hname, List.contains_iff_mem.mp hseen] at hq
      | false =>
          rw [hname, hseen] at hq
          exact ⟨rfl, hq⟩

/-- **Acceptance gives structure.** -/
theorem accepted_of_Validate {p : Phragma.Policy} (h : Validate p = []) : Accepted p := by
  unfold Validate at h
  simp only [List.append_eq_nil_iff] at h
  -- each check of `Validate` is quiet; every field below comes from one of them
  obtain ⟨⟨⟨⟨⟨⟨⟨⟨⟨⟨hobj, hprot⟩, hrules⟩, hnat⟩, hroutes⟩, hids⟩, hrouting⟩, hvpn⟩, hnet⟩,
    hhost⟩, -⟩ := h
  unfold collectAll at hobj
  simp only [List.append_eq_nil_iff] at hobj
  obtain ⟨⟨⟨⟨⟨⟨hz, ha⟩, hs⟩, happ⟩, hsec⟩, hqos⟩, hzp⟩ := hobj
  obtain ⟨hz1, hz2, hz3, hz4⟩ := collectZones_quiet hz
  obtain ⟨ha1, ha2, ha3⟩ := collectObjects_quiet (by
    intro a hcheck
    cases hp : parsePrefix a.cidr with
    | none => simp [errIf, hp] at hcheck
    | some pfx => rfl) ha
  have hservices := section_of_quiet (fun _ _ => rfl) hs
  have happs := section_of_quiet (fun _ _ => rfl) happ
  unfold checkNat at hnat
  rw [List.append_eq_nil_iff] at hnat
  unfold checkRouting at hrouting
  rw [List.append_eq_nil_iff] at hrouting
  unfold checkVPN at hvpn
  rw [List.append_eq_nil_iff] at hvpn
  refine {
    zones_eq := hz1
    zone_names := hz2
    zone_usable := fun z hz => usable_of_checkName (hz4 z hz).1
    interfaces := hz3
    interface_ne := fun z hz => (hz4 z hz).2
    addresses_eq := ha1
    address_names := ha2
    address_usable := fun a ha => usable_of_checkName (ha3 a ha).1
    address_cidr := ?_
    services_eq := hservices.map_eq
    service_ok := hservices.checked
    services := hservices
    application_ok := happs.checked
    applications := happs
    securityProfiles := section_of_quiet (fun _ _ => rfl) hsec
    qosProfiles := section_of_quiet (fun _ _ => rfl) hqos
    zoneProtections := section_of_quiet (fun _ _ => rfl) hzp
    zoneProtection_ok := hprot
    rule_ok := ?_
    hostInput_default := ?_
    hostInput_ok := ?_
    source_ok := fun sn hsn => ((checkEach_quiet hnat.1).2 sn hsn).2
    destination_ok := fun dn hdn => ((checkEach_quiet hnat.2).2 dn hdn).2
    ids_ok := hids
    route_ok := hroutes
    bgp_ok := hrouting.1
    ospf_ok := hrouting.2
    ipsec_ok := fun t ht => ((checkEach_quiet hvpn.1).2 t ht).2
    wireguard_ok := fun w hw => wireguard_quiet hvpn.2 hw
    network_ok := hnet }
  · intro a haddr
    have hcheck := (ha3 a haddr).2
    cases hp : parsePrefix a.cidr with
    | none => simp [errIf, hp] at hcheck
    | some pfx => rfl
  · intro r hr
    obtain ⟨s, hq⟩ := collect_quiet_mem hrules hr
    exact ⟨s, (named_quiet hq).2.2.1⟩
  · intro hi hhi
    simp only [hhi, checkHostInput, List.append_eq_nil_iff] at hhost
    have hdefault := hhost.1.1
    cases ha : hi.defaultAction with
    | unspecified => exact .inl rfl
    | allow => exact .inr (.inl rfl)
    | deny => exact .inr (.inr rfl)
    | reject => simp [errIf, ha] at hdefault
    | unrecognized n => simp [errIf, ha] at hdefault
  · intro hi hhi r hr
    simp only [hhi, checkHostInput, List.append_eq_nil_iff] at hhost
    exact ((checkEach_quiet hhost.2).2 r hr).2

/-- The names of the rules of an accepted policy are distinct. -/
theorem rule_names_nodup {p : Phragma.Policy} (h : Validate p = []) :
    (p.rules.map Rule.name).Nodup := by
  unfold Validate at h
  simp only [List.append_eq_nil_iff] at h
  obtain ⟨⟨⟨⟨⟨⟨⟨⟨⟨-, hrules⟩, -⟩, -⟩, -⟩, -⟩, -⟩, -⟩, -⟩, -⟩ := h
  unfold checkRules at hrules
  have hrun := collect_quiet_all (named "rule" Rule.name
      (fun (s : RuleState) n => s.seen.contains n) (checkRule (collectAll p).2 p.getIds)) {}
    (fun pre s => s.seen = (pre.map Rule.name).reverse ∧ (pre.map Rule.name).Nodup) ?_
    ⟨rfl, List.nodup_nil⟩ hrules
  · exact hrun.2
  · rintro pre s r ⟨hseen, hnd⟩ hq
    obtain ⟨-, hnew, -, hsnd⟩ := named_quiet hq
    rw [hsnd]
    refine ⟨?_, ?_⟩
    · simp [checkRule, hseen]
    · rw [List.map_append]
      refine nodup_snoc hnd ?_
      rw [hseen] at hnew
      simpa using hnew

/-- The checks a rule of an accepted policy passed, section by section. -/
structure CheckedRule (v : Objects) (ids : Ids) (r : Rule) : Prop where
  action : r.action ≠ .unspecified
  fromZones : checkZoneRefs v ("rule " ++ quote r.name) r.fromZones = []
  toZones : checkZoneRefs v ("rule " ++ quote r.name) r.toZones = []
  sources : checkAddressRefs v ("rule " ++ quote r.name) r.sourceAddresses = []
  destinations : checkAddressRefs v ("rule " ++ quote r.name) r.destinationAddresses = []
  services : checkServiceRefs v ("rule " ++ quote r.name) r.services = []
  applications : checkApplicationRefs v ("rule " ++ quote r.name) r.applications = []
  profiles : (checkSecurityProfileRefs v ("rule " ++ quote r.name) r.securityProfiles).1 = []
  qosProfile : checkQosRef v ("rule " ++ quote r.name) r = []
  dimensions : checkRuleApplications v ("rule " ++ quote r.name) ids r = []
  context : checkRuleMatchContext ("rule " ++ quote r.name) r.matchContext = []

theorem Accepted.rule {p : Phragma.Policy} (hA : Accepted p) {r : Rule} (hr : r ∈ p.rules) :
    CheckedRule (collectAll p).2 p.getIds r := by
  obtain ⟨s, hcheck⟩ := hA.rule_ok r hr
  unfold checkRule at hcheck
  simp only [List.append_eq_nil_iff] at hcheck
  obtain ⟨⟨⟨⟨⟨⟨⟨⟨⟨⟨⟨⟨⟨-, haction⟩, hfrom⟩, hto⟩, hsrc⟩, hdst⟩, hsvc⟩, happ⟩, hprof⟩, hqos⟩, -⟩,
    hdim⟩, hctx⟩, -⟩ := hcheck
  refine ⟨?_, hfrom, hto, hsrc, hdst, hsvc, happ, hprof, hqos, hdim, hctx⟩
  intro hunset
  simp [errIf, hunset] at haction

end Phragma.Policy
