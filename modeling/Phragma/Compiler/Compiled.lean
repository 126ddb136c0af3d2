import Phragma.Policy.Accepted
import Phragma.Compiler.Compile

/-!
# Phragma.Compiler.Compiled

**What a successful compilation gives.** `Compiled` inverts `compileValid` once: the
tables and, section by section, the element-wise relation between the policy and the
IR. Later proofs take their facts from here and never unfold the pass.
-/

namespace Phragma.Compiler

open Lib Go Policy

/-! ### Tables

The tables of the compiler and those of the validator are filled from the same lists. These lemmas
lead a lookup in a table back to the object of the policy. -/

/-- The address map does not depend on the error text, and exists when every CIDR
parses. -/
theorem addressIndex_eq {err : Address → String} : ∀ {as : List Address}
    {m : List (String × Prefix)}, (∀ a ∈ as, (parsePrefix a.cidr).isSome) →
    addressIndex err m as =
      .ok ((as.filterMap fun a => (parsePrefix a.cidr).map fun pfx => (a.name, pfx)).reverse ++ m) := by
  intro as
  induction as with
  | nil => intro m _; rfl
  | cons a as ih =>
      intro m h
      obtain ⟨pfx, hpfx⟩ := Option.isSome_iff_exists.mp (h a List.mem_cons_self)
      simp only [addressIndex, hpfx]
      rw [ih (fun b hb => h b (List.mem_cons_of_mem _ hb))]
      simp [hpfx]

/-- A lookup in the address map is a lookup of the object, then a parse. -/
theorem addressIndex_lookup {err : Address → String} {as : List Address}
    {m : List (String × Prefix)} (h : addressIndex err [] as = .ok m)
    (hall : ∀ a ∈ as, (parsePrefix a.cidr).isSome) (k : String) :
    m.lookup k = ((tableOf Address.name id as).lookup k).bind fun a => parsePrefix a.cidr := by
  rw [addressIndex_eq hall] at h
  cases h
  rw [List.append_nil]
  simp only [tableOf, ← List.filterMap_reverse, ← List.map_reverse]
  have hall' : ∀ a ∈ as.reverse, (parsePrefix a.cidr).isSome := fun a ha =>
    hall a (List.mem_reverse.mp ha)
  generalize as.reverse = l at hall'
  induction l with
  | nil => rfl
  | cons a l ih =>
      obtain ⟨pfx, hpfx⟩ := Option.isSome_iff_exists.mp (hall' a List.mem_cons_self)
      have hrest := ih fun b hb => hall' b (List.mem_cons_of_mem _ hb)
      simp only [List.filterMap_cons, hpfx, Option.map_some, List.map_cons, List.lookup_cons, id_eq]
      cases k == a.name with
      | true => simp [hpfx]
      | false => simpa using hrest

/-- The service table against the services of the policy: a match found under a name is
that of the service found under it. -/
theorem services_lookup {services : List Service} {svcs : List (String × ServiceMatch)}
    (h : List.Forall₂ (fun s (m : String × ServiceMatch) => m.1 = s.name ∧
      serviceMatch s = .ok m.2) services svcs) (k : String) :
    (svcs.reverse.lookup k = none ∧ (tableOf Service.name id services).lookup k = none) ∨
      ∃ s m, svcs.reverse.lookup k = some m ∧
        (tableOf Service.name id services).lookup k = some s ∧ s ∈ services ∧
        serviceMatch s = .ok m := by
  have hmem : ∀ {s : Service}, (tableOf Service.name id services).lookup k = some s →
      s ∈ services := by
    intro s hs
    obtain ⟨s', hs', -, rfl⟩ := exists_of_lookup_tableOf hs
    exact hs'
  have hrev := List.rel_reverse h
  have key : (svcs.reverse.lookup k = none ∧ (tableOf Service.name id services).lookup k = none) ∨
      ∃ s m, svcs.reverse.lookup k = some m ∧
        (tableOf Service.name id services).lookup k = some s ∧ serviceMatch s = .ok m := by
    simp only [tableOf, ← List.map_reverse, id_eq]
    generalize svcs.reverse = ms at hrev
    generalize services.reverse = ss at hrev
    induction hrev with
    | nil => exact .inl ⟨rfl, rfl⟩
    | @cons s m ss ms hsm _ ih =>
        obtain ⟨n, m⟩ := m
        obtain ⟨rfl, hm⟩ := hsm
        simp only [List.map_cons, List.lookup_cons]
        cases k == s.name with
        | true => exact .inr ⟨s, m, rfl, rfl, hm⟩
        | false => exact ih
  rcases key with hnone | ⟨s, m, hm, hs, hsm⟩
  · exact .inl hnone
  · exact .inr ⟨s, m, hm, hs, hmem hs, hsm⟩

/-! ### The pass

`compileValid` is a chain of binds. It is taken apart here, and nowhere else. -/

/-- The tables of a policy. The addresses are left as the parse that built them, for the reading of
CIDRs depends on nothing else. -/
structure TablesOf (p : Phragma.Policy) (c : Compilation) : Prop where
  zoneIfaces : c.zoneIfaces = tableOf Zone.name Zone.interfaces p.zones
  addrs : ∃ err, addressIndex err [] p.addresses = .ok c.addrs
  svcs : ∃ svcs, c.svcs = svcs.reverse ∧ List.Forall₂ (fun s (m : String × ServiceMatch) =>
    m.1 = s.name ∧ serviceMatch s = .ok m.2) p.services svcs
  apps : c.apps = tableOf Application.name id p.applications
  securityProfiles : c.securityProfiles = tableOf SecurityProfile.name id p.securityProfiles
  qosProfiles : c.qosProfiles = tableOf QosProfile.name id p.qosProfiles
  zoneProtections : c.zoneProtections =
    tableOf ZoneProtectionProfile.name id p.zoneProtectionProfiles

/-- What is built for a policy are its tables. -/
theorem tablesOf_newCompilation {p : Phragma.Policy} {c : Compilation}
    (h : newCompilation p = .ok c) : TablesOf p c := by
  unfold newCompilation at h
  obtain ⟨addrs, haddrs, h⟩ := bind_ok.mp h
  obtain ⟨svcs, hsvcs, h⟩ := bind_ok.mp h
  cases h
  refine ⟨rfl, ⟨_, haddrs⟩, ⟨svcs, rfl, ?_⟩, rfl, rfl, rfl, rfl⟩
  refine (mapM_ok.mp hsvcs).imp ?_
  intro s m hm
  obtain ⟨m', hm', hm⟩ := bind_ok.mp hm
  cases hm
  exact ⟨rfl, hm'⟩

/-- The element-wise relation between a policy, the tables and the IR. -/
structure Compiled (p : Phragma.Policy) (c : Compilation) (ir : IR) : Prop
    extends TablesOf p c where
  zones : ir.zones = p.zones.map fun z => ⟨z.name, z.interfaces, z.zoneProtectionProfile⟩
  rules : List.Forall₂ (fun r ir => compileRule c r = .ok ir)
    (p.rules.filter fun r => !r.disabled) ir.rules
  hostInput : compileHostInput c p.hostInput = .ok (ir.hostInputDefault, ir.hostInputRules)
  snat : List.Forall₂ (fun sn ir => compileSNAT c sn = .ok ir) p.getNat.source ir.snat
  dnat : List.Forall₂ (fun dn ir => compileDNAT c dn = .ok ir) p.getNat.destination ir.dnat
  routes : List.Forall₂ (fun sr ir => compileRoute sr = .ok ir) p.staticRoutes ir.routes
  ids : compileIDs p c.addrs = .ok ir.ids
  routing : compileRouting p.getBgp p.getOspf = .ok ir.routing
  vpn : compileVPN p.getVpn = .ok ir.vpn
  controls : ir.appIDControls = compileAppIDControls ir.rules ir.ids
  qos : ir.qosControls = compileQoSControls ir.rules c.qosProfiles
  protections : ir.zoneProtections = compileZoneProtections ir.zones c.zoneProtections
  telemetry : ir.telemetry = compileTelemetry p.getTelemetry
  network : ir.network = compileNetwork p ir.ids
  intel : ir.intel = compileIntel p
  proxy : ir.proxy = compileProxy p

/-- **The inversion of the pass.** -/
theorem compiled_of_compileValid {p : Phragma.Policy} {ir : IR} (h : compileValid p = .ok ir) :
    ∃ c, Compiled p c ir := by
  unfold compileValid at h
  obtain ⟨c, hc, h⟩ := bind_ok.mp h
  obtain ⟨rules, hrules, h⟩ := bind_ok.mp h
  obtain ⟨host, hhost, h⟩ := bind_ok.mp h
  obtain ⟨snat, hsnat, h⟩ := bind_ok.mp h
  obtain ⟨dnat, hdnat, h⟩ := bind_ok.mp h
  obtain ⟨routes, hroutes, h⟩ := bind_ok.mp h
  obtain ⟨ids, hids, h⟩ := bind_ok.mp h
  obtain ⟨routing, hrouting, h⟩ := bind_ok.mp h
  obtain ⟨vpn, hvpn, h⟩ := bind_ok.mp h
  cases h
  exact ⟨c, {
    toTablesOf := tablesOf_newCompilation hc
    zones := rfl
    rules := mapM_ok.mp hrules
    hostInput := hhost
    snat := mapM_ok.mp hsnat
    dnat := mapM_ok.mp hdnat
    routes := mapM_ok.mp hroutes
    ids := hids
    routing := hrouting
    vpn := hvpn
    controls := rfl
    qos := rfl
    protections := rfl
    telemetry := rfl
    network := rfl
    intel := rfl
    proxy := rfl }⟩

/-- The rules generated for Suricata, by the tables the rules were compiled with. -/
theorem generated_of_compileValid {p : Phragma.Policy} {ir : IR} (h : compileValid p = .ok ir) :
    ∃ c, Compiled p c ir ∧ ir.appIDDrops = compileAppIDDrops ir.appIDControls ∧
      ir.securityProfileRules = compileSecurityProfileRules ir.rules ir.ids c.securityProfiles := by
  obtain ⟨c, hC⟩ := compiled_of_compileValid h
  unfold compileValid at h
  obtain ⟨c', hc', h⟩ := bind_ok.mp h
  have hprofiles : c.securityProfiles = c'.securityProfiles :=
    hC.securityProfiles.trans (tablesOf_newCompilation hc').securityProfiles.symm
  obtain ⟨rules, -, h⟩ := bind_ok.mp h
  obtain ⟨host, -, h⟩ := bind_ok.mp h
  obtain ⟨snat, -, h⟩ := bind_ok.mp h
  obtain ⟨dnat, -, h⟩ := bind_ok.mp h
  obtain ⟨routes, -, h⟩ := bind_ok.mp h
  obtain ⟨ids, -, h⟩ := bind_ok.mp h
  obtain ⟨routing, -, h⟩ := bind_ok.mp h
  obtain ⟨vpn, -, h⟩ := bind_ok.mp h
  cases h
  exact ⟨c, hC, rfl, hprofiles ▸ rfl⟩

/-- `Compile` succeeds on the normalized policy, once that is accepted. -/
theorem Compile_ok {H : IdentityHash} {p : Phragma.Policy} {ir : IR} (h : Compile H p = .ok ir) :
    Validate (normalizeIdentities H p) = [] ∧ ∃ c, Compiled (normalizeIdentities H p) c ir := by
  unfold Compile at h
  simp only at h
  split at h
  · rename_i hv
    exact ⟨hv, compiled_of_compileValid h⟩
  · cases h

/-- The same of a policy that is normalized first. -/
theorem generated_of_Compile {H : IdentityHash} {p : Phragma.Policy} {ir : IR}
    (h : Compile H p = .ok ir) :
    ∃ c, Compiled (normalizeIdentities H p) c ir ∧
      ir.appIDDrops = compileAppIDDrops ir.appIDControls ∧
      ir.securityProfileRules = compileSecurityProfileRules ir.rules ir.ids c.securityProfiles := by
  unfold Compile at h
  simp only at h
  split at h
  · exact generated_of_compileValid h
  · cases h

/-- The inspection section exists only where it is enabled, in the mode the policy
sets. -/
theorem compileIDs_ok {p : Phragma.Policy} {addrs : List (String × Prefix)} {ids : IDsIR}
    (h : compileIDs p addrs = .ok (some ids)) :
    p.getIds.enabled = true ∧ ids.prevent = (p.getIds.mode == .prevent) ∧
      ids.failOpen = (p.getIds.mode == .prevent && p.getIds.failureBehavior == .failOpen) ∧
      ids.interfaces = idsInterfaces p := by
  unfold compileIDs at h
  cases he : p.getIds.enabled with
  | false => simp [he] at h
  | true =>
      simp only [he, Bool.not_true, Bool.false_eq_true, if_false] at h
      split at h
      · cases h
      · obtain ⟨homeNets, -, h⟩ := bind_ok.mp h
        obtain ⟨exceptions, -, h⟩ := bind_ok.mp h
        cases h
        exact ⟨rfl, rfl, rfl, rfl⟩

/-- The exceptions of the inspection section are those of the policy that are not disabled. -/
theorem compileIDs_exceptions {p : Phragma.Policy} {addrs : List (String × Prefix)} {ids : IDsIR}
    (h : compileIDs p addrs = .ok (some ids)) :
    List.Forall₂ (fun e ex => compileIDSException addrs e = .ok ex)
      (p.getIds.exceptions.filter fun e => !e.disabled) ids.exceptions := by
  unfold compileIDs at h
  simp only at h
  split at h
  · cases h
  · split at h
    · cases h
    · obtain ⟨homeNets, -, h⟩ := bind_ok.mp h
      obtain ⟨exceptions, hexceptions, h⟩ := bind_ok.mp h
      cases h
      exact mapM_ok.mp hexceptions

/-- There is no inspection section only where inspection is not enabled. -/
theorem compileIDs_none {p : Phragma.Policy} {addrs : List (String × Prefix)}
    (h : compileIDs p addrs = .ok none) : ¬ p.getIds.enabled = true := by
  intro he
  unfold compileIDs at h
  simp only [he, Bool.not_true, Bool.false_eq_true, if_false] at h
  split at h
  · cases h
  · obtain ⟨homeNets, -, h⟩ := bind_ok.mp h
    obtain ⟨exceptions, -, h⟩ := bind_ok.mp h
    cases h

/-- Without an enabled feed there is no threat-intel section. -/
theorem compileIntel_none {p : Phragma.Policy} (h : ∀ intel, p.intel = some intel →
    intel.customFeeds = [] ∧ ∀ f ∈ intel.feeds, f.enabled = false) : compileIntel p = none := by
  unfold compileIntel
  cases hi : p.intel with
  | none => rfl
  | some intel =>
      obtain ⟨hcustom, hfeeds⟩ := h intel hi
      have hany : intel.feeds.any FeedEnable.enabled = false := by
        rw [List.any_eq_false]
        intro f hf
        rw [hfeeds f hf]
        decide
      simp [hcustom, hany]

/-- A service match found under a name is that of a validated service of the policy. -/
theorem service_of_lookup {p : Phragma.Policy} (hA : Accepted p) {c : Compilation}
    (hC : TablesOf p c) {ref : String} {m : ServiceMatch} (h : c.svcs.lookup ref = some m) :
    ∃ s, (tableOf Service.name id p.services).lookup ref = some s ∧ checkService s = [] ∧
      serviceMatch s = .ok m := by
  obtain ⟨svcs, hsvcs, hall⟩ := hC.svcs
  rw [hsvcs] at h
  rcases services_lookup hall ref with ⟨hnone, -⟩ | ⟨s, m', hm', hs, hmem, hsm⟩
  · rw [hnone] at h
    cases h
  · rw [hm'] at h
    cases h
    exact ⟨s, hs, hA.service_ok s hmem, hsm⟩

/-! ### Zones

What a rule says about zones against the interfaces it compiles to. An empty list of interfaces is
ambiguous: it is the wildcard, or zones without interfaces. -/

/-- **What a zone list resolves to**, when it names zones only: the interfaces of the
named zones. -/
theorem mem_resolveIfaces {p : Phragma.Policy} (hnames : (p.zones.map Zone.name).Nodup)
    {c : Compilation} (hc : c.zoneIfaces = tableOf Zone.name Zone.interfaces p.zones)
    {refs out : List String} (h : resolveIfaces c refs = .ok out) (hany : Any ∉ refs)
    (ifc : String) :
    ifc ∈ out ↔ ∃ z ∈ p.zones, z.name ∈ refs ∧ ifc ∈ z.interfaces := by
  unfold resolveIfaces at h
  rw [hc] at h
  rcases resolveRefs_ok h with ⟨habs, -⟩ | ⟨-, hall, rfl⟩
  · exact absurd habs hany
  · rw [List.nil_append, List.mem_flatMap]
    constructor
    · rintro ⟨r, hr, hin⟩
      obtain ⟨ifs, hifs⟩ := Option.isSome_iff_exists.mp (hall r hr)
      rw [hifs, Option.getD_some] at hin
      obtain ⟨z, hz, rfl, rfl⟩ := exists_of_lookup_tableOf hifs
      exact ⟨z, hz, hr, hin⟩
    · rintro ⟨z, hz, hr, hin⟩
      refine ⟨z.name, hr, ?_⟩
      rw [lookup_tableOf_of_mem hnames hz, Option.getD_some]
      exact hin

/-- Every name of a zone list that resolves is a zone or the wildcard. -/
theorem zone_of_resolveIfaces {p : Phragma.Policy} {c : Compilation}
    (hc : c.zoneIfaces = tableOf Zone.name Zone.interfaces p.zones) {refs out : List String}
    (h : resolveIfaces c refs = .ok out) (hany : Any ∉ refs) {r : String} (hr : r ∈ refs) :
    ∃ z ∈ p.zones, z.name = r := by
  unfold resolveIfaces at h
  rw [hc] at h
  rcases resolveRefs_ok h with ⟨habs, -⟩ | ⟨-, hall, -⟩
  · exact absurd habs hany
  · obtain ⟨ifs, hifs⟩ := Option.isSome_iff_exists.mp (hall r hr)
    obtain ⟨z, hz, hname, -⟩ := exists_of_lookup_tableOf hifs
    exact ⟨z, hz, hname⟩

/-- The wildcard resolves to the empty list. -/
theorem resolveIfaces_any {c : Compilation} {refs out : List String}
    (h : resolveIfaces c refs = .ok out) (hany : refs = [] ∨ Any ∈ refs) : out = [] := by
  unfold resolveIfaces at h
  rcases hany with rfl | hany
  · cases h
    rfl
  · rcases resolveRefs_ok h with ⟨-, rfl⟩ | ⟨hno, -, -⟩
    · rfl
    · exact absurd hany hno

/-! ### Addresses

The same for addresses. Here an empty list only ever means any address, since every object has a
prefix. -/

/-- The prefix an address reference resolves to is the CIDR of the address object. -/
theorem lookup_addrs {p : Phragma.Policy} (hA : Accepted p) {c : Compilation} (hT : TablesOf p c)
    (ref : String) : c.addrs.lookup ref =
      ((tableOf Address.name id p.addresses).lookup ref).bind fun a => parsePrefix a.cidr := by
  obtain ⟨err, haddrs⟩ := hT.addrs
  exact addressIndex_lookup haddrs hA.address_cidr ref

/-- The table of addresses, said by the objects. -/
theorem lookup_addrs_iff {p : Phragma.Policy} (hA : Accepted p) {c : Compilation}
    (hT : TablesOf p c) {ref : String} {pfx : Prefix} :
    c.addrs.lookup ref = some pfx ↔
      ∃ a ∈ p.addresses, a.name = ref ∧ parsePrefix a.cidr = some pfx := by
  rw [lookup_addrs hA hT, Option.bind_eq_some_iff]
  constructor
  · rintro ⟨a, ha, hpfx⟩
    obtain ⟨a, hmem, rfl, rfl⟩ := exists_of_lookup_tableOf ha
    exact ⟨a, hmem, rfl, hpfx⟩
  · rintro ⟨a, hmem, rfl, hpfx⟩
    exact ⟨a, lookup_tableOf_of_mem hA.address_names hmem, hpfx⟩

/-- **What an address list resolves to**, when it names addresses only: the prefixes of the
named objects. -/
theorem mem_resolvePrefixes {p : Phragma.Policy} (hA : Accepted p) {c : Compilation}
    (hT : TablesOf p c) {refs : List String} {out : List Prefix}
    (h : resolvePrefixes c refs = .ok out) (hany : Any ∉ refs) (pfx : Prefix) :
    pfx ∈ out ↔ ∃ a ∈ p.addresses, a.name ∈ refs ∧ parsePrefix a.cidr = some pfx := by
  unfold resolvePrefixes at h
  rcases resolveRefs_ok h with ⟨habs, -⟩ | ⟨-, -, rfl⟩
  · exact absurd habs hany
  · rw [List.nil_append, List.mem_flatMap]
    constructor
    · rintro ⟨r, hr, hin⟩
      cases hl : c.addrs.lookup r with
      | none => simp [hl] at hin
      | some q =>
          have hq : q = pfx := by simpa [hl, eq_comm] using hin
          obtain ⟨a, hmem, rfl, hpfx⟩ := (lookup_addrs_iff hA hT).mp hl
          exact ⟨a, hmem, hr, hq ▸ hpfx⟩
    · rintro ⟨a, hmem, hr, hpfx⟩
      refine ⟨a.name, hr, ?_⟩
      rw [(lookup_addrs_iff hA hT).mpr ⟨a, hmem, rfl, hpfx⟩]
      simp

/-- The prefixes of an address list are missing exactly when the list is unrestricted. -/
theorem resolvePrefixes_eq_nil {c : Compilation} {refs : List String} {out : List Prefix}
    (h : resolvePrefixes c refs = .ok out) : out = [] ↔ refs = [] ∨ Any ∈ refs := by
  unfold resolvePrefixes at h
  rcases resolveRefs_ok h with ⟨habs, rfl⟩ | ⟨hany, hall, rfl⟩
  · simp [habs]
  · simp only [List.nil_append, List.flatMap_eq_nil_iff, hany, or_false]
    constructor
    · intro hnil
      rw [List.eq_nil_iff_forall_not_mem]
      intro r hr
      obtain ⟨xs, hxs⟩ := Option.isSome_iff_exists.mp (hall r hr)
      have hempty := hnil r hr
      rw [hxs, Option.getD_some] at hempty
      cases hl : c.addrs.lookup r with
      | none => simp [hl] at hxs
      | some q =>
          simp only [hl, Option.map_some, Option.some.injEq] at hxs
          rw [← hxs] at hempty
          cases hempty
    · rintro rfl
      simp

/-! ### Applications

The loop stops at the first wildcard, so what it reads are the references before that. -/

/-- The references the application loop reads: those before the first wildcard. -/
def leadingRefs (refs : List String) : List String := refs.takeWhile fun r => r != Any

/-- The signals an application contributes. -/
def signalEntry (c : Compilation) (ref : String) : List AppIDSignalIR :=
  (c.apps.lookup ref).elim [] fun app =>
    if (supportedAppIDSignals app.engineSignals).isEmpty then []
    else [⟨ref, supportedAppIDSignals app.engineSignals⟩]

/-- The services an application contributes. -/
def hintedServices (c : Compilation) (ref : String) : List ServiceMatch :=
  (c.apps.lookup ref).elim [] applicationServiceMatches

/-- **What the application loop gathers**: the services and signals of the applications
before the first wildcard, behind those it started with. -/
theorem compileApplications_ok {c : Compilation} {rule : String} : ∀ {refs : List String}
    {s out : AppLoop}, compileApplications c rule s refs = .ok out →
    (∀ ref ∈ leadingRefs refs, (c.apps.lookup ref).isSome) ∧
    out.services = s.services ++ (leadingRefs refs).flatMap (hintedServices c) ∧
    out.signals = s.signals ++ (leadingRefs refs).flatMap (signalEntry c) ∧
    out.applications = if Any ∈ refs then [] else s.applications ++ refs := by
  intro refs
  induction refs with
  | nil =>
      intro s out h
      cases h
      simp [leadingRefs]
  | cons ref refs ih =>
      intro s out h
      unfold compileApplications at h
      by_cases hany : ref = Any
      · rw [if_pos hany] at h
        cases h
        simp [leadingRefs, hany]
      · rw [if_neg hany] at h
        cases hl : c.apps.lookup ref with
        | none => simp [hl] at h
        | some app =>
            simp only [hl] at h
            obtain ⟨hall, hservices, hsignals, hnames⟩ := ih h
            have hlead : leadingRefs (ref :: refs) = ref :: leadingRefs refs := by
              simp [leadingRefs, hany]
            rw [hlead]
            refine ⟨?_, ?_, ?_, ?_⟩
            · intro r hr
              rcases List.mem_cons.mp hr with rfl | hr
              · simp [hl]
              · exact hall r hr
            · simp [hservices, hintedServices, hl]
            · rw [hsignals, List.flatMap_cons, ← List.append_assoc]
              congr 1
              by_cases hs : supportedAppIDSignals app.engineSignals = [] <;>
                simp [signalEntry, hl, hs]
            · rw [hnames]
              by_cases hrest : Any ∈ refs <;> simp [hrest, Ne.symm hany]

/-! ### Single elements

One inversion for each kind of element, with every field of the result. The proofs follow the binds
of the definition. -/

/-- What the compiler makes of one rule. -/
theorem compileRule_ok {c : Compilation} {r : Rule} {ir : RuleIR} (h : compileRule c r = .ok ir) :
    resolveIfaces c r.fromZones = .ok ir.fromIfaces ∧
    resolveIfaces c r.toZones = .ok ir.toIfaces ∧
    resolvePrefixes c r.sourceAddresses = .ok ir.srcPrefixes ∧
    resolvePrefixes c r.destinationAddresses = .ok ir.dstPrefixes ∧
    (∃ services apps, resolveServices c r.services = .ok services ∧
      compileApplications c r.name { services } r.applications = .ok apps ∧
      ir.services = apps.services ∧ ir.appIDSignals = apps.signals ∧
      ir.appIDOnly = (!r.applications.isEmpty && r.services.isEmpty && apps.services.isEmpty &&
        !apps.signals.isEmpty)) ∧
    actionFromProto ("rule " ++ r.name) r.action false = .ok ir.action ∧
    ir.id = r.id ∧ ir.name = r.name := by
  unfold compileRule at h
  obtain ⟨fromIfaces, h1, h⟩ := bind_ok.mp h
  obtain ⟨toIfaces, h2, h⟩ := bind_ok.mp h
  obtain ⟨srcPrefixes, h3, h⟩ := bind_ok.mp h
  obtain ⟨dstPrefixes, h4, h⟩ := bind_ok.mp h
  obtain ⟨services, h5, h⟩ := bind_ok.mp h
  obtain ⟨apps, h6, h⟩ := bind_ok.mp h
  obtain ⟨profiles, -, h⟩ := bind_ok.mp h
  obtain ⟨qosProfile, -, h⟩ := bind_ok.mp h
  obtain ⟨action, h7, h⟩ := bind_ok.mp h
  cases h
  exact ⟨mapError_ok.mp h1, mapError_ok.mp h2, mapError_ok.mp h3, mapError_ok.mp h4,
    ⟨services, apps, mapError_ok.mp h5, h6, rfl, rfl, rfl⟩, h7, rfl, rfl⟩

/-- What the compiler makes of one host-input rule. -/
theorem compileHostInputRule_ok {c : Compilation} {r : HostInputRule} {ir : RuleIR}
    (h : compileHostInputRule c r = .ok ir) :
    resolveIfaces c r.fromZones = .ok ir.fromIfaces ∧ ir.toIfaces = [] ∧
    resolvePrefixes c r.sourceAddresses = .ok ir.srcPrefixes ∧ ir.dstPrefixes = [] ∧
    resolveServices c r.services = .ok ir.services ∧
    actionFromProto ("host-input rule " ++ r.name) r.action false = .ok ir.action := by
  unfold compileHostInputRule at h
  obtain ⟨fromIfaces, h1, h⟩ := bind_ok.mp h
  obtain ⟨srcPrefixes, h2, h⟩ := bind_ok.mp h
  obtain ⟨services, h3, h⟩ := bind_ok.mp h
  obtain ⟨action, h4, h⟩ := bind_ok.mp h
  cases h
  exact ⟨mapError_ok.mp h1, rfl, mapError_ok.mp h2, rfl, mapError_ok.mp h3, h4⟩

/-- The host-input section, rule by rule. -/
theorem compileHostInput_ok {c : Compilation} {hi : HostInput} {action : Option RuleAction}
    {rules : List RuleIR} (h : compileHostInput c (some hi) = .ok (action, rules)) :
    List.Forall₂ (fun r ir => compileHostInputRule c r = .ok ir)
      (hi.rules.filter fun r => !r.disabled) rules := by
  unfold compileHostInput at h
  obtain ⟨_, -, h⟩ := bind_ok.mp h
  obtain ⟨_, hrules, h⟩ := bind_ok.mp h
  cases h
  exact mapM_ok.mp hrules

/-- The address of a translation is the prefix in the table. -/
theorem natAddress_ok {c : Compilation} {ctx ref : String} {pfx : Prefix}
    (h : natAddress c ctx ref = .ok pfx) : c.addrs.lookup ref = some pfx := by
  unfold natAddress at h
  cases hl : c.addrs.lookup ref with
  | none => simp [hl] at h
  | some q => simpa [hl] using h

/-- The source of a translation: that of its address object, or any. -/
theorem snatSource_ok {c : Compilation} {ctx : String} {sn : SourceNat} {src : Option Prefix}
    (h : snatSource c ctx sn = .ok src) :
    if sn.sourceAddress ≠ "" ∧ sn.sourceAddress ≠ Any then
      ∃ pfx, src = some pfx ∧ c.addrs.lookup sn.sourceAddress = some pfx
    else src = none := by
  unfold snatSource at h
  split at h
  · rename_i hsrc
    rw [if_pos hsrc]
    cases hn : natAddress c ctx sn.sourceAddress with
    | error e =>
        rw [hn] at h
        cases h
    | ok pfx =>
        rw [hn] at h
        cases h
        exact ⟨pfx, rfl, natAddress_ok hn⟩
  · rename_i hsrc
    rw [if_neg hsrc]
    cases h
    rfl

/-- Its target: the address of the object, or that of the interface. -/
theorem snatTarget_ok {c : Compilation} {ctx : String} {sn : SourceNat} {target : Option Addr}
    (h : snatTarget c ctx sn = .ok target) :
    if sn.masquerade then target = none
    else ∃ pfx, target = some pfx.addr ∧ c.addrs.lookup sn.translatedAddress = some pfx := by
  unfold snatTarget at h
  split at h
  · rename_i hm
    rw [if_pos hm]
    cases h
    rfl
  · rename_i hm
    rw [if_neg hm]
    cases hn : natAddress c ctx sn.translatedAddress with
    | error e =>
        rw [hn] at h
        cases h
    | ok pfx =>
        rw [hn] at h
        cases h
        exact ⟨pfx, rfl, natAddress_ok hn⟩

/-- What the compiler makes of one source translation. -/
theorem compileSNAT_ok {c : Compilation} {sn : SourceNat} {ir : SNATIR}
    (h : compileSNAT c sn = .ok ir) :
    resolveIfaces c [sn.toZone] = .ok ir.outIfaces ∧
    (if sn.sourceAddress ≠ "" ∧ sn.sourceAddress ≠ Any then
      ∃ pfx, ir.srcPrefix = some pfx ∧ c.addrs.lookup sn.sourceAddress = some pfx
      else ir.srcPrefix = none) ∧
    (if sn.masquerade then ir.translateTo = none
      else ∃ pfx, ir.translateTo = some pfx.addr ∧
        c.addrs.lookup sn.translatedAddress = some pfx) ∧
    ir.masquerade = sn.masquerade := by
  unfold compileSNAT at h
  obtain ⟨outIfaces, h1, h⟩ := bind_ok.mp h
  obtain ⟨srcPrefix, h2, h⟩ := bind_ok.mp h
  obtain ⟨translateTo, h3, h⟩ := bind_ok.mp h
  cases h
  exact ⟨mapError_ok.mp h1, snatSource_ok h2, snatTarget_ok h3, rfl⟩

/-- What the compiler makes of one destination translation. -/
theorem compileDNAT_ok {c : Compilation} {dn : DestinationNat} {ir : DNATIR}
    (h : compileDNAT c dn = .ok ir) :
    resolveIfaces c [dn.fromZone] = .ok ir.inIfaces ∧
    (∃ m, c.svcs.lookup dn.service = some m ∧ ir.protocol = m.protocol ∧ ir.ports = m.ports) ∧
    (∃ pfx, c.addrs.lookup dn.destinationAddress = some pfx ∧ ir.matchDst = pfx.addr) ∧
    (∃ pfx, c.addrs.lookup dn.translatedAddress = some pfx ∧ ir.translateTo = pfx.addr) ∧
    ir.toPort = uint16 dn.translatedPort := by
  unfold compileDNAT at h
  obtain ⟨inIfaces, h1, h⟩ := bind_ok.mp h
  obtain ⟨m, hm, h⟩ := bind_ok.mp h
  obtain ⟨dst, h2, h⟩ := bind_ok.mp h
  obtain ⟨target, h3, h⟩ := bind_ok.mp h
  cases h
  have hsvc : c.svcs.lookup dn.service = some m := by
    unfold dnatService at hm
    cases hl : c.svcs.lookup dn.service with
    | none => simp [hl] at hm
    | some m' => simpa [hl] using hm
  exact ⟨mapError_ok.mp h1, ⟨m, hsvc, rfl, rfl⟩, ⟨dst, natAddress_ok h2, rfl⟩,
    ⟨target, natAddress_ok h3, rfl⟩, rfl⟩

end Phragma.Compiler
