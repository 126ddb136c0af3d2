import Phragma.Go.Lines
import Phragma.Compiler.Compiled

/-!
# Phragma.Compiler.Complete

**When the compiler succeeds.** Validation is meant to leave the compiler nothing to refuse.
For an accepted policy `compileValid_succeeds_iff` says exactly what it can still refuse:
actions outside the enumeration, a QoS reference of white space only, an inspection section
without an interface to listen on, and an exception scoped to the wildcard.

Every section is one lemma: what the validator checked of it, and what the compiler looks up
or parses. All the references of an accepted policy resolve, so most sections always
compile.
-/

namespace Phragma.Compiler

open Lib Go Policy

/-! ### The condition

The validator looks at every reference and every number, so what is left are the checks it does not
make: it takes an action by its number being set, trims the QoS reference before it looks it up, and
leaves the interfaces and the scope of exceptions to the compiler. -/

/-- An action the enumeration does not name (proto3 enumerations are open). -/
def Unnamed : Action → Prop
  | .unrecognized _ => True
  | _ => False

instance : DecidablePred Unnamed
  | .unrecognized _ => .isTrue trivial
  | .unspecified | .allow | .deny | .reject => .isFalse id

/-- What a rule needs to compile. -/
structure CompilableRule (r : Rule) : Prop where
  action : ¬ Unnamed r.action
  qosProfile : trimSpace r.qosProfile = "" → r.qosProfile = ""

/-- What an accepted policy needs to compile. -/
structure Compilable (p : Phragma.Policy) : Prop where
  rules : ∀ r ∈ p.rules, r.disabled = false → CompilableRule r
  hostInput : ∀ hi, p.hostInput = some hi → ∀ r ∈ hi.rules, r.disabled = false → ¬ Unnamed r.action
  monitored : p.getIds.enabled = true → p.getIds.mode ≠ .prevent → idsInterfaces p ≠ []
  exceptions : p.getIds.enabled = true → ∀ e ∈ p.getIds.exceptions, e.disabled = false →
    e.sourceAddress ≠ Any ∧ e.destinationAddress ≠ Any

/-! ### Tables and references

A reference passes the validator if the table of the validator has it. The compiler's tables are of
the same objects under the same names (`TablesOf`), and an accepted policy has no name twice, so a
lookup there finds the same object; and what it is turned into was checked with the object. -/

section References

variable {p : Phragma.Policy} (hA : Accepted p) {c : Compilation} (hT : TablesOf p c)

/-- A service that passed its check has a match. -/
theorem serviceMatch_succeeds {s : Service} (h : checkService s = []) :
    ∃ m, serviceMatch s = .ok m := by
  unfold serviceMatch
  unfold checkService at h
  cases hp : s.protocol <;> simp [hp] at h ⊢

include hA

/-- The tables are built if every address and every service can be read, which the validator has
seen to. -/
theorem newCompilation_succeeds : ∃ c, newCompilation p = .ok c := by
  unfold newCompilation
  rw [addressIndex_eq hA.address_cidr]
  refine exists_bind_ok.mpr ⟨_, rfl, ?_⟩
  refine exists_bind_ok_of (exists_mapM_ok.mpr fun s hs => ?_) fun _ => exists_pure_ok _
  obtain ⟨m, hm⟩ := serviceMatch_succeeds (hA.service_ok s hs)
  exact ⟨(s.name, m), by rw [hm]; rfl⟩

include hT

/-- A zone reference that passed its check resolves. -/
theorem resolveIfaces_succeeds {ctx : String} {refs : List String}
    (h : checkZoneRefs (collectAll p).2 ctx refs = []) : ∃ out, resolveIfaces c refs = .ok out := by
  refine resolveRefs_succeeds fun r hr hany => ?_
  have hcheck := List.flatMap_eq_nil_iff.mp h r hr
  rw [hT.zoneIfaces]
  simp only [errIf, hA.zones_eq] at hcheck
  have hmem : r ∈ p.zones.map Zone.name := by
    by_contra hno
    simp [hany, hno] at hcheck
  obtain ⟨z, hz, rfl⟩ := List.mem_map.mp hmem
  rw [lookup_tableOf_of_mem hA.zone_names hz]
  rfl

/-- An address that the validator found is in the table of the compiler, parsed. -/
theorem lookup_addrs_isSome {ref : String} (h : ((collectAll p).2.addresses.lookup ref).isSome) :
    (c.addrs.lookup ref).isSome := by
  rw [hA.addresses_eq] at h
  obtain ⟨a, ha⟩ := Option.isSome_iff_exists.mp h
  obtain ⟨a, hmem, rfl, rfl⟩ := exists_of_lookup_tableOf ha
  obtain ⟨pfx, hpfx⟩ := Option.isSome_iff_exists.mp (hA.address_cidr a hmem)
  rw [(lookup_addrs_iff hA hT).mpr ⟨a, hmem, rfl, hpfx⟩]
  rfl

/-- An address reference that passed its check resolves. -/
theorem resolvePrefixes_succeeds {ctx : String} {refs : List String}
    (h : checkAddressRefs (collectAll p).2 ctx refs = []) :
    ∃ out, resolvePrefixes c refs = .ok out := by
  refine resolveRefs_succeeds fun r hr hany => ?_
  have hcheck := List.flatMap_eq_nil_iff.mp h r hr
  have hsome : ((collectAll p).2.addresses.lookup r).isSome := by
    by_contra hno
    simp [errIf, hany, Option.not_isSome_iff_eq_none.mp hno] at hcheck
  simpa using lookup_addrs_isSome hA hT hsome

/-- A service that the validator found is in the table of the compiler. -/
theorem lookup_svcs_of_lookup {ref : String} {s : Service}
    (h : (collectAll p).2.services.lookup ref = some s) :
    ∃ m, c.svcs.lookup ref = some m ∧ serviceMatch s = .ok m ∧ s ∈ p.services := by
  rw [hA.services_eq] at h
  obtain ⟨svcs, hsvcs, hall⟩ := hT.svcs
  rcases services_lookup hall ref with ⟨-, hnone⟩ | ⟨s', m, hm, hs', hmem, hsm⟩
  · rw [hnone] at h
    cases h
  · rw [hs'] at h
    cases h
    exact ⟨m, hsvcs ▸ hm, hsm, hmem⟩

/-- A service reference that passed its check resolves. -/
theorem resolveServices_succeeds {ctx : String} {refs : List String}
    (h : checkServiceRefs (collectAll p).2 ctx refs = []) :
    ∃ out, resolveServices c refs = .ok out := by
  refine resolveRefs_succeeds fun r hr hany => ?_
  have hcheck := List.flatMap_eq_nil_iff.mp h r hr
  have hsome : ((collectAll p).2.services.lookup r).isSome := by
    by_contra hno
    simp [errIf, hany, Option.not_isSome_iff_eq_none.mp hno] at hcheck
  obtain ⟨s, hs⟩ := Option.isSome_iff_exists.mp hsome
  obtain ⟨m, hm, -⟩ := lookup_svcs_of_lookup hA hT hs
  simp [hm]

/-- The tables of applications, profiles and QoS profiles are those of the validator. -/
theorem lookup_apps (ref : String) : c.apps.lookup ref = (collectAll p).2.apps.lookup ref := by
  rw [hT.apps, hA.applications.map_eq]

/-- The application loop gets through references that passed their check: only an unknown name would
stop it, and what it has gathered makes no difference to that. -/
theorem compileApplications_succeeds {ctx rule : String} : ∀ {refs : List String} {s : AppLoop},
    checkApplicationRefs (collectAll p).2 ctx refs = [] →
    ∃ out, compileApplications c rule s refs = .ok out := by
  intro refs
  induction refs with
  | nil => exact fun {s} _ => ⟨s, rfl⟩
  | cons ref refs ih =>
      intro s h
      unfold checkApplicationRefs at h
      rw [List.flatMap_cons, List.append_eq_nil_iff] at h
      unfold compileApplications
      by_cases hany : ref = Any
      · exact ⟨_, by rw [if_pos hany]⟩
      · rw [if_neg hany, lookup_apps hA hT]
        cases hl : (collectAll p).2.apps.lookup ref with
        | none => simp [errIf, hany, hl] at h
        | some app => exact ih h.2

/-- Here the check of the references is a loop itself (`securityProfileRefStep`), which stays quiet
only where each of them is known. -/
theorem compileSecurityProfiles_succeeds {ctx rule : String} {refs : List String}
    (h : (checkSecurityProfileRefs (collectAll p).2 ctx refs).1 = []) :
    ∃ out, compileSecurityProfiles c rule refs = .ok out := by
  unfold checkSecurityProfileRefs at h
  simp only [List.append_eq_nil_iff] at h
  unfold compileSecurityProfiles
  refine exists_bind_ok_of (exists_mapM_ok.mpr fun r hr => ?_) fun _ => exists_pure_ok _
  obtain ⟨s, hq⟩ := collect_quiet_mem h.2 hr
  rw [hT.securityProfiles, ← hA.securityProfiles.map_eq]
  unfold securityProfileRefStep at hq
  cases hl : (collectAll p).2.securityProfiles.lookup r with
  | some profile => exact ⟨_, rfl⟩
  | none =>
      rw [hl] at hq
      split_ifs at hq

/-- No name is white space, so a blank QoS reference is unknown to the compiler. -/
theorem compileQosRef_succeeds_iff {ctx : String} {r : Rule}
    (h : checkQosRef (collectAll p).2 ctx r = []) :
    (∃ ref, compileQosRef c r.qosProfile = .ok ref) ↔
      (trimSpace r.qosProfile = "" → r.qosProfile = "") := by
  unfold compileQosRef
  unfold checkQosRef at h
  simp only at h
  by_cases hblank : trimSpace r.qosProfile = ""
  · by_cases hempty : r.qosProfile = ""
    · simp [hempty]
    -- blank but not empty: the compiler looks the blank name up, where the validator saw none
    · have hnone : c.qosProfiles.lookup r.qosProfile = none := by
        by_contra hsome
        obtain ⟨profile, hprofile⟩ := Option.ne_none_iff_exists'.mp hsome
        rw [hT.qosProfiles] at hprofile
        obtain ⟨profile, hmem, hname, -⟩ := exists_of_lookup_tableOf hprofile
        have hword := (hA.qosProfiles.usable profile hmem).isWord
        rw [hname] at hword
        exact hempty (by rw [← hblank, trimSpace_eq_self hword.2])
      simp [hempty, hblank, hnone]
  · rw [if_neg hblank] at h
    split_ifs at h with htrim hany
    rw [not_not.mp htrim] at h
    cases hl : (collectAll p).2.qosProfiles.lookup r.qosProfile with
    | none => simp [errIf, hl] at h
    | some profile => simp [hblank, hT.qosProfiles, ← hA.qosProfiles.map_eq, hl]

/-! ### Rules

A rule of an accepted policy has everything it needs but, possibly, its action and its QoS
reference; with `exists_bind_ok` the success of the whole is the success of its parts, and all parts
but these two drop out. -/

omit hA hT in
/-- Setting an action leaves only the unnamed ones to refuse. -/
theorem actionFromProto_succeeds_iff {ctx : String} {action : Action}
    (h : action ≠ .unspecified) :
    (∃ a, actionFromProto ctx action false = .ok a) ↔ ¬ Unnamed action := by
  cases action with
  | unspecified => exact absurd rfl h
  | allow => exact ⟨fun _ => id, fun _ => ⟨.allow, rfl⟩⟩
  | deny => exact ⟨fun _ => id, fun _ => ⟨.deny, rfl⟩⟩
  | reject => exact ⟨fun _ => id, fun _ => ⟨.reject, rfl⟩⟩
  | unrecognized n => exact ⟨nofun, fun hnot => absurd trivial hnot⟩

/-- A rule compiles exactly when its action has a name and its QoS reference is not merely blank. -/
theorem compileRule_succeeds_iff {r : Rule} (hr : r ∈ p.rules) :
    (∃ ir, compileRule c r = .ok ir) ↔ CompilableRule r := by
  have hR := hA.rule hr
  obtain ⟨fromIfaces, hfrom⟩ := resolveIfaces_succeeds hA hT hR.fromZones
  obtain ⟨toIfaces, hto⟩ := resolveIfaces_succeeds hA hT hR.toZones
  obtain ⟨src, hsrc⟩ := resolvePrefixes_succeeds hA hT hR.sources
  obtain ⟨dst, hdst⟩ := resolvePrefixes_succeeds hA hT hR.destinations
  obtain ⟨services, hsvc⟩ := resolveServices_succeeds hA hT hR.services
  obtain ⟨apps, happ⟩ : ∃ apps, compileApplications c r.name { services } r.applications = .ok apps :=
    compileApplications_succeeds hA hT hR.applications
  obtain ⟨profiles, hprof⟩ : ∃ out, compileSecurityProfiles c r.name r.securityProfiles = .ok out :=
    compileSecurityProfiles_succeeds hA hT hR.profiles
  have hqos := compileQosRef_succeeds_iff hA hT hR.qosProfile
  have haction : (∃ a, actionFromProto ("rule " ++ r.name) r.action false = .ok a) ↔
      ¬ Unnamed r.action := actionFromProto_succeeds_iff hR.action
  unfold compileRule
  simp only [exists_bind_ok, mapError_ok, hfrom, hto, hsrc, hdst, hsvc, happ, hprof,
    Except.ok.injEq, exists_eq_left', exists_pure_ok, and_true]
  rw [haction, exists_and_right, hqos]
  exact ⟨fun h => ⟨h.2, h.1⟩, fun h => ⟨h.2, h.1⟩⟩

/-- A rule on traffic to the firewall compiles exactly when its action has a name. -/
theorem compileHostInputRule_succeeds_iff {r : HostInputRule}
    (hcheck : checkHostInputRule (collectAll p).2 r = []) :
    (∃ ir, compileHostInputRule c r = .ok ir) ↔ ¬ Unnamed r.action := by
  unfold checkHostInputRule at hcheck
  simp only [List.append_eq_nil_iff] at hcheck
  obtain ⟨⟨⟨haction, hfrom⟩, hsrc⟩, hsvc⟩ := hcheck
  have hset : r.action ≠ .unspecified := by
    intro hunset
    simp [errIf, hunset] at haction
  obtain ⟨fromIfaces, hfrom⟩ := resolveIfaces_succeeds hA hT hfrom
  obtain ⟨src, hsrc⟩ := resolvePrefixes_succeeds hA hT hsrc
  obtain ⟨services, hsvc⟩ := resolveServices_succeeds hA hT hsvc
  have haction : (∃ a, actionFromProto ("host-input rule " ++ r.name) r.action false = .ok a) ↔
      ¬ Unnamed r.action := actionFromProto_succeeds_iff hset
  unfold compileHostInputRule
  simp only [exists_bind_ok, mapError_ok, hfrom, hsrc, hsvc, Except.ok.injEq, exists_eq_left',
    exists_pure_ok, and_true]
  exact haction

/-- So does the section, whose default action the validator has checked by name. -/
theorem compileHostInput_succeeds_iff :
    (∃ out, compileHostInput c p.hostInput = .ok out) ↔
      ∀ hi, p.hostInput = some hi → ∀ r ∈ hi.rules, r.disabled = false → ¬ Unnamed r.action := by
  cases hhi : p.hostInput with
  | none => exact ⟨fun _ => nofun, fun _ => ⟨_, rfl⟩⟩
  | some hi =>
      have hdefault : ∃ a, actionFromProto "host_input default_action" hi.defaultAction true =
          .ok a := by
        rcases hA.hostInput_default hi hhi with h | h | h <;> exact ⟨_, by rw [h]; rfl⟩
      obtain ⟨a, ha⟩ := hdefault
      unfold compileHostInput
      simp only [exists_bind_ok, ha, Except.ok.injEq, exists_eq_left', exists_pure_ok, and_true,
        exists_mapM_ok, List.mem_filter, Bool.not_eq_true', Option.some.injEq, and_imp]
      constructor
      · rintro h hi rfl r hr henabled
        exact (compileHostInputRule_succeeds_iff hA hT (hA.hostInput_ok _ hhi r hr)).mp
          (h r hr henabled)
      · intro h r hr henabled
        exact (compileHostInputRule_succeeds_iff hA hT (hA.hostInput_ok _ hhi r hr)).mpr
          (h hi rfl r hr henabled)

/-! ### Address translation

The validator requires host addresses and a service with ports here, which is more than the compiler
needs. -/

/-- An address that the validator found is read by the compiler. -/
theorem natAddress_succeeds (ctx : String) {ref : String}
    (h : ((collectAll p).2.addresses.lookup ref).isSome) :
    ∃ pfx, natAddress c ctx ref = .ok pfx := by
  obtain ⟨pfx, hpfx⟩ := Option.isSome_iff_exists.mp (lookup_addrs_isSome hA hT h)
  exact ⟨pfx, by rw [natAddress, hpfx]⟩

omit hA hT in
/-- A host reference names an address object. -/
theorem lookup_of_hostAddress {v : Objects} {ref : String} (h : hostAddress v ref = true) :
    (v.addresses.lookup ref).isSome := by
  unfold hostAddress at h
  cases hl : v.addresses.lookup ref with
  | none => simp [hl] at h
  | some a => rfl

/-- The zone of a translation resolves. -/
theorem natZone_succeeds {ctx field zone : String}
    (h : checkNatZone (collectAll p).2 ctx field zone = []) :
    ∃ out, resolveIfaces c [zone] = .ok out := by
  have hrefs : checkZoneRefs (collectAll p).2 ctx [zone] = [] := by
    unfold checkNatZone at h
    simp only [checkZoneRefs, List.flatMap_cons, List.flatMap_nil, List.append_nil]
    by_contra hne
    simp only [errIf] at h hne
    split_ifs at h hne with h1 h2 <;> simp_all
  exact resolveIfaces_succeeds hA hT hrefs

/-- The source of a translation is read only if there is one, and then it was checked. -/
theorem snatSource_succeeds {ctx : String} {sn : SourceNat}
    (h : (if sn.sourceAddress ≠ "" then checkAddressRefs (collectAll p).2 ctx [sn.sourceAddress]
      else []) = []) : ∃ src, snatSource c ctx sn = .ok src := by
  unfold snatSource
  split_ifs with hsrc
  · have hsome : ((collectAll p).2.addresses.lookup sn.sourceAddress).isSome := by
      by_contra hno
      simp [hsrc.1, hsrc.2, checkAddressRefs, errIf, Option.not_isSome_iff_eq_none.mp hno] at h
    obtain ⟨pfx, hpfx⟩ := natAddress_succeeds hA hT ctx hsome
    exact ⟨some pfx, by rw [hpfx]; rfl⟩
  · exact ⟨none, rfl⟩

/-- A source translation always compiles. -/
theorem compileSNAT_succeeds {sn : SourceNat} (hsn : sn ∈ p.getNat.source) :
    ∃ ir, compileSNAT c sn = .ok ir := by
  have hcheck := hA.source_ok sn hsn
  unfold checkSourceNat at hcheck
  simp only [List.append_eq_nil_iff] at hcheck
  obtain ⟨⟨hzone, hsrc⟩, htarget⟩ := hcheck
  obtain ⟨out, hout⟩ := natZone_succeeds hA hT hzone
  obtain ⟨src, hsrc⟩ := snatSource_succeeds hA hT hsrc
  have htarget : ∃ target, snatTarget c ("source-nat " ++ quote sn.name) sn = .ok target := by
    unfold snatTarget
    cases hm : sn.masquerade with
    | true => exact ⟨none, rfl⟩
    | false =>
        have hhost : hostAddress (collectAll p).2 sn.translatedAddress = true := by
          by_contra hno
          by_cases hempty : sn.translatedAddress = "" <;> simp [hm, hempty, hno, errIf] at htarget
        obtain ⟨pfx, hpfx⟩ := natAddress_succeeds hA hT ("source-nat " ++ quote sn.name)
          (lookup_of_hostAddress hhost)
        exact ⟨some pfx.addr, by rw [hpfx]; rfl⟩
  obtain ⟨target, htarget⟩ := htarget
  unfold compileSNAT
  simp only [exists_bind_ok, mapError_ok, hout, hsrc, htarget, Except.ok.injEq, exists_eq_left',
    exists_pure_ok]

/-- A destination translation always compiles. -/
theorem compileDNAT_succeeds {dn : DestinationNat} (hdn : dn ∈ p.getNat.destination) :
    ∃ ir, compileDNAT c dn = .ok ir := by
  have hcheck := hA.destination_ok dn hdn
  unfold checkDestinationNat at hcheck
  simp only [List.append_eq_nil_iff] at hcheck
  obtain ⟨⟨⟨⟨hzone, hsvc⟩, hdst⟩, htarget⟩, -⟩ := hcheck
  have hhost : ∀ {ref msg : String}, errIf (!hostAddress (collectAll p).2 ref) msg = [] →
      hostAddress (collectAll p).2 ref = true := by
    intro ref msg h
    by_contra hno
    simp [errIf, hno] at h
  obtain ⟨ifaces, hifaces⟩ := natZone_succeeds hA hT hzone
  have hsvc : ∃ m, dnatService c ("destination-nat " ++ quote dn.name) dn.service = .ok m := by
    cases hl : (collectAll p).2.services.lookup dn.service with
    | none => simp [hl] at hsvc
    | some svc =>
        obtain ⟨m, hm, -⟩ := lookup_svcs_of_lookup hA hT hl
        exact ⟨m, by rw [dnatService, hm]⟩
  obtain ⟨m, hm⟩ := hsvc
  obtain ⟨dst, hdst⟩ := natAddress_succeeds hA hT ("destination-nat " ++ quote dn.name)
    (lookup_of_hostAddress (hhost hdst))
  obtain ⟨target, htarget⟩ := natAddress_succeeds hA hT ("destination-nat " ++ quote dn.name)
    (lookup_of_hostAddress (hhost htarget))
  unfold compileDNAT
  simp only [exists_bind_ok, mapError_ok, hifaces, hm, hdst, htarget, Except.ok.injEq,
    exists_eq_left', exists_pure_ok]

/-! ### Inspection

Two things are left to the compiler: whether there is anything to listen on, and an exception for
the wildcard, which the validator takes for an address and the compiler does not. -/

omit hT in
/-- The exceptions are checked whether inspection is enabled or not. -/
theorem exceptions_quiet : checkIDSExceptions (collectAll p).2 p.getIds.exceptions = [] := by
  have h := hA.ids_ok
  unfold checkIDs at h
  split at h
  · exact h
  · exact (List.append_eq_nil_iff.mp h).2

omit hT in
/-- An active exception passed the checks of its addresses. -/
theorem exception_quiet {e : IdsException} (he : e ∈ p.getIds.exceptions)
    (hactive : e.disabled = false) : ∃ ctx, 0 < e.signatureId ∧
    (e.sourceAddress = "" ∨ e.destinationAddress = "") ∧
    (e.sourceAddress ≠ "" → checkAddressRefs (collectAll p).2 ctx [e.sourceAddress] = []) ∧
    (e.destinationAddress ≠ "" →
      checkAddressRefs (collectAll p).2 ctx [e.destinationAddress] = []) := by
  obtain ⟨s, hq⟩ := collect_quiet_mem (exceptions_quiet hA) he
  have hbody := (named_quiet hq).2.2.1
  unfold checkIDSException at hbody
  rw [hactive] at hbody
  simp only [Bool.false_eq_true, if_false] at hbody
  refine ⟨"ids exception " ++ quote e.name, ?_⟩
  split at hbody
  · simp at hbody
  · simp only [List.append_eq_nil_iff] at hbody
    obtain ⟨⟨⟨⟨⟨-, hsid⟩, -⟩, hboth⟩, hsrc⟩, hdst⟩ := hbody
    refine ⟨?_, ?_, fun hne => by simpa [hne] using hsrc, fun hne => by simpa [hne] using hdst⟩
    · simpa [errIf] using hsid
    · by_contra hno
      simp [errIf, not_or.mp hno] at hboth

omit hA hT in
/-- A reference that is not the wildcard and passed its check names an address. -/
theorem address_of_ref {ctx ref : String}
    (h : checkAddressRefs (collectAll p).2 ctx [ref] = []) (hany : ref ≠ Any) :
    ((collectAll p).2.addresses.lookup ref).isSome := by
  by_contra hno
  simp [checkAddressRefs, errIf, hany, Option.not_isSome_iff_eq_none.mp hno] at h

/-- The wildcard is no name, so the compiler does not know it. -/
theorem lookup_addrs_any : c.addrs.lookup Any = none := by
  by_contra hsome
  obtain ⟨pfx, hpfx⟩ := Option.ne_none_iff_exists'.mp hsome
  obtain ⟨a, ha, hname, -⟩ := (lookup_addrs_iff hA hT).mp hpfx
  exact (hA.address_usable a ha).ne_any hname

/-- An active exception compiles exactly when the address it is limited to, if any, is not the
wildcard. It has one at most, so the cases are which. -/
theorem compileIDSException_succeeds_iff {e : IdsException} (he : e ∈ p.getIds.exceptions)
    (hactive : e.disabled = false) :
    (∃ ir, compileIDSException c.addrs e = .ok ir) ↔
      e.sourceAddress ≠ Any ∧ e.destinationAddress ≠ Any := by
  obtain ⟨ctx, -, hone, hsrc, hdst⟩ := exception_quiet hA he hactive
  have hanyNe : Any ≠ "" := by decide
  unfold compileIDSException
  simp only
  by_cases hs : e.sourceAddress = ""
  · by_cases hd : e.destinationAddress = ""
    · simp [hs, hd, hanyNe.symm]
    · by_cases hdany : e.destinationAddress = Any
      · simp [hs, hdany, hanyNe, lookup_addrs_any hA hT]
      · obtain ⟨pfx, hpfx⟩ := Option.isSome_iff_exists.mp
          (lookup_addrs_isSome hA hT (address_of_ref (hdst hd) hdany))
        simp [hs, hd, hdany, hpfx, hanyNe.symm]
  · have hd : e.destinationAddress = "" := hone.resolve_left hs
    by_cases hsany : e.sourceAddress = Any
    · simp [hsany, hanyNe, lookup_addrs_any hA hT]
    · obtain ⟨pfx, hpfx⟩ := Option.isSome_iff_exists.mp
        (lookup_addrs_isSome hA hT (address_of_ref (hsrc hs) hsany))
      simp [hs, hsany, hd, hpfx, hanyNe.symm]

/-- The section compiles exactly when it has something to listen on, or takes its packets from the
queue, and each active exception compiles. Home networks were checked by the same parser. -/
theorem compileIDs_succeeds_iff :
    (∃ ids, compileIDs p c.addrs = .ok ids) ↔
      (p.getIds.enabled = true → p.getIds.mode ≠ .prevent → idsInterfaces p ≠ []) ∧
      (p.getIds.enabled = true → ∀ e ∈ p.getIds.exceptions, e.disabled = false →
        e.sourceAddress ≠ Any ∧ e.destinationAddress ≠ Any) := by
  unfold compileIDs
  simp only
  cases henabled : p.getIds.enabled with
  | false => exact ⟨fun _ => ⟨nofun, nofun⟩, fun _ => ⟨none, rfl⟩⟩
  | true =>
      by_cases hblind : (!(p.getIds.mode == .prevent) && (idsInterfaces p).isEmpty) = true
      · have hno : p.getIds.mode ≠ .prevent ∧ idsInterfaces p = [] := by simpa using hblind
        simp only [Bool.not_true, Bool.false_eq_true, if_false, hblind, if_true]
        exact ⟨nofun, fun h => absurd hno.2 (h.1 trivial hno.1)⟩
      · have hmonitored : p.getIds.mode ≠ .prevent → idsInterfaces p ≠ [] := by
          intro hmode hnil
          exact hblind (by simp [hmode, hnil])
        have hnets : ∀ hn ∈ p.getIds.homeNetworks, ∃ pfx : Prefix, (parsePrefix hn).elim
            (Except.error ("ids: invalid home network " ++ quote hn)) .ok = .ok pfx := by
          intro hn hmem
          have h := hA.ids_ok
          simp only [checkIDs, henabled, Bool.not_true, Bool.false_eq_true, if_false,
            List.append_eq_nil_iff] at h
          have hcheck := List.flatMap_eq_nil_iff.mp h.1.1.1.2 hn hmem
          cases hp : parsePrefix hn with
          | none => simp [errIf, hp] at hcheck
          | some pfx => exact ⟨pfx, rfl⟩
        obtain ⟨nets, hnets⟩ := exists_mapM_ok.mpr hnets
        simp only [Bool.not_true, Bool.false_eq_true, if_false, hblind, exists_bind_ok,
          Except.ok.injEq, exists_eq_left', exists_pure_ok, and_true, hnets, exists_mapM_ok,
          List.mem_filter, Bool.not_eq_true', and_imp, true_implies]
        constructor
        · intro h
          exact ⟨hmonitored, fun e he hactive =>
            (compileIDSException_succeeds_iff hA hT he hactive).mp (h e he hactive)⟩
        · intro h e he hactive
          exact (compileIDSException_succeeds_iff hA hT he hactive).mpr (h.2 e he hactive)

end References

/-! ### Routes, dynamic routing and VPN

These sections hold numbers and addresses as texts. The validator reads every one of them with the
parsers of the compiler, so what passed it is read again. -/

/-- A static route compiles. -/
theorem compileRoute_succeeds {p : Phragma.Policy} (hA : Accepted p) {sr : StaticRoute}
    (hsr : sr ∈ p.staticRoutes) : ∃ ir, compileRoute sr = .ok ir := by
  obtain ⟨i, hi⟩ := List.mem_iff_getElem?.mp hsr
  have hmem : (sr, i) ∈ p.staticRoutes.zipIdx := by
    rw [List.mem_zipIdx_iff_getElem?]
    exact hi
  have hcheck := List.flatMap_eq_nil_iff.mp hA.route_ok _ hmem
  simp only [List.append_eq_nil_iff] at hcheck
  obtain ⟨⟨hdest, -⟩, hvia⟩ := hcheck
  unfold compileRoute
  cases hd : parsePrefix sr.destination with
  | none => simp [errIf, hd] at hdest
  | some destination =>
      by_cases hempty : sr.via = ""
      · simp only [hempty, if_true]
        exact ⟨_, rfl⟩
      · cases hv : parseAddr sr.via with
        | none => simp [errIf, hempty, hv] at hvia
        | some via =>
            simp only [hempty, if_false]
            exact ⟨_, rfl⟩

/-- A list that passed `checkCIDRList` parses. -/
theorem prefixes_of_checkCIDRList {ctx : String} {cidrs : List String}
    (h : checkCIDRList ctx cidrs = []) (err : String → String) :
    ∃ out, cidrs.mapM (fun c => required (err c) (parsePrefix c)) = .ok out := by
  refine exists_mapM_ok.mpr fun c hc => ?_
  have hcheck := List.flatMap_eq_nil_iff.mp h c hc
  cases hp : parsePrefix c with
  | none => simp [errIf, hp] at hcheck
  | some pfx => exact ⟨pfx, rfl⟩

/-- A part that is not enabled is left out, whatever is in it. -/
theorem whenEnabled_succeeds {α : Type} {enabled : Bool} {x : Except String α}
    (h : enabled = true → ∃ a, x = .ok a) : ∃ out, whenEnabled enabled x = .ok out := by
  unfold whenEnabled
  cases enabled with
  | false => exact ⟨none, rfl⟩
  | true =>
      obtain ⟨a, rfl⟩ := h rfl
      exact ⟨some a, rfl⟩

/-- The BGP part compiles if it is enabled, since only then was it checked. -/
theorem compileBGP_succeeds {bgp : Bgp} (h : checkBgp bgp = []) (henabled : bgp.enabled = true) :
    ∃ ir, compileBGP bgp = .ok ir := by
  simp only [checkBgp, henabled, Bool.not_true, Bool.false_eq_true, if_false,
    List.append_eq_nil_iff] at h
  obtain ⟨⟨-, hneighbors⟩, hannounce⟩ := h
  obtain ⟨announce, hannounce⟩ := prefixes_of_checkCIDRList hannounce
    fun net => "bgp announce network " ++ quote net ++ ": invalid CIDR"
  unfold compileBGP
  refine exists_bind_ok_of (exists_mapM_ok.mpr fun n hn => ?_) fun _ => ?_
  · have hcheck := List.flatMap_eq_nil_iff.mp hneighbors n hn
    cases ha : parseAddr n.address with
    | none => simp [checkBgpNeighbor, errIf, ha] at hcheck
    | some address => exact ⟨_, rfl⟩
  · exact exists_bind_ok.mpr ⟨announce, hannounce, exists_pure_ok _⟩

/-- So does the OSPF part. -/
theorem compileOSPF_succeeds {ospf : Ospf} (h : checkOspf ospf = [])
    (henabled : ospf.enabled = true) : ∃ ir, compileOSPF ospf = .ok ir := by
  simp only [checkOspf, henabled, Bool.not_true, Bool.false_eq_true, if_false,
    List.append_eq_nil_iff] at h
  obtain ⟨-, hareas⟩ := h
  unfold compileOSPF
  refine exists_bind_ok_of (exists_mapM_ok.mpr fun a ha => ?_) fun _ => exists_pure_ok _
  have hcheck := List.flatMap_eq_nil_iff.mp hareas a ha
  unfold checkOspfArea at hcheck
  simp only [List.append_eq_nil_iff] at hcheck
  obtain ⟨networks, hnetworks⟩ := prefixes_of_checkCIDRList hcheck.2
    fun net => "ospf area " ++ quote a.area ++ " network " ++ quote net ++ ": invalid CIDR"
  exact exists_bind_ok.mpr ⟨networks, hnetworks, exists_pure_ok _⟩

/-- Dynamic routing compiles. -/
theorem compileRouting_succeeds {p : Phragma.Policy} (hA : Accepted p) :
    ∃ ir, compileRouting p.getBgp p.getOspf = .ok ir := by
  unfold compileRouting
  split_ifs
  · exact ⟨_, rfl⟩
  · refine exists_bind_ok_of (whenEnabled_succeeds (compileBGP_succeeds hA.bgp_ok)) fun _ => ?_
    exact exists_bind_ok_of (whenEnabled_succeeds (compileOSPF_succeeds hA.ospf_ok))
      fun _ => exists_pure_ok _

/-- A tunnel between gateways compiles. -/
theorem compileIpsec_succeeds {t : IpsecTunnel} (h : checkIpsecTunnel t = []) :
    ∃ ir, compileIpsec t = .ok ir := by
  unfold checkIpsecTunnel at h
  simp only [List.append_eq_nil_iff] at h
  obtain ⟨⟨⟨-, hlocal⟩, hremote⟩, -⟩ := h
  unfold compileIpsec
  exact exists_bind_ok_of (prefixes_of_checkCIDRList hlocal _) fun _ =>
    exists_bind_ok_of (prefixes_of_checkCIDRList hremote _) fun _ => exists_pure_ok _

/-- An interface with its peers compiles. -/
theorem compileWireguard_succeeds {w : WireguardInterface} (h : checkWireguardInterface w = []) :
    ∃ ir, compileWireguard w = .ok ir := by
  unfold checkWireguardInterface at h
  simp only [List.append_eq_nil_iff] at h
  obtain ⟨⟨⟨haddress, -⟩, -⟩, hpeers⟩ := h
  have haddress : ∃ pfx, parsePrefix w.address = some pfx := by
    cases hp : parsePrefix w.address with
    | none => simp [errIf, hp] at haddress
    | some pfx => exact ⟨pfx, rfl⟩
  obtain ⟨address, haddress⟩ := haddress
  unfold compileWireguard
  rw [haddress]
  refine exists_bind_ok.mpr ⟨address, rfl, ?_⟩
  refine exists_bind_ok_of (exists_mapM_ok.mpr fun peer hpeer => ?_) fun _ => exists_pure_ok _
  have hcheck := List.flatMap_eq_nil_iff.mp hpeers peer hpeer
  unfold checkWireguardPeer at hcheck
  simp only [List.append_eq_nil_iff] at hcheck
  exact exists_bind_ok_of (prefixes_of_checkCIDRList hcheck.1.2 _) fun _ => exists_pure_ok _

/-- The tunnels compile. -/
theorem compileVPN_succeeds {p : Phragma.Policy} (hA : Accepted p) :
    ∃ ir, compileVPN p.getVpn = .ok ir := by
  unfold compileVPN
  split_ifs
  · exact ⟨_, rfl⟩
  · refine exists_bind_ok_of (exists_mapM_ok.mpr fun t ht =>
      compileIpsec_succeeds (hA.ipsec_ok t ht)) fun _ => ?_
    exact exists_bind_ok_of (exists_mapM_ok.mpr fun w hw =>
      compileWireguard_succeeds (hA.wireguard_ok w hw).2) fun _ => exists_pure_ok _

/-! ### The pass

Of nine stages six always succeed. The other three do exactly when their part of `Compilable` holds,
and the pass is their conjunction. -/

/-- **When an accepted policy compiles.** -/
theorem compileValid_succeeds_iff {p : Phragma.Policy} (hA : Accepted p) :
    (∃ ir, compileValid p = .ok ir) ↔ Compilable p := by
  obtain ⟨c, hc⟩ := newCompilation_succeeds hA
  have hT := tablesOf_newCompilation hc
  obtain ⟨snat, hsnat⟩ := exists_mapM_ok.mpr fun _ => compileSNAT_succeeds hA hT
  obtain ⟨dnat, hdnat⟩ := exists_mapM_ok.mpr fun _ => compileDNAT_succeeds hA hT
  obtain ⟨routes, hroutes⟩ := exists_mapM_ok.mpr fun _ => compileRoute_succeeds hA
  obtain ⟨routing, hrouting⟩ := compileRouting_succeeds hA
  obtain ⟨vpn, hvpn⟩ := compileVPN_succeeds hA
  -- disabled rules are not compiled, so nothing is asked of them
  have hrules : (∃ irs, (p.rules.filter fun r => !r.disabled).mapM (compileRule c) = .ok irs) ↔
      ∀ r ∈ p.rules, r.disabled = false → CompilableRule r := by
    rw [exists_mapM_ok]
    simp only [List.mem_filter, Bool.not_eq_true', and_imp]
    exact forall₂_congr fun r hr => imp_congr_right fun _ => compileRule_succeeds_iff hA hT hr
  unfold compileValid
  simp only [exists_bind_ok, hc, hsnat, hdnat, hroutes, hrouting, hvpn, Except.ok.injEq,
    exists_eq_left', exists_pure_ok, and_true, exists_and_right, exists_eq', true_and]
  rw [hrules, compileHostInput_succeeds_iff hA hT, compileIDs_succeeds_iff hA hT]
  constructor
  · rintro ⟨h1, h2, h3, h4⟩
    exact ⟨h1, h2, h3, h4⟩
  · intro h
    exact ⟨h.rules, h.hostInput, h.monitored, h.exceptions⟩

/-- A property of the IR that the policy decides, together with compilation itself. -/
theorem compile_and_iff {H : IdentityHash} {p : Phragma.Policy}
    (haccepted : Validate (normalizeIdentities H p) = []) {P : IR → Prop} {Q : Prop}
    (h : ∀ {c ir}, Compiled (normalizeIdentities H p) c ir → (P ir ↔ Q)) :
    (∃ ir, Compile H p = .ok ir ∧ P ir) ↔ Compilable (normalizeIdentities H p) ∧ Q := by
  have hA := accepted_of_Validate haccepted
  have hcompile : Compile H p = compileValid (normalizeIdentities H p) := by
    unfold Compile
    simp only [haccepted]
  rw [hcompile]
  constructor
  · rintro ⟨ir, hir, hP⟩
    obtain ⟨c, hC⟩ := compiled_of_compileValid hir
    exact ⟨(compileValid_succeeds_iff hA).mp ⟨ir, hir⟩, (h hC).mp hP⟩
  · rintro ⟨hcompilable, hQ⟩
    obtain ⟨ir, hir⟩ := (compileValid_succeeds_iff hA).mpr hcompilable
    obtain ⟨c, hC⟩ := compiled_of_compileValid hir
    exact ⟨ir, hir, (h hC).mpr hQ⟩

/-- A policy that compiles meets the condition. The success is given as a test, which evaluation can
decide. -/
theorem compilable_of_isOk {H : IdentityHash} {p : Phragma.Policy}
    (haccepted : Validate (normalizeIdentities H p) = []) (hok : (Compile H p).isOk = true) :
    Compilable (normalizeIdentities H p) := by
  cases h : Compile H p with
  | error e => simp [h, Except.isOk, Except.toBool] at hok
  | ok ir =>
      have hcompile := compile_and_iff (P := fun _ => True) (Q := True) haccepted fun _ => Iff.rfl
      exact (hcompile.mp ⟨ir, h, trivial⟩).1

end Phragma.Compiler
