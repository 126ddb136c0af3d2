import Mathlib.Data.List.TakeWhile
import Phragma.Compiler.Complete

/-!
# Phragma.Compiler.Applications

The application dimension of a rule: what its applications contribute to the compiled rule,
in terms of the policy.

An accepted application has port hints or a signal that Suricata reports; the port hints
become services of the rule, the signals travel beside them. A rule whose applications have
no port hint at all is left to Suricata (`SignalOnly`).
-/

namespace Phragma.Compiler

open Lib Go Policy

/-! ### Applications

The validator and the compiler look at an application's signals and port hints separately. Here they
are shown to see the same. -/

/-- The signals Suricata reports. -/
def suricataSignals : List String := ["http", "tls", "dns", "ssh"]

/-- Does an application list a signal? -/
def listsSignal (app : Application) (signal : String) : Bool :=
  app.engineSignals.any fun s => toLower (trimSpace s) == signal

/-- Numbered rules are the rules, each with some number. -/
theorem mem_numberSIDs {β : Type} {base : Nat} {items : List (Nat → β)} {b : β}
    (h : b ∈ numberSIDs base (fun mk sid => mk sid) items) : ∃ mk ∈ items, ∃ sid, b = mk sid := by
  obtain ⟨⟨mk, i⟩, hmem, rfl⟩ := List.mem_map.mp h
  exact ⟨mk, List.fst_mem_of_mem_zipIdx hmem, _, rfl⟩

/-- And every rule gets one. -/
theorem numberSIDs_of_mem {β : Type} {base : Nat} {items : List (Nat → β)} (mk : Nat → β)
    (h : mk ∈ items) : ∃ sid, mk sid ∈ numberSIDs base (fun mk sid => mk sid) items := by
  obtain ⟨i, hi⟩ := List.mem_iff_getElem?.mp h
  refine ⟨_, List.mem_map.mpr ⟨(mk, i), ?_, rfl⟩⟩
  rw [List.mem_zipIdx_iff_getElem?]
  exact hi

/-- The loop over the signals keeps those that Suricata reports. -/
theorem mem_supportedAppIDSignals {signals : List String} {s : String} :
    s ∈ supportedAppIDSignals signals ↔
      s ∈ suricataSignals ∧ ∃ signal ∈ signals, toLower (trimSpace signal) = s := by
  have hloop := mem_foldl_distinct (fun signal => toLower (trimSpace signal))
    (fun n => suricataSignals.contains n) signals [] s
  rw [List.contains_iff_mem] at hloop
  unfold supportedAppIDSignals
  refine Iff.trans hloop ?_
  simp only [List.not_mem_nil, false_or]

/-- The signals of an application that reach Suricata: those it lists that Suricata
reports. -/
theorem mem_supported_iff {app : Application} {s : String} :
    s ∈ supportedAppIDSignals app.engineSignals ↔ s ∈ suricataSignals ∧ listsSignal app s = true := by
  simp [mem_supportedAppIDSignals, listsSignal]

/-- The compiler and the validator look for the same signals. -/
theorem supported_ne_nil {signals : List String} (h : hasSupportedAppIDSignal signals = true) :
    supportedAppIDSignals signals ≠ [] := by
  obtain ⟨signal, hmem, hsup⟩ := List.any_eq_true.mp h
  have hin : toLower (trimSpace signal) ∈ supportedAppIDSignals signals := by
    rw [mem_supportedAppIDSignals]
    refine ⟨?_, signal, hmem, rfl⟩
    have hmem := List.contains_iff_mem.mp hsup
    generalize toLower (trimSpace signal) = normalized at hmem ⊢
    simp only [List.mem_cons, List.not_mem_nil, or_false] at hmem
    rcases hmem with rfl | rfl | rfl | rfl <;> decide
  exact List.ne_nil_of_mem hin

/-- Every port hint of an accepted application gives a service. -/
theorem hint_of_checkApplication {app : Application} (h : checkApplication app = [])
    {hint : ApplicationPort} (hmem : hint ∈ app.ports) :
    hint.ports ≠ [] ∧ (hint.protocol = .tcp ∨ hint.protocol = .udp) ∧
      ∃ ctx, ∀ pr ∈ hint.ports, checkPortRange ctx pr = [] := by
  unfold checkApplication at h
  simp only [List.append_eq_nil_iff] at h
  obtain ⟨i, hi⟩ := List.mem_iff_getElem?.mp hmem
  have hin : (hint, i) ∈ app.ports.zipIdx := by
    rw [List.mem_zipIdx_iff_getElem?]
    exact hi
  have hcheck := List.flatMap_eq_nil_iff.mp h.2 _ hin
  unfold checkApplicationPort at hcheck
  simp only at hcheck
  cases hp : hint.protocol <;> simp only [hp, reduceCtorEq] at hcheck
  all_goals
    split at hcheck
    · cases hcheck
    · next hne => exact ⟨by simpa using hne, by simp, _, List.flatMap_eq_nil_iff.mp hcheck⟩

/-- An accepted application gives no service exactly when it has no hints. -/
theorem applicationServiceMatches_eq_nil {app : Application} (h : checkApplication app = []) :
    applicationServiceMatches app = [] ↔ app.ports = [] := by
  constructor
  · intro hnil
    rw [List.eq_nil_iff_forall_not_mem]
    intro hint hmem
    obtain ⟨hports, hproto, -⟩ := hint_of_checkApplication h hmem
    have hnone := List.filterMap_eq_nil_iff.mp hnil hint hmem
    rcases hproto with hproto | hproto <;> simp [hports, hproto] at hnone
  · intro hnil
    simp [applicationServiceMatches, hnil]

/-! ### Rules

A rule that names applications may name no services beside them, so its services in the end are the
hints of the applications it reads, and without any it is left to Suricata. -/

/-- Without a wildcard every reference is read. -/
theorem leadingRefs_of_notMem {refs : List String} (h : Any ∉ refs) : leadingRefs refs = refs := by
  rw [leadingRefs, List.takeWhile_eq_self_iff]
  intro ref href
  have hne : ref ≠ Any := fun heq => h (heq ▸ href)
  simpa using hne

/-- Nothing is read exactly when there is nothing or the wildcard comes first. -/
theorem leadingRefs_eq_nil {refs : List String} :
    leadingRefs refs = [] ↔ refs = [] ∨ refs.head? = some Any := by
  cases refs with
  | nil => simp [leadingRefs]
  | cons ref refs =>
      by_cases hany : ref = Any <;> simp [leadingRefs, hany]

/-- The applications a rule reads: those named before the first wildcard. -/
def leadingApplications (p : Phragma.Policy) (r : Rule) : List Application :=
  p.applications.filter fun app => (leadingRefs r.applications).contains app.name

/-- A rule that is left to Suricata: it names applications, no service, and none of the
applications has a port hint. -/
def SignalOnly (p : Phragma.Policy) (r : Rule) : Prop :=
  r.services = [] ∧ leadingRefs r.applications ≠ [] ∧
    ∀ app ∈ leadingApplications p r, app.ports = []

instance (p : Phragma.Policy) (r : Rule) : Decidable (SignalOnly p r) :=
  inferInstanceAs (Decidable (_ ∧ _))

section Rules

variable {p : Phragma.Policy} (hA : Accepted p) {c : Compilation} (hT : TablesOf p c)

include hA hT

/-- A reference to an application finds the application of that name. -/
theorem lookup_apps_iff {ref : String} {app : Application} :
    c.apps.lookup ref = some app ↔ app ∈ p.applications ∧ app.name = ref := by
  rw [hT.apps]
  constructor
  · intro h
    obtain ⟨app, hmem, rfl, rfl⟩ := exists_of_lookup_tableOf h
    exact ⟨hmem, rfl⟩
  · rintro ⟨hmem, rfl⟩
    exact lookup_tableOf_of_mem hA.applications.names hmem

omit hA hT in
/-- The applications of the references that are read. -/
theorem mem_leadingApplications {r : Rule} {app : Application} :
    app ∈ leadingApplications p r ↔ app ∈ p.applications ∧ app.name ∈ leadingRefs r.applications := by
  simp [leadingApplications]

omit hA hT in
/-- The wildcard is not among what is read. -/
theorem ne_any_of_mem_leadingRefs {refs : List String} {ref : String} (h : ref ∈ leadingRefs refs) :
    ref ≠ Any := by
  have hall := List.all_takeWhile (p := fun r => r != Any) (l := refs)
  simpa using List.all_eq_true.mp hall ref h

omit hA hT in
/-- What is read was named. -/
theorem mem_of_mem_leadingRefs {refs : List String} {ref : String} (h : ref ∈ leadingRefs refs) :
    ref ∈ refs := (List.takeWhile_prefix _).subset h

/-- Every leading reference is an application of the policy. -/
theorem application_of_leadingRef {r : Rule} (hr : r ∈ p.rules) {ref : String}
    (href : ref ∈ leadingRefs r.applications) :
    ∃ app ∈ leadingApplications p r, app.name = ref := by
  have hcheck := List.flatMap_eq_nil_iff.mp (hA.rule hr).applications ref
    (mem_of_mem_leadingRefs href)
  have hsome : ((collectAll p).2.apps.lookup ref).isSome := by
    by_contra hno
    simp [errIf, ne_any_of_mem_leadingRefs href, Option.not_isSome_iff_eq_none.mp hno] at hcheck
  rw [← lookup_apps hA hT] at hsome
  obtain ⟨app, happ⟩ := Option.isSome_iff_exists.mp hsome
  obtain ⟨hmem, rfl⟩ := (lookup_apps_iff hA hT).mp happ
  exact ⟨app, mem_leadingApplications.mpr ⟨hmem, href⟩, rfl⟩

omit hT in
/-- A rule that reads an application names one. -/
theorem hasSpecificRefs_of_leading {r : Rule} {app : Application}
    (happ : app ∈ leadingApplications p r) : hasSpecificRefs r.applications = true := by
  obtain ⟨hmem, href⟩ := mem_leadingApplications.mp happ
  refine List.any_eq_true.mpr ⟨app.name, mem_of_mem_leadingRefs href, ?_⟩
  have husable := hA.applications.usable app hmem
  simp [husable.ne_empty, husable.ne_any]

/-- The validator's view of an application a rule reads. -/
theorem checkSignalOnly_of_leading {r : Rule} (hr : r ∈ p.rules) {app : Application}
    (happ : app ∈ leadingApplications p r) :
    checkSignalOnly ("rule " ++ quote r.name) p.getIds r app = [] ∧
      hasSpecificRefs r.services = false := by
  obtain ⟨hmem, href⟩ := mem_leadingApplications.mp happ
  have hdim := (hA.rule hr).dimensions
  unfold checkRuleApplications at hdim
  rw [if_pos (hasSpecificRefs_of_leading hA happ), List.append_eq_nil_iff] at hdim
  constructor
  · refine List.flatMap_eq_nil_iff.mp hdim.2 app ?_
    refine List.mem_filterMap.mpr ⟨app.name, mem_of_mem_leadingRefs href, ?_⟩
    rw [if_neg (hA.applications.usable app hmem).ne_any, ← lookup_apps hA hT]
    exact (lookup_apps_iff hA hT).mpr ⟨hmem, rfl⟩
  · cases hs : hasSpecificRefs r.services with
    | false => rfl
    | true => simp [errIf, hs] at hdim

/-- An application without port hints has a signal that Suricata reports. -/
theorem supported_of_portless {r : Rule} (hr : r ∈ p.rules) {app : Application}
    (happ : app ∈ leadingApplications p r) (hports : app.ports = []) :
    supportedAppIDSignals app.engineSignals ≠ [] := by
  have hcheck := (checkSignalOnly_of_leading hA hT hr happ).1
  unfold checkSignalOnly at hcheck
  simp only [hports, List.isEmpty_nil, if_true, List.append_eq_nil_iff] at hcheck
  refine supported_ne_nil ?_
  by_contra hno
  simp [errIf, hno] at hcheck

/-- Where an application is named, the services of a rule are the wildcard or absent. -/
theorem resolveServices_of_leading {r : Rule} (hr : r ∈ p.rules) {app : Application}
    (happ : app ∈ leadingApplications p r) {services : List ServiceMatch}
    (h : resolveServices c r.services = .ok services) : services = [] := by
  have hnone := (checkSignalOnly_of_leading hA hT hr happ).2
  unfold resolveServices at h
  rcases resolveRefs_ok h with ⟨-, hnil⟩ | ⟨hany, hall, hout⟩
  · exact hnil
  · have hrefs : r.services = [] := by
      rw [List.eq_nil_iff_forall_not_mem]
      intro ref href
      have hspec := List.any_eq_false.mp hnone ref href
      have hne : ref ≠ Any := fun h => hany (h ▸ href)
      have hempty : ref = "" := by simpa [hne] using hspec
      obtain ⟨xs, hxs⟩ := Option.isSome_iff_exists.mp (hall ref href)
      cases hl : c.svcs.lookup ref with
      | none => simp [hl] at hxs
      | some m =>
          obtain ⟨svc, hsvc, -⟩ := service_of_lookup hA hT hl
          obtain ⟨svc, hmem, hname, -⟩ := exists_of_lookup_tableOf hsvc
          exact (hA.services.usable svc hmem).ne_empty (hname.trans hempty)
    rw [hout, hrefs]
    rfl

omit hA hT in
/-- The services of a compiled rule: those it names, then the hints of its leading
applications. -/
theorem services_of_compileRule {r : Rule} {rir : RuleIR} (h : compileRule c r = .ok rir) :
    ∃ services, resolveServices c r.services = .ok services ∧
      rir.services = services ++ (leadingRefs r.applications).flatMap (hintedServices c) ∧
      rir.appIDSignals = (leadingRefs r.applications).flatMap (signalEntry c) ∧
      rir.appIDOnly = (!r.applications.isEmpty && r.services.isEmpty && rir.services.isEmpty &&
        !rir.appIDSignals.isEmpty) := by
  obtain ⟨-, -, -, -, ⟨services, apps, hsvc, hloop, hsvcs, hsigs, honly⟩, -⟩ := compileRule_ok h
  obtain ⟨-, hservices, hsignals, -⟩ := compileApplications_ok hloop
  rw [List.nil_append] at hsignals
  refine ⟨services, hsvc, hsvcs.trans hservices, hsigs.trans hsignals, ?_⟩
  rw [honly, hsvcs, hsigs]

/-- **Which rules are left to Suricata.** -/
theorem appIDOnly_iff {r : Rule} (hr : r ∈ p.rules) {rir : RuleIR}
    (h : compileRule c r = .ok rir) : rir.appIDOnly = true ↔ SignalOnly p r := by
  obtain ⟨services, hsvc, hservices, hsignals, honly⟩ := services_of_compileRule h
  have hhints : ∀ app ∈ leadingApplications p r,
      hintedServices c app.name = applicationServiceMatches app := by
    intro app happ
    obtain ⟨hmem, -⟩ := mem_leadingApplications.mp happ
    rw [hintedServices, (lookup_apps_iff hA hT).mpr ⟨hmem, rfl⟩]
    rfl
  rw [honly]
  simp only [Bool.and_eq_true, Bool.not_eq_true', List.isEmpty_iff, List.isEmpty_eq_false_iff]
  unfold SignalOnly
  constructor
  · rintro ⟨⟨⟨-, hnoService⟩, hnoHint⟩, hsignal⟩
    refine ⟨hnoService, ?_, ?_⟩
    · rintro hnil
      rw [hsignals, hnil] at hsignal
      exact hsignal rfl
    · intro app happ
      obtain ⟨hmem, href⟩ := mem_leadingApplications.mp happ
      rw [hservices, List.append_eq_nil_iff] at hnoHint
      have hnone := List.flatMap_eq_nil_iff.mp hnoHint.2 _ href
      rw [hhints app happ] at hnone
      exact (applicationServiceMatches_eq_nil (hA.application_ok app hmem)).mp hnone
  · -- an application without ports has a label that is supported, and gives a signal
    rintro ⟨hnoService, hlead, hports⟩
    obtain ⟨ref, href⟩ := List.exists_mem_of_ne_nil _ hlead
    obtain ⟨app, happ, rfl⟩ := application_of_leadingRef hA hT hr href
    obtain ⟨hmem, -⟩ := mem_leadingApplications.mp happ
    refine ⟨⟨⟨?_, hnoService⟩, ?_⟩, ?_⟩
    · exact List.ne_nil_of_mem (mem_of_mem_leadingRefs href)
    · rw [hservices, resolveServices_of_leading hA hT hr happ hsvc, List.nil_append,
        List.flatMap_eq_nil_iff]
      intro ref' href'
      obtain ⟨app', happ', rfl⟩ := application_of_leadingRef hA hT hr href'
      rw [hhints app' happ']
      simp [applicationServiceMatches, hports app' happ']
    · rw [hsignals]
      have hentry : signalEntry c app.name ≠ [] := by
        rw [signalEntry, (lookup_apps_iff hA hT).mpr ⟨hmem, rfl⟩]
        simp [supported_of_portless hA hT hr happ (hports app happ)]
      intro hnil
      exact hentry (List.flatMap_eq_nil_iff.mp hnil _ href)

end Rules

end Phragma.Compiler
