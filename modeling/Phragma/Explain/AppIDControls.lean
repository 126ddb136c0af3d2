import Phragma.Explain.Applications

/-!
# Phragma.Explain.AppIDControls

The signatures that Suricata enforces for rules with applications (`compileAppIDControls`),
against the rules they are made from.

A control carries the addresses of its rule and one of the port hints of its applications; the
zones of a rule stay with nftables. So the scope of a rule's controls is that of its addresses
and hints (`control_iff`), not of its zones. All controls together are one signature file, in
which Suricata lets every `pass` win over every `drop`: the order of the rules is kept exactly
when no `deny` rule precedes an `allow` rule that it overlaps (`firstMatch_iff`).
-/

namespace Phragma.Explain

open Lib Go Policy Compiler Renderers.Nftables Nft

/-! ### Signatures

A generated rule of Suricata names a signal, prefixes and a service. A packet meets it if it has all
three. -/

/-- The packets the header of a generated signature matches (`appIDControlHeader`): those of
its addresses and, for TCP and UDP, of its ports. Any other service is written `ip any`. -/
def headerMatches (control : AppIDControlIR) (pkt : Packet) : Bool :=
  prefixesOK control.srcPrefixes pkt.src && prefixesOK control.dstPrefixes pkt.dst &&
    match control.service.protocol with
    | .tcp | .udp => serviceOK control.service pkt
    | _ => true

/-- Does a signature match a packet of a flow whose application layer is `signal`? -/
def controlMatches (pkt : Packet) (signal : String) (control : AppIDControlIR) : Bool :=
  control.engineSignal == signal && headerMatches control pkt

/-- The services of the controls of a rule: its own, or any. -/
def controlServices (rule : RuleIR) : List ServiceMatch :=
  if rule.services.isEmpty then [⟨.any, []⟩] else rule.services

/-- A control of a compiled rule. -/
structure ControlOf (rule : RuleIR) (control : AppIDControlIR) : Prop where
  action_ne : rule.action ≠ .reject
  ruleName : control.ruleName = rule.name
  action : control.action = rule.action
  srcPrefixes : control.srcPrefixes = rule.srcPrefixes
  dstPrefixes : control.dstPrefixes = rule.dstPrefixes
  signal : ∃ entry ∈ rule.appIDSignals, control.engineSignal ∈ entry.signals
  service : control.service ∈ controlServices rule

/-- Every control comes from a rule. -/
theorem controlOf_of_mem {rules : List RuleIR} {ids : Option IDsIR} {control : AppIDControlIR}
    (h : control ∈ compileAppIDControls rules ids) : ∃ rule ∈ rules, ControlOf rule control := by
  unfold compileAppIDControls at h
  split at h
  · cases h
  · obtain ⟨mk, hmk, sid, rfl⟩ := mem_numberSIDs h
    obtain ⟨rule, hrule, hmk⟩ := List.mem_flatMap.mp hmk
    split at hmk
    · cases hmk
    · next hne =>
        obtain ⟨entry, hentry, hmk⟩ := List.mem_flatMap.mp hmk
        obtain ⟨signal, hsignal, hmk⟩ := List.mem_flatMap.mp hmk
        obtain ⟨service, hservice, rfl⟩ := List.mem_map.mp hmk
        exact ⟨rule, hrule, hne, rfl, rfl, rfl, rfl, ⟨entry, hentry, hsignal⟩, hservice⟩

/-- Every signal and service of a rule has a control. -/
theorem exists_control {rules : List RuleIR} {ids : Option IDsIR} (hids : enforcedInline ids = true)
    {rule : RuleIR} (hrule : rule ∈ rules) (hne : rule.action ≠ .reject) {entry : AppIDSignalIR}
    (hentry : entry ∈ rule.appIDSignals) {signal : String} (hsignal : signal ∈ entry.signals)
    {service : ServiceMatch} (hservice : service ∈ controlServices rule) :
    ∃ control ∈ compileAppIDControls rules ids, ControlOf rule control ∧
      control.engineSignal = signal ∧ control.service = service := by
  unfold compileAppIDControls
  rw [hids]
  simp only [Bool.not_true, Bool.false_eq_true, if_false]
  refine (numberSIDs_of_mem (fun sid =>
      { ruleName := rule.name, ruleID := rule.id, application := entry.application
        engineSignal := signal, action := rule.action, srcPrefixes := rule.srcPrefixes
        dstPrefixes := rule.dstPrefixes, service, sid }) ?_).elim fun sid hmem =>
    ⟨_, hmem, ⟨hne, rfl, rfl, rfl, rfl, ⟨entry, hentry, hsignal⟩, hservice⟩, rfl, rfl⟩
  refine List.mem_flatMap.mpr ⟨rule, hrule, ?_⟩
  rw [if_neg hne]
  refine List.mem_flatMap.mpr ⟨entry, hentry, List.mem_flatMap.mpr ⟨signal, hsignal, ?_⟩⟩
  exact List.mem_map.mpr ⟨service, hservice, rfl⟩

/-! ### The scope of a rule

The controls of a rule, each for one signal and one service, against the rule as the explainer reads
it. Services come from port hints of any of the rule's applications, so what a signal is confined to
is the business of the whole rule. -/

/-- Do applications admit the port of a packet? Without any port hint they admit all. -/
def hintsAdmit (apps : List Application) (pkt : Packet) : Bool :=
  (apps.all fun app => app.ports.isEmpty) ||
    apps.any fun app => applicationPortMatches app (protocolOf pkt.l4) pkt.dport

/-- The packets and signals that the controls of a rule are about: those of its addresses, of
the port hints of its applications, and with a signal that one of them lists. The applications
are those named before the first wildcard. -/
structure AppScope (idx : Index) (r : Rule) (pkt : Packet) (signal : String) : Prop where
  source : addressMatches idx r.sourceAddresses pkt.src = .ok true
  destination : addressMatches idx r.destinationAddresses pkt.dst = .ok true
  hints : hintsAdmit (leadingApplications idx.policy r) pkt = true
  signal : ∃ app ∈ leadingApplications idx.policy r, applicationSignalValue app signal = true

/-- The explainer and the compiler agree on the signals of an application. -/
theorem applicationSignalValue_iff {signal : String} (hs : signal ∈ suricataSignals)
    {app : Application} : applicationSignalValue app signal = true ↔
      signal ∈ supportedAppIDSignals app.engineSignals := by
  have hnormal : ∀ s ∈ suricataSignals, toLower (trimSpace s) = s ∧ supportedAppIDSignal s = true := by
    decide
  obtain ⟨hlower, hsup⟩ := hnormal signal hs
  rw [mem_supported_iff, applicationSignalValue, hlower, hsup]
  simp [hs, listsSignal]

theorem protocol_of_hint {app : Application} {m : ServiceMatch}
    (hm : m ∈ applicationServiceMatches app) : m.protocol = .tcp ∨ m.protocol = .udp := by
  obtain ⟨hint, -, hhint⟩ := List.mem_filterMap.mp hm
  split at hhint
  · cases hhint
  · cases hp : hint.protocol <;> simp only [hp, Option.some.injEq, reduceCtorEq] at hhint <;>
      subst hhint <;> simp

section Rules

variable {q : Phragma.Policy} (hA : Accepted q) {c : Compilation} {ir : IR} (hC : Compiled q c ir)
  {idx : Index} (hidx : newIndex q = .ok idx)

include hA hC hidx

theorem addressMatches_resolved {refs : List String} {out : List Prefix}
    (h : resolvePrefixes c refs = .ok out) {a : Addr} (ha : a.zone = "") :
    addressMatches idx refs a = .ok (prefixesOK out a) := by
  refine matchAnyRefs_of_resolveRefs (fun ref pfx hpfx => ⟨pfx, ?_, contains_eq_covers pfx ha⟩) h
  rw [(indexOf_of_newIndex hA hC.toTablesOf hidx).addresses]
  exact hpfx

omit hidx in
/-- The signals of a compiled rule are those its leading applications list. -/
theorem signal_iff {r : Rule} (hr : r ∈ q.rules) {rule : RuleIR} (h : compileRule c r = .ok rule)
    {signal : String} (hs : signal ∈ suricataSignals) :
    (∃ entry ∈ rule.appIDSignals, signal ∈ entry.signals) ↔
      ∃ app ∈ leadingApplications q r, applicationSignalValue app signal = true := by
  obtain ⟨-, -, -, hsignals, -⟩ := services_of_compileRule h
  rw [hsignals]
  constructor
  · rintro ⟨entry, hentry, hsignal⟩
    obtain ⟨ref, href, hentry⟩ := List.mem_flatMap.mp hentry
    obtain ⟨app, happ, rfl⟩ := application_of_leadingRef hA hC.toTablesOf hr href
    obtain ⟨hmem, -⟩ := mem_leadingApplications.mp happ
    refine ⟨app, happ, (applicationSignalValue_iff hs).mpr ?_⟩
    rw [signalEntry, (lookup_apps_iff hA hC.toTablesOf).mpr ⟨hmem, rfl⟩, Option.elim_some] at hentry
    split at hentry
    · cases hentry
    · obtain rfl := List.mem_singleton.mp hentry
      exact hsignal
  · rintro ⟨app, happ, hvalue⟩
    obtain ⟨hmem, href⟩ := mem_leadingApplications.mp happ
    have hsignal := (applicationSignalValue_iff hs).mp hvalue
    refine ⟨⟨app.name, supportedAppIDSignals app.engineSignals⟩,
      List.mem_flatMap.mpr ⟨app.name, href, ?_⟩, hsignal⟩
    rw [signalEntry, (lookup_apps_iff hA hC.toTablesOf).mpr ⟨hmem, rfl⟩, Option.elim_some,
      if_neg (by simpa using List.ne_nil_of_mem hsignal)]
    exact List.mem_singleton_self _

omit hidx in
/-- The services of the controls of a rule admit what its leading applications' hints do. -/
theorem service_iff {r : Rule} (hr : r ∈ q.rules) {rule : RuleIR} (h : compileRule c r = .ok rule)
    {app : Application} (happ : app ∈ leadingApplications q r) (pkt : Packet) :
    (∃ service ∈ controlServices rule,
        (match service.protocol with
          | .tcp | .udp => serviceOK service pkt
          | _ => true) = true) ↔ hintsAdmit (leadingApplications q r) pkt = true := by
  have hT := hC.toTablesOf
  obtain ⟨services, hsvc, hservices, -, -⟩ := services_of_compileRule h
  rw [resolveServices_of_leading hA hT hr happ hsvc, List.nil_append] at hservices
  -- what the rule was compiled to are the hints of the applications before a wildcard
  have hhints : ∀ {m}, m ∈ rule.services ↔
      ∃ app ∈ leadingApplications q r, m ∈ applicationServiceMatches app := by
    intro m
    rw [hservices, List.mem_flatMap]
    constructor
    · rintro ⟨ref, href, hm⟩
      obtain ⟨app, happ, rfl⟩ := application_of_leadingRef hA hT hr href
      obtain ⟨hmem, -⟩ := mem_leadingApplications.mp happ
      rw [hintedServices, (lookup_apps_iff hA hT).mpr ⟨hmem, rfl⟩] at hm
      exact ⟨app, happ, hm⟩
    · rintro ⟨app, happ, hm⟩
      obtain ⟨hmem, href⟩ := mem_leadingApplications.mp happ
      refine ⟨app.name, href, ?_⟩
      rw [hintedServices, (lookup_apps_iff hA hT).mpr ⟨hmem, rfl⟩]
      exact hm
  -- it is empty exactly where no application has a hint
  have hempty : rule.services = [] ↔ ∀ app ∈ leadingApplications q r, app.ports = [] := by
    simp only [List.eq_nil_iff_forall_not_mem (l := rule.services), hhints, not_exists, not_and]
    constructor
    · intro hnone app happ
      obtain ⟨hmem, -⟩ := mem_leadingApplications.mp happ
      refine (applicationServiceMatches_eq_nil (hA.application_ok app hmem)).mp ?_
      exact List.eq_nil_iff_forall_not_mem.mpr fun m => hnone m app happ
    · intro hports m app happ hm
      simp [applicationServiceMatches, hports app happ] at hm
  have hports : ∀ app ∈ leadingApplications q r,
      applicationPortMatches app (protocolOf pkt.l4) pkt.dport =
        (applicationServiceMatches app).any fun m => serviceOK m pkt := fun app happ =>
    applicationPortMatches_eq (hA.application_ok app (mem_leadingApplications.mp happ).1) pkt
  unfold hintsAdmit controlServices
  simp only [Bool.or_eq_true, List.all_eq_true, List.any_eq_true, List.isEmpty_iff]
  by_cases hnil : rule.services = []
  · -- no hints: one control for any service
    have hportless := hempty.mp hnil
    simp only [hnil, if_true, List.mem_singleton, exists_eq_left, true_iff]
    exact .inl hportless
  · -- a control for each hint
    rw [if_neg hnil]
    have hne : ¬ ∀ app ∈ leadingApplications q r, app.ports = [] := fun h => hnil (hempty.mpr h)
    simp only [hne, false_or]
    constructor
    · rintro ⟨m, hm, hok⟩
      obtain ⟨app, happ, hm⟩ := hhints.mp hm
      refine ⟨app, happ, ?_⟩
      rw [hports app happ, List.any_eq_true]
      refine ⟨m, hm, ?_⟩
      rcases protocol_of_hint hm with hp | hp <;> simpa [hp] using hok
    · rintro ⟨app, happ, hport⟩
      rw [hports app happ, List.any_eq_true] at hport
      obtain ⟨m, hm, hok⟩ := hport
      refine ⟨m, hhints.mpr ⟨app, happ, hm⟩, ?_⟩
      rcases protocol_of_hint hm with hp | hp <;> simpa [hp] using hok

omit hA hidx in
/-- A compiled rule is known by its name. -/
theorem rule_of_name (hnames : (q.rules.map Rule.name).Nodup) {r : Rule} (hr : r ∈ q.rules)
    {rule : RuleIR} (hmem : rule ∈ ir.rules) (hname : rule.name = r.name) :
    r.disabled = false ∧ compileRule c r = .ok rule := by
  obtain ⟨r', hr', hcompile⟩ := exists_of_forall₂_right hC.rules hmem
  obtain ⟨hin, henabled⟩ := List.mem_filter.mp hr'
  obtain ⟨-, -, -, -, -, -, -, hname'⟩ := compileRule_ok hcompile
  obtain rfl : r' = r := List.inj_on_of_nodup_map hnames hin hr (hname'.symm.trans hname)
  exact ⟨by simpa using henabled, hcompile⟩

omit hA hidx in
/-- In prevent mode that fails closed the controls are enforced. -/
theorem enforcedInline_of_ids (hids : idsPreventFailClosed q.getIds = true) :
    enforcedInline ir.ids = true := by
  simp only [idsPreventFailClosed, Bool.and_eq_true, beq_iff_eq] at hids
  obtain ⟨⟨henabled, hmode⟩, hclosed⟩ := hids
  cases h : ir.ids with
  | none => exact absurd henabled (compileIDs_none (h ▸ hC.ids))
  | some ids =>
      obtain ⟨-, hprevent, hopen, -⟩ := compileIDs_ok (h ▸ hC.ids)
      simp [enforcedInline, hprevent, hopen, hmode, hclosed]

/-- **The scope of the controls of a rule.** Some control of a rule matches a packet and its
signal exactly when the rule is enforced and the packet is in its scope. -/
theorem control_iff (hnames : (q.rules.map Rule.name).Nodup)
    (hids : idsPreventFailClosed q.getIds = true) {r : Rule} (hr : r ∈ q.rules) (pkt : Packet)
    {signal : String} (hs : signal ∈ suricataSignals) :
    (∃ control ∈ ir.appIDControls, control.ruleName = r.name ∧
        controlMatches pkt signal control = true) ↔
      r.disabled = false ∧ r.action ≠ .reject ∧ AppScope idx r pkt signal := by
  have hpolicy := (indexOf_of_newIndex hA hC.toTablesOf hidx).policy
  -- what a compiled rule's fields say of the packet
  have hscope : ∀ {rule}, compileRule c r = .ok rule →
      ((rule.action = .reject ↔ r.action = .reject) ∧
        addressMatches idx r.sourceAddresses pkt.src = .ok (prefixesOK rule.srcPrefixes pkt.src) ∧
        addressMatches idx r.destinationAddresses pkt.dst =
          .ok (prefixesOK rule.dstPrefixes pkt.dst)) := by
    intro rule hcompile
    obtain ⟨-, -, hsrc, hdst, -, haction, -⟩ := compileRule_ok hcompile
    refine ⟨?_, addressMatches_resolved hA hC hidx hsrc pkt.src_zone,
      addressMatches_resolved hA hC hidx hdst pkt.dst_zone⟩
    cases ha : r.action <;> simp [actionFromProto, ha] at haction <;> simp [← haction]
  constructor
  · rintro ⟨control, hmem, hname, hmatch⟩
    rw [hC.controls] at hmem
    obtain ⟨rule, hrule, hcontrol⟩ := controlOf_of_mem hmem
    obtain ⟨henabled, hcompile⟩ :=
      rule_of_name hC hnames hr hrule (hcontrol.ruleName.symm.trans hname)
    obtain ⟨haction, hsrc, hdst⟩ := hscope hcompile
    simp only [controlMatches, headerMatches, Bool.and_eq_true, beq_iff_eq] at hmatch
    obtain ⟨hsignal, ⟨hsrcOK, hdstOK⟩, hservice⟩ := hmatch
    obtain ⟨entry, hentry, hin⟩ := hcontrol.signal
    obtain ⟨app, happ, hvalue⟩ := (signal_iff hA hC hr hcompile hs).mp ⟨entry, hentry, hsignal ▸ hin⟩
    refine ⟨henabled, fun h => hcontrol.action_ne (haction.mpr h), ?_, ?_, ?_, ?_⟩
    · rw [hsrc, ← hcontrol.srcPrefixes, hsrcOK]
    · rw [hdst, ← hcontrol.dstPrefixes, hdstOK]
    · rw [hpolicy]
      exact (service_iff hA hC hr hcompile happ pkt).mp ⟨control.service, hcontrol.service, hservice⟩
    · rw [hpolicy]
      exact ⟨app, happ, hvalue⟩
  · rintro ⟨henabled, hne, hS⟩
    obtain ⟨rule, hrule, hcompile⟩ := exists_of_forall₂_left hC.rules
      (List.mem_filter.mpr ⟨hr, by simp [henabled]⟩)
    obtain ⟨haction, hsrc, hdst⟩ := hscope hcompile
    obtain ⟨app, happ, hvalue⟩ := hpolicy ▸ hS.signal
    obtain ⟨entry, hentry, hsignal⟩ := (signal_iff hA hC hr hcompile hs).mpr ⟨app, happ, hvalue⟩
    obtain ⟨service, hservice, hok⟩ :=
      (service_iff hA hC hr hcompile happ pkt).mpr (hpolicy ▸ hS.hints)
    obtain ⟨control, hmem, hcontrol, hengine, hsvc⟩ := exists_control (enforcedInline_of_ids hC hids)
      hrule (fun h => hne (haction.mp h)) hentry hsignal hservice
    obtain ⟨-, -, -, -, -, -, -, hname⟩ := compileRule_ok hcompile
    refine ⟨control, hC.controls ▸ hmem, hcontrol.ruleName.trans hname, ?_⟩
    have hsrcOK := hS.source
    have hdstOK := hS.destination
    rw [hsrc, Except.ok.injEq] at hsrcOK
    rw [hdst, Except.ok.injEq] at hdstOK
    simp only [controlMatches, headerMatches, Bool.and_eq_true, beq_iff_eq, hengine,
      hcontrol.srcPrefixes, hcontrol.dstPrefixes, hsrcOK, hdstOK, hsvc, true_and]
    exact hok

end Rules

/-- The applications a rule names. -/
def ruleApplications (p : Phragma.Policy) (r : Rule) : List Application :=
  p.applications.filter fun app => r.applications.contains app.name

theorem leadingApplications_of_notMem {p : Phragma.Policy} {r : Rule} (h : Any ∉ r.applications) :
    leadingApplications p r = ruleApplications p r := by
  unfold leadingApplications ruleApplications
  rw [leadingRefs_of_notMem h]

/-- Do the port hints of an application admit a packet? Without one, they admit every packet. -/
def portAdmits (app : Application) (pkt : Packet) : Bool :=
  app.ports.isEmpty || applicationPortMatches app (protocolOf pkt.l4) pkt.dport

/-- Every application that lists the signal has the port hints of all of them, as it has where
there is one application or all have the same hints. -/
def Unmixed (apps : List Application) (signal : String) : Prop :=
  ∀ app ∈ apps, applicationSignalValue app signal = true →
    ∀ other ∈ apps, ∀ hint ∈ other.ports, hint ∈ app.ports

instance (apps : List Application) (signal : String) : Decidable (Unmixed apps signal) :=
  inferInstanceAs (Decidable (∀ app ∈ apps, _))

/-- Of unmixed applications, one that lists the signal admits what all together do. -/
theorem hintsAdmit_of_unmixed {apps : List Application} {signal : String}
    (h : Unmixed apps signal) {app : Application} (happ : app ∈ apps)
    (hvalue : applicationSignalValue app signal = true) (pkt : Packet) :
    hintsAdmit apps pkt = true ↔ portAdmits app pkt = true := by
  have hhints := h app happ hvalue
  unfold hintsAdmit portAdmits
  simp only [Bool.or_eq_true, List.all_eq_true, List.any_eq_true, List.isEmpty_iff]
  constructor
  · rintro (hnone | ⟨other, hother, hport⟩)
    · exact .inl (hnone app happ)
    · refine .inr ?_
      unfold applicationPortMatches at hport ⊢
      obtain ⟨hint, hmem, hhint⟩ := List.any_eq_true.mp hport
      exact List.any_eq_true.mpr ⟨hint, hhints other hother hint hmem, hhint⟩
  · rintro (hnone | hport)
    · refine .inl fun other hother => List.eq_nil_iff_forall_not_mem.mpr fun hint hmem => ?_
      have hin := hhints other hother hint hmem
      rw [hnone] at hin
      cases hin
    · exact .inr ⟨app, happ, hport⟩

/-- The claim of the rule itself: its zones, addresses and services match the flow, and one of
its applications lists the signal. -/
def coversFlow (idx : Index) (r : Rule) (fromZone toZone : String) (pkt : Packet)
    (signal : String) : Prop :=
  zoneMatches r.fromZones fromZone = true ∧ zoneMatches r.toZones toZone = true ∧
  addressMatches idx r.sourceAddresses pkt.src = .ok true ∧
  addressMatches idx r.destinationAddresses pkt.dst = .ok true ∧
  servicesMatch idx r.services (protocolOf pkt.l4) pkt.dport = .ok true ∧
  ∃ app ∈ ruleApplications idx.policy r, applicationSignalValue app signal = true

/-- An application known by its port and by its protocol. -/
def adminApp : Application :=
  { name := "admin", category := "business-app", engineSignals := ["http"]
    ports := [{ protocol := .tcp, ports := [{ start := 8443 }] }] }

/-- Deny the application to one zone. -/
def blockAdmin : Rule :=
  { id := "rule-1", name := "block-admin", fromZones := ["lan"], applications := ["admin"]
    action := .deny }

/-- Inspection in prevent mode that fails closed. -/
def preventIds : Ids :=
  { enabled := true, mode := .prevent, failureBehavior := .failClosed }

/-- An inline node with the application and some rules. -/
def inlineNode (rules : List Rule) : Phragma.Policy where
  zones := [{ name := "lan", interfaces := ["eth1"] }, { name := "dmz", interfaces := ["eth2"] }]
  applications := [adminApp]
  rules
  ids := some preventIds

/-- A packet to a TCP port. -/
def tcpPacket (dport : Nat) : Packet :=
  { iif := "eth2", oif := "eth1", header := .ip 0x0a000001#32 0x0a000002#32, l4 := .tcp, dport
    ct := .established, syn := false }

/-- What Suricata does with a packet and its signal: with the default action order a `pass`
signature wins over every `drop` one. `appIDControlRule` writes a control that allows as
`pass` and every other as `drop`. -/
def suricataAction (controls : List AppIDControlIR) (pkt : Packet) (signal : String) :
    Option RuleAction :=
  let hits := controls.filter (controlMatches pkt signal)
  if hits.any fun control => control.action == .allow then some .allow
  else if hits.isEmpty then none
  else some .deny

/-- The control that comes from the earliest rule among those that match. -/
def earliestControl (rules : List Rule) (controls : List AppIDControlIR) (pkt : Packet)
    (signal : String) : Option AppIDControlIR :=
  rules.findSome? fun r =>
    controls.find? fun control => control.ruleName == r.name && controlMatches pkt signal control

/-- An enabled rule with an action whose controls are about a packet and its signal. -/
structure Enforced (idx : Index) (action : Action) (pkt : Packet) (signal : String) (r : Rule) :
    Prop extends AppScope idx r pkt signal where
  enabled : r.disabled = false
  action_eq : r.action = action

/-- A packet that a rule denies and a later rule allows is also allowed by an earlier one. -/
def AllowsFirst (idx : Index) (rules : List Rule) : Prop :=
  ∀ pre r post, rules = pre ++ r :: post → ∀ pkt, ∀ signal ∈ suricataSignals,
    Enforced idx .deny pkt signal r → (∃ r' ∈ post, Enforced idx .allow pkt signal r') →
    ∃ r' ∈ pre, Enforced idx .allow pkt signal r'

/-- The action of a control that grants, or does not. -/
def actionOf (grant : Bool) : RuleAction := if grant then .allow else .deny

theorem actionOf_injective : Function.Injective actionOf := by
  intro a b
  cases a <;> cases b <;> simp [actionOf]

section Order

variable {q : Phragma.Policy} (hA : Accepted q) {c : Compilation} {ir : IR} (hC : Compiled q c ir)
  (hnames : (q.rules.map Rule.name).Nodup) {idx : Index} (hidx : newIndex q = .ok idx)

/-- Is a rule enforced by some control that matches? -/
def ruleHit (controls : List AppIDControlIR) (pkt : Packet) (signal : String) (r : Rule) : Bool :=
  controls.any fun control => control.ruleName == r.name && controlMatches pkt signal control

/-- Does a rule allow? -/
def ruleGrants (r : Rule) : Bool := r.action == .allow

include hC hnames in
/-- A control has the action of its rule. -/
theorem control_action {control : AppIDControlIR} (hmem : control ∈ ir.appIDControls) {r : Rule}
    (hr : r ∈ q.rules) (hname : control.ruleName = r.name) :
    control.action = actionOf (ruleGrants r) ∧ (r.action = .allow ∨ r.action = .deny) := by
  rw [hC.controls] at hmem
  obtain ⟨rule, hrule, hcontrol⟩ := controlOf_of_mem hmem
  obtain ⟨-, hcompile⟩ := rule_of_name hC hnames hr hrule (hcontrol.ruleName.symm.trans hname)
  obtain ⟨-, -, -, -, -, haction, -⟩ := compileRule_ok hcompile
  have hne := hcontrol.action_ne
  rw [hcontrol.action]
  unfold ruleGrants actionOf
  cases ha : r.action <;> simp [actionFromProto, ha] at haction <;> simp [← haction] at hne ⊢

include hC in
/-- Every control has a rule. -/
theorem rule_of_control {control : AppIDControlIR} (hmem : control ∈ ir.appIDControls) :
    ∃ r ∈ q.rules, control.ruleName = r.name := by
  rw [hC.controls] at hmem
  obtain ⟨rule, hrule, hcontrol⟩ := controlOf_of_mem hmem
  obtain ⟨r, hr, hcompile⟩ := exists_of_forall₂_right hC.rules hrule
  obtain ⟨-, -, -, -, -, -, -, hname⟩ := compileRule_ok hcompile
  exact ⟨r, (List.mem_filter.mp hr).1, hcontrol.ruleName.trans hname⟩

include hC hnames in
/-- The earliest control is one of the first rule that is hit. -/
theorem earliestControl_action (pkt : Packet) (signal : String) :
    (earliestControl q.rules ir.appIDControls pkt signal).map AppIDControlIR.action =
      ((q.rules.find? (ruleHit ir.appIDControls pkt signal)).map ruleGrants).map actionOf := by
  have hrun : ∀ rules : List Rule, (∀ r ∈ rules, r ∈ q.rules) →
      (earliestControl rules ir.appIDControls pkt signal).map AppIDControlIR.action =
        ((rules.find? (ruleHit ir.appIDControls pkt signal)).map ruleGrants).map actionOf := by
    intro rules
    induction rules with
    | nil => intro _; rfl
    | cons r rules ih =>
        intro hsub
        have ih := ih fun r' hr' => hsub r' (List.mem_cons_of_mem _ hr')
        unfold earliestControl at ih ⊢
        rw [List.findSome?_cons, List.find?_cons]
        cases hfind : ir.appIDControls.find? (fun control =>
          control.ruleName == r.name && controlMatches pkt signal control) with
        | none =>
            have hmiss : ruleHit ir.appIDControls pkt signal r = false := by
              rw [ruleHit, List.any_eq_false]
              exact List.find?_eq_none.mp hfind
            rw [hmiss]
            exact ih
        | some control =>
            have hmem := List.mem_of_find?_eq_some hfind
            have hP := List.find?_some hfind
            have hhit : ruleHit ir.appIDControls pkt signal r = true :=
              List.any_eq_true.mpr ⟨control, hmem, hP⟩
            rw [Bool.and_eq_true, beq_iff_eq] at hP
            rw [hhit]
            simp only [Option.map_some]
            rw [(control_action hC hnames hmem (hsub r List.mem_cons_self) hP.1).1]
  exact hrun q.rules fun _ h => h

include hC hnames in
/-- Suricata lets a rule that grants win. -/
theorem suricataAction_eq (pkt : Packet) (signal : String) :
    suricataAction ir.appIDControls pkt signal =
      (grantWins (ruleHit ir.appIDControls pkt signal) ruleGrants q.rules).map actionOf := by
  have hgrants : (ir.appIDControls.filter (controlMatches pkt signal)).any
        (fun control => control.action == .allow) =
      q.rules.any fun r => ruleHit ir.appIDControls pkt signal r && ruleGrants r := by
    rw [Bool.eq_iff_iff, List.any_eq_true, List.any_eq_true]
    constructor
    · rintro ⟨control, hmem, hallow⟩
      obtain ⟨hmem, hmatch⟩ := List.mem_filter.mp hmem
      obtain ⟨r, hr, hname⟩ := rule_of_control hC hmem
      have haction := (control_action hC hnames hmem hr hname).1
      rw [haction, beq_iff_eq] at hallow
      refine ⟨r, hr, Bool.and_eq_true_iff.mpr ⟨?_, actionOf_injective hallow⟩⟩
      exact List.any_eq_true.mpr ⟨control, hmem, by simp [hname, hmatch]⟩
    · rintro ⟨r, hr, hboth⟩
      obtain ⟨hhit, hgrant⟩ := Bool.and_eq_true_iff.mp hboth
      obtain ⟨control, hmem, hP⟩ := List.any_eq_true.mp hhit
      rw [Bool.and_eq_true, beq_iff_eq] at hP
      have haction := (control_action hC hnames hmem hr hP.1).1
      refine ⟨control, List.mem_filter.mpr ⟨hmem, hP.2⟩, ?_⟩
      rw [haction, hgrant]
      rfl
  have hempty : (ir.appIDControls.filter (controlMatches pkt signal)).isEmpty =
      !q.rules.any (ruleHit ir.appIDControls pkt signal) := by
    rw [Bool.eq_iff_iff, Bool.not_eq_true', List.any_eq_false, List.isEmpty_iff,
      List.filter_eq_nil_iff]
    constructor
    · intro hnone r hr hhit
      obtain ⟨control, hmem, hP⟩ := List.any_eq_true.mp hhit
      exact hnone control hmem (Bool.and_eq_true_iff.mp hP).2
    · intro hnone control hmem hmatch
      obtain ⟨r, hr, hname⟩ := rule_of_control hC hmem
      exact hnone r hr (List.any_eq_true.mpr ⟨control, hmem, by simp [hname, hmatch]⟩)
  unfold suricataAction grantWins
  simp only [hgrants, hempty]
  cases q.rules.any fun r => ruleHit ir.appIDControls pkt signal r && ruleGrants r with
  | true => rfl
  | false => cases q.rules.any (ruleHit ir.appIDControls pkt signal) <;> rfl

include hA hC hnames hidx in
/-- A rule is hit exactly when it is enforced. -/
theorem ruleHit_iff (hids : idsPreventFailClosed q.getIds = true) {r : Rule} (hr : r ∈ q.rules)
    (pkt : Packet) {signal : String} (hs : signal ∈ suricataSignals) :
    ruleHit ir.appIDControls pkt signal r = true ↔
      Enforced idx .allow pkt signal r ∨ Enforced idx .deny pkt signal r := by
  have hany : ruleHit ir.appIDControls pkt signal r = true ↔ ∃ control ∈ ir.appIDControls,
      control.ruleName = r.name ∧ controlMatches pkt signal control = true := by
    simp only [ruleHit, List.any_eq_true, Bool.and_eq_true, beq_iff_eq]
  constructor
  · intro hhit
    obtain ⟨control, hmem, hname, hmatch⟩ := hany.mp hhit
    obtain ⟨henabled, -, hS⟩ :=
      (control_iff hA hC hidx hnames hids hr pkt hs).mp ⟨control, hmem, hname, hmatch⟩
    rcases (control_action hC hnames hmem hr hname).2 with haction | haction
    · exact .inl ⟨hS, henabled, haction⟩
    · exact .inr ⟨hS, henabled, haction⟩
  · intro h
    refine hany.mpr ((control_iff hA hC hidx hnames hids hr pkt hs).mpr ?_)
    rcases h with h | h
    · exact ⟨h.enabled, by simp [h.action_eq], h.toAppScope⟩
    · exact ⟨h.enabled, by simp [h.action_eq], h.toAppScope⟩

include hA hC hnames hidx in
theorem hit_grants_iff (hids : idsPreventFailClosed q.getIds = true) {r : Rule} (hr : r ∈ q.rules)
    (pkt : Packet) {signal : String} (hs : signal ∈ suricataSignals) :
    (ruleHit ir.appIDControls pkt signal r = true ∧ ruleGrants r = true) ↔
      Enforced idx .allow pkt signal r := by
  rw [ruleHit_iff hA hC hnames hidx hids hr pkt hs, ruleGrants, beq_iff_eq]
  constructor
  · rintro ⟨h | h, hgrant⟩
    · exact h
    · exact ⟨h.toAppScope, h.enabled, hgrant⟩
  · exact fun h => ⟨.inl h, h.action_eq⟩

include hA hC hnames hidx in
theorem hit_denies_iff (hids : idsPreventFailClosed q.getIds = true) {r : Rule} (hr : r ∈ q.rules)
    (pkt : Packet) {signal : String} (hs : signal ∈ suricataSignals) :
    (ruleHit ir.appIDControls pkt signal r = true ∧ ruleGrants r = false) ↔
      Enforced idx .deny pkt signal r := by
  rw [ruleHit_iff hA hC hnames hidx hids hr pkt hs, ruleGrants, beq_eq_false_iff_ne]
  constructor
  · rintro ⟨h | h, hgrant⟩
    · exact absurd h.action_eq hgrant
    · exact h
  · exact fun h => ⟨.inr h, by simp [h.action_eq]⟩

end Order

/-- **Suricata keeps the order of the rules exactly when allows come first.** For every policy
that compiles, with inspection in prevent mode that fails closed: on every packet and signal the
action of Suricata is that of the matching control from the earliest rule, if and only if every
packet that an enabled `deny` rule and a later enabled `allow` rule are both about is also one of
an enabled `allow` rule before them. -/
theorem firstMatch_iff {H : IdentityHash} {p : Phragma.Policy} {ir : IR} {idx : Index}
    (hcompile : Compile H p = .ok ir) (hidx : newIndex (normalizeIdentities H p) = .ok idx)
    (hids : idsPreventFailClosed p.getIds = true) :
    (∀ pkt, ∀ signal ∈ suricataSignals, suricataAction ir.appIDControls pkt signal =
        (earliestControl (normalizeIdentities H p).rules ir.appIDControls pkt signal).map
          AppIDControlIR.action) ↔
      AllowsFirst idx (normalizeIdentities H p).rules := by
  obtain ⟨haccepted, c, hC⟩ := Compile_ok hcompile
  have hA := accepted_of_Validate haccepted
  have hnames := rule_names_nodup haccepted
  have hallow : ∀ {r}, r ∈ (normalizeIdentities H p).rules → ∀ {pkt signal},
      signal ∈ suricataSignals → _ := fun hr pkt _ hs =>
    hit_grants_iff hA hC hnames hidx hids hr pkt hs
  have hdeny : ∀ {r}, r ∈ (normalizeIdentities H p).rules → ∀ {pkt signal},
      signal ∈ suricataSignals → _ := fun hr pkt _ hs =>
    hit_denies_iff hA hC hnames hidx hids hr pkt hs
  -- on one packet: the first hit against the hits that grant
  have hone : ∀ pkt signal, suricataAction ir.appIDControls pkt signal =
        (earliestControl (normalizeIdentities H p).rules ir.appIDControls pkt signal).map
          AppIDControlIR.action ↔
      ((normalizeIdentities H p).rules.find? (ruleHit ir.appIDControls pkt signal)).map ruleGrants =
        grantWins (ruleHit ir.appIDControls pkt signal) ruleGrants (normalizeIdentities H p).rules := by
    intro pkt signal
    rw [suricataAction_eq hC hnames, earliestControl_action hC hnames,
      (Option.map_injective actionOf_injective).eq_iff, eq_comm]
  simp only [hone, find?_eq_grantWins_iff]
  constructor
  · rintro h pre r post hsplit pkt signal hs hr ⟨r', hr', henforced⟩
    have hmem : ∀ {x}, x ∈ pre ++ r :: post → x ∈ (normalizeIdentities H p).rules :=
      fun hx => hsplit ▸ hx
    obtain ⟨hrhit, hrdeny⟩ := (hdeny (hmem (by simp)) hs).mpr hr
    obtain ⟨b, hb, hbgrant⟩ := h pkt signal hs pre r post hsplit hrhit hrdeny
      ⟨r', hr', (hallow (hmem (by simp [hr'])) hs).mpr henforced⟩
    exact ⟨b, hb, (hallow (hmem (by simp [hb])) hs).mp hbgrant⟩
  · rintro h pkt signal hs pre r post hsplit hrhit hrdeny ⟨r', hr', hr'grant⟩
    have hmem : ∀ {x}, x ∈ pre ++ r :: post → x ∈ (normalizeIdentities H p).rules :=
      fun hx => hsplit ▸ hx
    obtain ⟨b, hb, henforced⟩ := h pre r post hsplit pkt signal hs
      ((hdeny (hmem (by simp)) hs).mp ⟨hrhit, hrdeny⟩)
      ⟨r', hr', (hallow (hmem (by simp [hr'])) hs).mp hr'grant⟩
    exact ⟨b, hb, (hallow (hmem (by simp [hb])) hs).mpr henforced⟩

/-- Allow the application. -/
def allowAdmin : Rule :=
  { id := "rule-2", name := "allow-admin", applications := ["admin"], action := .allow }

theorem firstMatch_allowAdmin :
    ∃ ir idx, Compile .zero (inlineNode [allowAdmin, blockAdmin]) = .ok ir ∧
      newIndex (normalizeIdentities .zero (inlineNode [allowAdmin, blockAdmin])) = .ok idx ∧
      ∀ pkt, ∀ signal ∈ suricataSignals, suricataAction ir.appIDControls pkt signal =
        (earliestControl (normalizeIdentities .zero (inlineNode [allowAdmin, blockAdmin])).rules
          ir.appIDControls pkt signal).map AppIDControlIR.action := by
  obtain ⟨hrules, hok⟩ : (normalizeIdentities .zero (inlineNode [allowAdmin, blockAdmin])).rules =
      [allowAdmin, blockAdmin] ∧
        (Compile .zero (inlineNode [allowAdmin, blockAdmin])).toOption.isSome = true := by
    decide
  obtain ⟨ir, hir⟩ := Option.isSome_iff_exists.mp hok
  have hcompile := toOption_eq_some.mp hir
  obtain ⟨haccepted, c, hC⟩ := Compile_ok hcompile
  obtain ⟨idx, hidx, -⟩ := newIndex_ok (accepted_of_Validate haccepted) hC.toTablesOf
  refine ⟨ir, idx, hcompile, hidx, (firstMatch_iff hcompile hidx (by decide)).mpr ?_⟩
  rintro pre r post hsplit pkt signal - hr ⟨r', hr', henforced⟩
  rw [hrules] at hsplit
  have haction := hr.action_eq
  have haction' := henforced.action_eq
  -- the only rule that denies is the last one
  match pre, hsplit with
  | [], hsplit =>
      cases hsplit
      cases haction
  | [_], hsplit =>
      cases hsplit
      cases hr'
  | _ :: _ :: pre, hsplit => simp at hsplit

/-- **A later rule that allows beats an earlier one that denies.** -/
theorem allow_beats_deny : ¬ ∀ (H : IdentityHash) (p : Phragma.Policy) (ir : IR),
    Compile H p = .ok ir → idsPreventFailClosed p.getIds = true →
    ∀ pkt, ∀ signal ∈ suricataSignals, suricataAction ir.appIDControls pkt signal =
      (earliestControl (normalizeIdentities H p).rules ir.appIDControls pkt signal).map
        AppIDControlIR.action := by
  intro hall
  have hok : (Compile .zero (inlineNode [blockAdmin, allowAdmin])).toOption.any (fun ir =>
      decide (suricataAction ir.appIDControls (tcpPacket 8443) "http" = some .allow) &&
      decide ((earliestControl
        (normalizeIdentities .zero (inlineNode [blockAdmin, allowAdmin])).rules ir.appIDControls
        (tcpPacket 8443) "http").map AppIDControlIR.action = some .deny)) = true := by
    decide
  obtain ⟨ir, hir, hboth⟩ := (Option.any_eq_true _ _).mp hok
  rw [Bool.and_eq_true, decide_eq_true_iff, decide_eq_true_iff] at hboth
  have h := hall .zero _ ir (toOption_eq_some.mp hir) (by decide) (tcpPacket 8443) "http" (by decide)
  rw [hboth.1, hboth.2] at h
  cases h

end Phragma.Explain
