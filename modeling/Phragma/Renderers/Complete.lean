import Phragma.Compiler.Applications
import Phragma.Renderers.RenderAll

/-!
# Phragma.Renderers.Complete

**When an accepted policy renders.** `RenderAll_succeeds_iff` states exactly which accepted
policies the pipeline turns into artifacts. Of the nine renderers only nftables refuses
anything: a rule whose source and destination have no address family in common, and a
destination translation of a service without ports. The rest is what the compiler refuses
(`Phragma.Compiler.Complete`).
-/

namespace Phragma.Renderers

open Lib Go Policy Compiler

/-! ### The condition -/

/-- Does an address list name an address of the family? -/
def namesFamily (p : Phragma.Policy) (refs : List String) (is4 : Bool) : Bool :=
  p.addresses.any fun a =>
    refs.contains a.name && ((parsePrefix a.cidr).map fun pfx => pfx.addr.is4) == some is4

/-- A list of references that restricts nothing. -/
def Unrestricted (refs : List String) : Prop := refs = [] ∨ Any ∈ refs

instance (refs : List String) : Decidable (Unrestricted refs) :=
  inferInstanceAs (Decidable (_ ∨ _))

/-- The sources and destinations of a rule have an address family in common. -/
def FamiliesMeet (p : Phragma.Policy) (r : Rule) : Prop :=
  Unrestricted r.sourceAddresses ∨ Unrestricted r.destinationAddresses ∨
    ∃ is4, namesFamily p r.sourceAddresses is4 = true ∧
      namesFamily p r.destinationAddresses is4 = true

/-- What an accepted policy needs to render. -/
structure Renderable (p : Phragma.Policy) : Prop extends Compilable p where
  families : ∀ r ∈ p.rules, r.disabled = false → ¬ SignalOnly p r → FamiliesMeet p r
  ports : ∀ dn ∈ p.getNat.destination, ∀ s ∈ p.services, s.name = dn.service → s.ports ≠ []

/-! ### The ruleset

Each element is rendered on its own, and one that fails fails the whole. -/

namespace Nftables

/-- A rule has a family to be emitted for unless its sides exclude each other. -/
theorem families_ne_nil {r : RuleIR} :
    families r ≠ [] ↔ r.srcPrefixes = [] ∨ r.dstPrefixes = [] ∨
      ∃ is4, (∃ s ∈ r.srcPrefixes, s.addr.is4 = is4) ∧ ∃ d ∈ r.dstPrefixes, d.addr.is4 = is4 := by
  have hsplit4 : ∀ ps : List Prefix, split4 ps ≠ [] ↔ ∃ s ∈ ps, s.addr.is4 = true := by
    intro ps
    simp [split4, List.filter_eq_nil_iff]
  have hsplit6 : ∀ ps : List Prefix, split6 ps ≠ [] ↔ ∃ s ∈ ps, s.addr.is4 = false := by
    intro ps
    simp [split6, List.filter_eq_nil_iff]
  have hone : ∀ {ps : List Prefix}, ps ≠ [] → split4 ps ≠ [] ∨ split6 ps ≠ [] := by
    intro ps hne
    obtain ⟨s, hs⟩ := List.exists_mem_of_ne_nil _ hne
    cases h4 : s.addr.is4 with
    | true => exact .inl ((hsplit4 ps).mpr ⟨s, hs, h4⟩)
    | false => exact .inr ((hsplit6 ps).mpr ⟨s, hs, h4⟩)
  simp only [Bool.exists_bool, ← hsplit4, ← hsplit6]
  by_cases hsrc : r.srcPrefixes = []
  · by_cases hdst : r.dstPrefixes = []
    · simp [families, hsrc, hdst]
    · rcases hone hdst with h | h <;> simp [families, hsrc, hdst, h]
  · by_cases hdst : r.dstPrefixes = []
    · rcases hone hsrc with h | h <;> simp [families, hsrc, hdst, h]
    · simp only [families, hsrc, hdst, List.isEmpty_iff, Bool.and_eq_true, false_and, if_false,
        Bool.or_eq_true, Bool.not_eq_true', List.isEmpty_eq_false_iff, false_or]
      by_cases h4 : split4 r.srcPrefixes ≠ [] ∧ split4 r.dstPrefixes ≠ [] <;>
        by_cases h6 : split6 r.srcPrefixes ≠ [] ∧ split6 r.dstPrefixes ≠ [] <;> simp [h4, h6]

theorem ruleLines_succeeds_iff {r : RuleIR} {c : String} :
    (∃ lines, ruleLinesWithComment r c = .ok lines) ↔ families r ≠ [] := by
  unfold ruleLinesWithComment
  by_cases h : families r = [] <;> simp [h]

theorem dnatLine_succeeds_iff {d : DNATIR} :
    (∃ line, dnatLine d = .ok line) ↔ (d.protocol = .tcp ∨ d.protocol = .udp) ∧ d.ports ≠ [] := by
  unfold dnatLine dnatPortLine
  by_cases hports : d.ports = [] <;> cases hproto : d.protocol <;> simp [hports]

theorem renderRuleset_succeeds_iff {ir : IR} :
    (∃ rs, renderRuleset ir = .ok rs) ↔
      (∀ r ∈ ir.hostInputRules, families r ≠ []) ∧
      (∀ r ∈ ir.rules, r.appIDOnly = false → families r ≠ []) ∧
      ∀ d ∈ ir.dnat, (d.protocol = .tcp ∨ d.protocol = .udp) ∧ d.ports ≠ [] := by
  unfold renderRuleset
  simp only [exists_bind_ok, exists_pure_ok, and_true, exists_and_right, exists_mapM_ok,
    ruleLines_succeeds_iff, dnatLine_succeeds_iff, List.mem_filter, Bool.not_eq_true', and_imp]

theorem Render_succeeds_iff {ir : IR} :
    (∃ text, Render ir = .ok text) ↔ ∃ rs, renderRuleset ir = .ok rs := by
  unfold Render
  cases renderRuleset ir with
  | error e => exact ⟨nofun, nofun⟩
  | ok rs => exact ⟨fun _ => ⟨rs, rfl⟩, fun _ => ⟨_, rfl⟩⟩

end Nftables

/-! ### Rules and translations of an accepted policy

Families and ports of what is compiled are those of the objects. -/

section Accepted

variable {p : Phragma.Policy} (hA : Accepted p) {c : Compilation} (hT : TablesOf p c)

include hA hT

theorem namesFamily_iff {refs : List String} {out : List Prefix}
    (h : resolvePrefixes c refs = .ok out) (hany : Any ∉ refs) (is4 : Bool) :
    (∃ pfx ∈ out, pfx.addr.is4 = is4) ↔ namesFamily p refs is4 = true := by
  simp only [namesFamily, mem_resolvePrefixes hA hT h hany, List.any_eq_true, Bool.and_eq_true,
    List.contains_iff_mem, beq_iff_eq, Option.map_eq_some_iff]
  constructor
  · rintro ⟨pfx, ⟨a, ha, href, hpfx⟩, his4⟩
    exact ⟨a, ha, href, pfx, hpfx, his4⟩
  · rintro ⟨a, ha, href, pfx, hpfx, his4⟩
    exact ⟨pfx, ⟨a, ha, href, hpfx⟩, his4⟩

theorem families_iff_meet {r : Rule} {rir : RuleIR} (h : compileRule c r = .ok rir) :
    Nftables.families rir ≠ [] ↔ FamiliesMeet p r := by
  obtain ⟨-, -, hsrc, hdst, -⟩ := compileRule_ok h
  rw [Nftables.families_ne_nil, resolvePrefixes_eq_nil hsrc, resolvePrefixes_eq_nil hdst]
  unfold FamiliesMeet
  by_cases hs : Unrestricted r.sourceAddresses
  · simp [hs, show r.sourceAddresses = [] ∨ Any ∈ r.sourceAddresses from hs]
  · by_cases hd : Unrestricted r.destinationAddresses
    · simp [hd, show r.destinationAddresses = [] ∨ Any ∈ r.destinationAddresses from hd]
    · have hs' := not_or.mp hs
      have hd' := not_or.mp hd
      simp only [hs', hd', hs, hd, or_self, false_or, namesFamily_iff hA hT hsrc hs'.2,
        namesFamily_iff hA hT hdst hd'.2]

omit hA hT in
/-- A host-input rule has no destination, so nothing excludes its sources. -/
theorem families_of_compileHostInputRule {r : HostInputRule} {rir : RuleIR}
    (h : compileHostInputRule c r = .ok rir) : Nftables.families rir ≠ [] := by
  obtain ⟨-, -, -, hdst, -⟩ := compileHostInputRule_ok h
  exact Nftables.families_ne_nil.mpr (.inr (.inl hdst))

theorem dnat_ports_iff {dn : DestinationNat} (hdn : dn ∈ p.getNat.destination) {d : DNATIR}
    (h : compileDNAT c dn = .ok d) :
    ((d.protocol = .tcp ∨ d.protocol = .udp) ∧ d.ports ≠ []) ↔
      ∀ s ∈ p.services, s.name = dn.service → s.ports ≠ [] := by
  obtain ⟨-, ⟨m, hm, hproto, hports⟩, -⟩ := compileDNAT_ok h
  obtain ⟨s, hs, -, hsm⟩ := service_of_lookup hA hT hm
  obtain ⟨s, hmem, hname, rfl⟩ := exists_of_lookup_tableOf hs
  rw [id_eq] at hsm
  have hcheck := hA.destination_ok dn hdn
  unfold checkDestinationNat at hcheck
  simp only [List.append_eq_nil_iff] at hcheck
  have hl : (collectAll p).2.services.lookup dn.service = some s := by
    rw [hA.services_eq, ← hname]
    exact lookup_tableOf_of_mem hA.services.names hmem
  have hported : s.protocol = .tcp ∨ s.protocol = .udp := by
    have hproto := hcheck.1.1.1.2
    rw [hl] at hproto
    cases hp : s.protocol <;> simp [errIf, hp] at hproto ⊢
  have hcompiled : (m.protocol = .tcp ∨ m.protocol = .udp) ∧ (m.ports = [] ↔ s.ports = []) := by
    rcases hported with hp | hp <;>
      · simp only [serviceMatch, hp, Except.ok.injEq] at hsm
        subst hsm
        simp [compilePorts]
  rw [hproto, hports]
  constructor
  · rintro ⟨-, hne⟩ s' hs' hname'
    have hl' : (tableOf Service.name id p.services).lookup s'.name = some s' :=
      lookup_tableOf_of_mem hA.services.names hs'
    have heq : s' = s := by
      rw [hname', ← hA.services_eq, hl] at hl'
      exact (Option.some.inj hl').symm
    rw [heq]
    exact fun hnil => hne (hcompiled.2.mpr hnil)
  · intro hall
    exact ⟨hcompiled.1, fun hnil => hall s hmem hname (hcompiled.2.mp hnil)⟩

end Accepted

/-! ### The pipeline -/

theorem resolveQueueCount_rules (opts : Options) (ir : IR) :
    (resolveQueueCount opts ir).rules = ir.rules ∧
      (resolveQueueCount opts ir).hostInputRules = ir.hostInputRules ∧
      (resolveQueueCount opts ir).dnat = ir.dnat := by
  unfold resolveQueueCount
  cases ir.ids with
  | none => exact ⟨rfl, rfl, rfl⟩
  | some ids => cases hp : ids.prevent <;> simp [hp]

/-- The standard renderers leave the outcome to nftables. -/
theorem renderIR_succeeds_iff {plan : IR → String} {opts : Options} {ir : IR} :
    (∃ artifacts, renderIR (.standard plan) opts ir = .ok artifacts) ↔
      ∃ rs, Nftables.renderRuleset ir = .ok rs := by
  rw [← Nftables.Render_succeeds_iff]
  unfold renderIR step OtherRenderers.standard
  simp only [exists_bind_ok, mapError_ok, Except.ok.injEq, exists_pure_ok, and_true, exists_eq']

/-- The compiled policy renders exactly under the policy's own conditions. -/
theorem renderRuleset_compiled_iff {p : Phragma.Policy} (hA : Accepted p) {c : Compilation}
    {ir : IR} (hC : Compiled p c ir) (opts : Options) :
    (∃ rs, Nftables.renderRuleset (resolveQueueCount opts ir) = .ok rs) ↔
      (∀ r ∈ p.rules, r.disabled = false → ¬ SignalOnly p r → FamiliesMeet p r) ∧
      ∀ dn ∈ p.getNat.destination, ∀ s ∈ p.services, s.name = dn.service → s.ports ≠ [] := by
  have hT := hC.toTablesOf
  obtain ⟨hrules, hhost, hdnat⟩ := resolveQueueCount_rules opts ir
  rw [Nftables.renderRuleset_succeeds_iff, hrules, hhost, hdnat]
  constructor
  · rintro ⟨-, hfam, hdst⟩
    refine ⟨fun r hr henabled hsig => ?_, fun dn hdn => ?_⟩
    · obtain ⟨rir, hrir, hcompile⟩ := exists_of_forall₂_left hC.rules
        (List.mem_filter.mpr ⟨hr, by simp [henabled]⟩)
      have honly : rir.appIDOnly = false := by
        rw [Bool.eq_false_iff]
        exact fun h => hsig ((appIDOnly_iff hA hT hr hcompile).mp h)
      exact (families_iff_meet hA hT hcompile).mp (hfam rir hrir honly)
    · obtain ⟨d, hd, hcompile⟩ := exists_of_forall₂_left hC.dnat hdn
      exact (dnat_ports_iff hA hT hdn hcompile).mp (hdst d hd)
  · rintro ⟨hfam, hdst⟩
    refine ⟨fun rir hrir => ?_, fun rir hrir honly => ?_, fun d hd => ?_⟩
    · cases hhi : p.hostInput with
      | none =>
          have hnone := hC.hostInput
          rw [hhi, compileHostInput, Except.ok.injEq, Prod.mk.injEq] at hnone
          rw [← hnone.2] at hrir
          cases hrir
      | some hi =>
          obtain ⟨r, -, hcompile⟩ := exists_of_forall₂_right
            (compileHostInput_ok (hhi ▸ hC.hostInput)) hrir
          exact families_of_compileHostInputRule hcompile
    · obtain ⟨r, hr, hcompile⟩ := exists_of_forall₂_right hC.rules hrir
      obtain ⟨hr, henabled⟩ := List.mem_filter.mp hr
      refine (families_iff_meet hA hT hcompile).mpr (hfam r hr (by simpa using henabled) ?_)
      intro hsig
      rw [(appIDOnly_iff hA hT hr hcompile).mpr hsig] at honly
      cases honly
    · obtain ⟨dn, hdn, hcompile⟩ := exists_of_forall₂_right hC.dnat hd
      exact (dnat_ports_iff hA hT hdn hcompile).mpr (hdst dn hdn)

/-- **When an accepted policy renders.** For every policy that passes validation after its
identities are normalized, whatever the renderer options: the pipeline returns artifacts if
and only if the policy is `Renderable`. -/
theorem RenderAll_succeeds_iff {plan : IR → String} {H : IdentityHash} {opts : Options}
    {p : Phragma.Policy} (haccepted : Validate (normalizeIdentities H p) = []) :
    (∃ artifacts, RenderAll (.standard plan) H opts p = .ok artifacts) ↔
      Renderable (normalizeIdentities H p) := by
  have hA := accepted_of_Validate haccepted
  unfold RenderAll
  rw [exists_bind_ok]
  simp only [renderIR_succeeds_iff]
  rw [compile_and_iff haccepted fun hC => renderRuleset_compiled_iff hA hC opts]
  constructor
  · rintro ⟨hcompilable, hfam, hports⟩
    exact ⟨hcompilable, hfam, hports⟩
  · intro h
    exact ⟨h.toCompilable, h.families, h.ports⟩

/-- A rule that lets the outside reach a server. -/
def publishWeb : Rule :=
  { name := "publish", fromZones := ["wan"], toZones := ["lan"], destinationAddresses := ["web"]
    services := ["https"], action := .allow }

/-- The translation that publishes the server. -/
def webIn : DestinationNat :=
  { name := "web-in", fromZone := "wan", service := "https", destinationAddress := "public"
    translatedAddress := "web" }

/-- A node with two zones, a rule between them and a published service. -/
def branchOffice : Phragma.Policy where
  zones := [{ name := "wan", interfaces := ["eth0"] }, { name := "lan", interfaces := ["eth1"] }]
  addresses := [{ name := "public", cidr := "203.0.113.10/32" },
    { name := "web", cidr := "10.0.0.80/32" }]
  services := [{ name := "https", protocol := .tcp, ports := [{ start := 443 }] }]
  rules := [publishWeb]
  nat := some { destination := [webIn] }

theorem RenderAll_succeeds_branchOffice :
    Validate (normalizeIdentities .zero branchOffice) = [] ∧
      (∃ artifacts, RenderAll (.standard fun _ => "") .zero {} branchOffice = .ok artifacts) ∧
      Renderable (normalizeIdentities .zero branchOffice) := by
  obtain ⟨haccepted, hok⟩ : Validate (normalizeIdentities .zero branchOffice) = [] ∧
      (RenderAll (.standard fun _ => "") .zero {} branchOffice).isOk = true := by decide +kernel
  have hrender : ∃ artifacts,
      RenderAll (.standard fun _ => "") .zero {} branchOffice = .ok artifacts := by
    cases h : RenderAll (.standard fun _ => "") .zero {} branchOffice with
    | error e => simp [h, Except.isOk, Except.toBool] at hok
    | ok artifacts => exact ⟨artifacts, rfl⟩
  exact ⟨haccepted, hrender, (RenderAll_succeeds_iff haccepted).mp hrender⟩

/-- Inspection in detect mode on a node without a single interface. -/
def blindDetect : Phragma.Policy where
  ids := some { enabled := true, mode := .detect }

/-- **Validation is not complete for rendering.** -/
theorem accepted_not_rendered : ¬ ∀ (plan : IR → String) (H : IdentityHash) (opts : Options)
    (p : Phragma.Policy), Validate (normalizeIdentities H p) = [] →
      ∃ artifacts, RenderAll (.standard plan) H opts p = .ok artifacts := by
  intro hall
  have haccepted : Validate (normalizeIdentities .zero blindDetect) = [] := by decide +kernel
  obtain ⟨artifacts, h⟩ := hall (fun _ => "") .zero {} blindDetect haccepted
  have herror : Compile .zero blindDetect =
      .error "ids: detect mode needs zone interfaces or monitor_interfaces" := by decide +kernel
  unfold RenderAll at h
  rw [herror] at h
  cases h

end Phragma.Renderers
