import Phragma.Compiler.Complete
import Phragma.Engines.Lines
import Phragma.Renderers.Plain

/-!
# Phragma.Engines.Netdev

The netdev engine's reading of its artifact (`internal/engines/netdev.go`), against what the
netdev renderer writes.

The engine knows two directives, `link` and `offload`; the renderer writes four. So the
artifact is read back exactly when the policy plans no QoS control and no zone protection and
every managed interface is a word: `netdev_round_trip_iff`.
-/

namespace Phragma.Engines

open Lib Go Policy Compiler Renderers

/-! ### The parser

A line is read by its words. A line of another directive is an error, which ends the reading. -/

/-- `netdevDirective`: one setting of an interface. -/
structure NetdevDirective where
  kind : String
  iface : String
  mtu : String := ""
  deriving DecidableEq, Repr

/-- One line: nothing for a comment, otherwise a directive. -/
def parseNetdevLine (line : String) : Except String (List NetdevDirective) :=
  if hasPrefixList line.toList ['#'] then .ok []
  else
    match fields line with
    | [kind, iface, key, mtu] =>
        if kind = "link" ∧ key = "mtu" then .ok [⟨"link", iface, mtu⟩]
        else .error ("netdev artifact: unknown directive " ++ quote line)
    | [kind, iface, key] =>
        if kind = "offload" ∧ key = "off" then .ok [⟨"offload", iface, ""⟩]
        else .error ("netdev artifact: unknown directive " ++ quote line)
    | _ => .error ("netdev artifact: unknown directive " ++ quote line)

/-- `parseNetdev`: the directives of an artifact. -/
def parseNetdev (config : String) : Except String (List NetdevDirective) :=
  List.flatten <$> (lines config).mapM parseNetdevLine

/-- The link and offload settings of the IR, as directives. -/
def netdevDirectives (ir : IR) : List NetdevDirective :=
  (Netdev.links ir).map (fun l => ⟨"link", l.interface, decimal l.mtu⟩) ++
    (Netdev.offloads ir).map (fun ifc => ⟨"offload", ifc, ""⟩)

/-! ### Lines -/

/-- Directives are made of words. -/
theorem isWord_of_parseNetdevLine {line : String} {ds : List NetdevDirective}
    (h : parseNetdevLine line = .ok ds) : ∀ d ∈ ds, IsWord d.iface := by
  intro d hd
  unfold parseNetdevLine at h
  split at h
  · cases h
    cases hd
  · split at h
    · next hfields =>
        split at h
        · cases h
          obtain rfl := List.mem_singleton.mp hd
          exact isWord_of_mem_fields (s := line) (by rw [hfields]; simp)
        · cases h
    · next hfields =>
        split at h
        · cases h
          obtain rfl := List.mem_singleton.mp hd
          exact isWord_of_mem_fields (s := line) (by rw [hfields]; simp)
        · cases h
    · cases h

/-- A line that starts with another character than a directive or a comment is refused. -/
theorem parseNetdevLine_refuses {line : String} {c : Char} (hc : isSpace c = false)
    (hhead : line.toList.head? = some c) (hother : c ≠ '#' ∧ c ≠ 'l' ∧ c ≠ 'o')
    (ds : List NetdevDirective) : parseNetdevLine line ≠ .ok ds := by
  obtain ⟨f, hf, hfc⟩ := fields_head hc hhead
  have hkind : f ≠ "link" ∧ f ≠ "offload" := by
    constructor
    · rintro rfl
      exact hother.2.1 (Option.some.inj (hfc.symm.trans (show _ = some 'l' from rfl)))
    · rintro rfl
      exact hother.2.2 (Option.some.inj (hfc.symm.trans (show _ = some 'o' from rfl)))
  have hcomment : hasPrefixList line.toList ['#'] = false := by
    cases hl : line.toList with
    | nil => rfl
    | cons d l =>
        rw [hl, List.head?_cons, Option.some.injEq] at hhead
        subst hhead
        simp [hasPrefixList, List.isPrefixOf, Ne.symm hother.1]
  intro h
  unfold parseNetdevLine at h
  rw [hcomment] at h
  simp only [Bool.false_eq_true, if_false] at h
  split at h
  · next hfields =>
      rw [hfields, List.head?_cons, Option.some.injEq] at hf
      simp [hf, hkind.1] at h
  · next hfields =>
      rw [hfields, List.head?_cons, Option.some.injEq] at hf
      simp [hf, hkind.2] at h
  · cases h

theorem parse_generatedBy : parseNetdevLine generatedBy = .ok [] := by decide

theorem lines_linkLine {l : LinkIR} (h : IsWord l.interface) :
    lines (Netdev.linkLine l) = [Netdev.linkLine l] := by
  have hmtu := isWord_decimal l.mtu
  unfold Netdev.linkLine
  refine lines_eq_self ?_ ?_ (getLast?_append_word hmtu) ?_
  · simp only [String.toList_append, List.mem_append, not_or]
    exact ⟨⟨⟨by decide, notMem_lineEnd h⟩, by decide⟩, notMem_lineEnd hmtu⟩
  · intro c hc
    simp only [String.toList_append, List.append_assoc] at hc
    cases hc
    decide
  · intro hnil
    simpa using congrArg String.toList hnil

theorem lines_offloadLine {ifc : String} (h : IsWord ifc) :
    lines (Netdev.offloadLine ifc) = [Netdev.offloadLine ifc] := by
  unfold Netdev.offloadLine
  refine lines_eq_self ?_ ?_ ?_ ?_
  · simp only [String.toList_append, List.mem_append, not_or]
    exact ⟨⟨by decide, notMem_lineEnd h⟩, by decide⟩
  · intro c hc
    simp only [String.toList_append, List.append_assoc] at hc
    cases hc
    decide
  · intro c hc
    rw [String.toList_append, List.getLast?_append_of_ne_nil _ (by decide)] at hc
    cases hc
    decide
  · intro hnil
    simpa using congrArg String.toList hnil

theorem parse_linkLine {l : LinkIR} (h : IsWord l.interface) :
    parseNetdevLine (Netdev.linkLine l) = .ok [⟨"link", l.interface, decimal l.mtu⟩] := by
  have hlink : IsWord "link" := by decide
  have hmtu : IsWord "mtu" := by decide
  have htext : Netdev.linkLine l =
      "link" ++ " " ++ (l.interface ++ " " ++ ("mtu" ++ " " ++ decimal l.mtu)) := by
    rw [← String.toList_inj]
    simp [Netdev.linkLine]
  have hfields : fields (Netdev.linkLine l) = ["link", l.interface, "mtu", decimal l.mtu] := by
    rw [htext, fields_cons hlink, fields_cons h, fields_cons hmtu, fields_word (isWord_decimal _)]
  have hcomment : hasPrefixList (Netdev.linkLine l).toList ['#'] = false := by
    rw [htext, String.toList_append, String.toList_append, List.append_assoc]
    rfl
  unfold parseNetdevLine
  rw [hcomment, hfields]
  rfl

theorem parse_offloadLine {ifc : String} (h : IsWord ifc) :
    parseNetdevLine (Netdev.offloadLine ifc) = .ok [⟨"offload", ifc, ""⟩] := by
  have hoffload : IsWord "offload" := by decide
  have hoff : IsWord "off" := by decide
  have htext : Netdev.offloadLine ifc = "offload" ++ " " ++ (ifc ++ " " ++ "off") := by
    rw [← String.toList_inj]
    simp [Netdev.offloadLine]
  have hfields : fields (Netdev.offloadLine ifc) = ["offload", ifc, "off"] := by
    rw [htext, fields_cons hoffload, fields_cons h, fields_word hoff]
  have hcomment : hasPrefixList (Netdev.offloadLine ifc).toList ['#'] = false := by
    rw [htext, String.toList_append, String.toList_append, List.append_assoc]
    rfl
  unfold parseNetdevLine
  rw [hcomment, hfields]
  rfl

theorem head_qosLine (c : QoSControlIR) : (Netdev.qosLine c).toList.head? = some 'q' := by
  unfold Netdev.qosLine
  exact head_append (by decide)

theorem head_protectionLine (z : ZoneProtectionIR) :
    (Netdev.protectionLine z).toList.head? = some 'z' := by
  unfold Netdev.protectionLine
  exact head_append (by decide)

/-! ### The artifact

Links and offloads are read back; a line for QoS or zone protection is refused. -/

/-- What the IR must be for its artifact to be read back. -/
structure PlainLinks (ir : IR) : Prop where
  qos : ir.qosControls = []
  protections : ir.zoneProtections = []
  links : ∀ l ∈ Netdev.links ir, IsWord l.interface
  offloads : ∀ ifc ∈ Netdev.offloads ir, IsWord ifc

theorem parseNetdev_ok {config : String} {ds : List NetdevDirective} :
    parseNetdev config = .ok ds ↔
      ∃ blocks, List.Forall₂ (fun l b => parseNetdevLine l = .ok b) (lines config) blocks ∧
        ds = blocks.flatten := by
  unfold parseNetdev
  cases hm : (lines config).mapM parseNetdevLine with
  | error e =>
      refine ⟨nofun, ?_⟩
      rintro ⟨blocks, hall, -⟩
      rw [mapM_ok.mpr hall] at hm
      cases hm
  | ok blocks =>
      constructor
      · intro h
        cases h
        exact ⟨blocks, mapM_ok.mp hm, rfl⟩
      · rintro ⟨blocks', hall, rfl⟩
        rw [mapM_ok.mpr hall] at hm
        cases hm
        rfl

/-- The lines of a section in which every entry is one line. -/
theorem section_lines {α : Type} {line : α → String} {directive : α → NetdevDirective}
    {entries : List α} (hlines : ∀ a ∈ entries, lines (line a) = [line a])
    (hparse : ∀ a ∈ entries, parseNetdevLine (line a) = .ok [directive a]) :
    List.Forall₂ (fun l b => parseNetdevLine l = .ok b) ((entries.map line).flatMap lines)
      (entries.map fun a => [directive a]) := by
  induction entries with
  | nil => exact .nil
  | cons a entries ih =>
      rw [List.map_cons, List.flatMap_cons, hlines a List.mem_cons_self]
      exact .cons (hparse a List.mem_cons_self) (ih (fun b hb => hlines b (List.mem_cons_of_mem _ hb))
        fun b hb => hparse b (List.mem_cons_of_mem _ hb))

/-- **The round trip of the artifact.** -/
theorem parseNetdev_Render_iff {ir : IR} :
    parseNetdev (Netdev.Render ir) = .ok (netdevDirectives ir) ↔ PlainLinks ir := by
  rw [parseNetdev_ok]
  unfold Netdev.Render
  rw [lines_unlines]
  constructor
  · rintro ⟨blocks, hall, hds⟩
    -- every line of every chunk is read, so a chunk in another format would be refused
    have hrefused : ∀ {chunk : String} {c : Char}, chunk ∈ [generatedBy] ++
          (Netdev.links ir).map Netdev.linkLine ++ (Netdev.offloads ir).map Netdev.offloadLine ++
          ir.qosControls.map Netdev.qosLine ++ ir.zoneProtections.map Netdev.protectionLine →
        isSpace c = false → chunk.toList.head? = some c → c ≠ '#' ∧ c ≠ 'l' ∧ c ≠ 'o' → False := by
      intro chunk c hchunk hc hhead hother
      obtain ⟨l, hl, hlc⟩ := exists_line_head hc hhead
      obtain ⟨b, -, hb⟩ := exists_of_forall₂_left hall (List.mem_flatMap.mpr ⟨chunk, hchunk, hl⟩)
      exact parseNetdevLine_refuses hc hlc hother b hb
    have hwords : ∀ d ∈ netdevDirectives ir, IsWord d.iface := by
      intro d hd
      rw [hds] at hd
      obtain ⟨b, hb, hd⟩ := List.mem_flatten.mp hd
      obtain ⟨l, -, hl⟩ := exists_of_forall₂_right hall hb
      exact isWord_of_parseNetdevLine hl d hd
    refine ⟨?_, ?_, ?_, ?_⟩
    · rw [List.eq_nil_iff_forall_not_mem]
      intro control hmem
      refine hrefused ?_ (by decide) (head_qosLine control) (by decide)
      simp only [List.mem_append, List.mem_map]
      exact .inl (.inr ⟨control, hmem, rfl⟩)
    · rw [List.eq_nil_iff_forall_not_mem]
      intro protection hmem
      refine hrefused ?_ (by decide) (head_protectionLine protection) (by decide)
      simp only [List.mem_append, List.mem_map]
      exact .inr ⟨protection, hmem, rfl⟩
    · intro l hl
      exact hwords ⟨"link", l.interface, decimal l.mtu⟩
        (List.mem_append.mpr (.inl (List.mem_map.mpr ⟨l, hl, rfl⟩)))
    · intro ifc hifc
      exact hwords ⟨"offload", ifc, ""⟩
        (List.mem_append.mpr (.inr (List.mem_map.mpr ⟨ifc, hifc, rfl⟩)))
  · intro h
    refine ⟨[] :: ((Netdev.links ir).map fun l => [⟨"link", l.interface, decimal l.mtu⟩]) ++
      (Netdev.offloads ir).map fun ifc => [⟨"offload", ifc, ""⟩], ?_, ?_⟩
    · simp only [h.qos, h.protections, List.map_nil, List.append_nil, List.flatMap_append,
        List.flatMap_cons, List.flatMap_nil, lines_generatedBy]
      have hlinks := section_lines (fun l hl => lines_linkLine (h.links l hl))
        fun l hl => parse_linkLine (h.links l hl)
      have hoffloads := section_lines (fun ifc hifc => lines_offloadLine (h.offloads ifc hifc))
        fun ifc hifc => parse_offloadLine (h.offloads ifc hifc)
      exact .cons parse_generatedBy (List.rel_append hlinks hoffloads)
    · have hflat : ∀ {α : Type} (f : α → NetdevDirective) (as : List α),
          (as.map fun a => [f a]).flatten = as.map f := by
        intro α f as
        induction as with
        | nil => rfl
        | cons a as ih => simp [ih]
      rw [List.cons_append, List.flatten_cons, List.flatten_append, hflat, hflat]
      rfl

/-! ### The policy -/

/-- The interfaces whose MTU a policy manages: those of the zones when there is a global
MTU, and the overrides. -/
def managedInterfaces (p : Phragma.Policy) (net : Network) : List String :=
  (if net.mtu = 0 then [] else p.zones.flatMap Zone.interfaces) ++
    net.interfaceMtus.map InterfaceMtu.interface

/-- The interfaces whose offloads a policy switches off. -/
def offloadInterfaces (p : Phragma.Policy) (net : Network) : List String :=
  if net.manageNicOffloads && p.getIds.enabled && p.getIds.mode != .prevent then idsInterfaces p
  else []

/-- What an accepted policy must be for its netdev artifact to be read back. -/
structure PlainNetdev (p : Phragma.Policy) : Prop where
  qos : ∀ r ∈ p.rules, r.disabled = false → r.qosProfile = ""
  protections : ∀ z ∈ p.zones, trimSpace z.zoneProtectionProfile = ""
  managed : ∀ net, p.network = some net → ∀ ifc ∈ managedInterfaces p net, IsWord ifc
  offloads : ∀ net, p.network = some net → ∀ ifc ∈ offloadInterfaces p net, IsWord ifc

theorem mem_uniqueStrings {items : List String} {s : String} : s ∈ uniqueStrings items ↔ s ∈ items := by
  have hloop := mem_foldl_distinct id (fun _ => true) items [] s
  have heq : (fun (out : List String) item => if out.contains item then out else out ++ [item]) =
      fun out item => if true && !out.contains (id item) then out ++ [id item] else out := by
    funext out item
    by_cases hc : item ∈ out <;> simp [hc]
  unfold uniqueStrings
  rw [heq, hloop]
  simp

/-- The loop over the overrides adds the interfaces it has not seen. -/
theorem mem_overrides {mtus : List InterfaceMtu} {ifc : String} : ∀ {links : List LinkIR},
    (∃ l ∈ mtus.foldl (fun (links : List LinkIR) im =>
        if links.any fun l => l.interface == im.interface then links
        else links ++ [⟨im.interface, im.mtu⟩]) links, l.interface = ifc) ↔
      (∃ l ∈ links, l.interface = ifc) ∨ ∃ im ∈ mtus, im.interface = ifc := by
  induction mtus with
  | nil => simp
  | cons im mtus ih =>
      intro links
      rw [List.foldl_cons, ih]
      have hstep : (∃ l ∈ (if links.any fun l => l.interface == im.interface then links
            else links ++ [⟨im.interface, im.mtu⟩]), l.interface = ifc) ↔
          (∃ l ∈ links, l.interface = ifc) ∨ im.interface = ifc := by
        cases hseen : links.any fun l => l.interface == im.interface with
        | true =>
            obtain ⟨l, hl, heq⟩ := List.any_eq_true.mp hseen
            simp only [if_true]
            refine ⟨.inl, ?_⟩
            rintro (h | h)
            · exact h
            · exact ⟨l, hl, (beq_iff_eq.mp heq).trans h⟩
        | false =>
            simp only [Bool.false_eq_true, if_false, List.mem_append, List.mem_singleton]
            constructor
            · rintro ⟨l, hl | rfl, h⟩
              · exact .inl ⟨l, hl, h⟩
              · exact .inr h
            · rintro (⟨l, hl, h⟩ | h)
              · exact ⟨l, .inl hl, h⟩
              · exact ⟨_, .inr rfl, h⟩
      rw [hstep, or_assoc]
      simp only [List.mem_cons, exists_eq_or_imp]

/-- A network section that is dropped for being empty manages nothing. -/
theorem elim_network {links : List LinkIR} {clamp : Bool} {off flow : List String} {mtu : Nat}
    {out : Option NetworkIR}
    (h : out = if links.isEmpty && !clamp && off.isEmpty && flow.isEmpty then none
      else some ⟨links, clamp, off, flow, mtu⟩) :
    out.elim [] NetworkIR.links = links ∧ out.elim [] NetworkIR.offloadOffIfaces = off := by
  subst h
  split
  · next hempty =>
      simp only [Bool.and_eq_true, List.isEmpty_iff] at hempty
      exact ⟨hempty.1.1.1.symm, hempty.1.2.symm⟩
  · exact ⟨rfl, rfl⟩

/-- The offload section of the IR, in terms of the policy. -/
theorem offloads_eq {p : Phragma.Policy} {ids : Option IDsIR} (net : Network) :
    (∃ addrs, compileIDs p addrs = .ok ids) →
    (match ids with
      | some ids => if net.manageNicOffloads && !ids.prevent then ids.interfaces else []
      | none => []) = offloadInterfaces p net := by
  rintro ⟨addrs, h⟩
  unfold offloadInterfaces
  cases ids with
  | none => simp [Bool.eq_false_iff.mpr (compileIDs_none h)]
  | some ids =>
      obtain ⟨henabled, hprevent, -, hifaces⟩ := compileIDs_ok h
      simp only [henabled, hprevent, hifaces, Bool.and_true]
      rfl

/-- **The link settings of the IR**, in terms of the policy. -/
theorem netdev_interfaces {p : Phragma.Policy} {c : Compilation} {ir : IR} (hC : Compiled p c ir) :
    (p.network = none → Netdev.links ir = [] ∧ Netdev.offloads ir = []) ∧
    ∀ net, p.network = some net →
      (∀ ifc, (∃ l ∈ Netdev.links ir, l.interface = ifc) ↔ ifc ∈ managedInterfaces p net) ∧
      Netdev.offloads ir = offloadInterfaces p net := by
  have hnet := hC.network
  unfold compileNetwork at hnet
  unfold Netdev.links Netdev.offloads
  constructor
  · intro hnone
    rw [hnone] at hnet
    simp [hnet]
  · intro net hsome
    rw [hsome] at hnet
    simp only at hnet
    obtain ⟨hlinks, hoffloads⟩ := elim_network hnet
    rw [hlinks, hoffloads]
    refine ⟨fun ifc => ?_, offloads_eq net ⟨_, hC.ids⟩⟩
    rw [mem_overrides, managedInterfaces, List.mem_append, List.mem_map]
    refine or_congr_left ?_
    by_cases hmtu : net.mtu = 0
    · simp [hmtu]
    · simp only [hmtu, if_false, List.mem_map, mem_uniqueStrings]
      constructor
      · rintro ⟨l, ⟨i, hi, rfl⟩, rfl⟩
        exact hi
      · intro hifc
        exact ⟨_, ⟨ifc, hifc, rfl⟩, rfl⟩

/-- A compiled rule keeps the QoS reference, which the table knows. -/
theorem qosRef_of_compileRule {c : Compilation} {r : Rule} {rir : RuleIR}
    (h : compileRule c r = .ok rir) :
    rir.qosProfile = r.qosProfile ∧ (r.qosProfile ≠ "" → (c.qosProfiles.lookup r.qosProfile).isSome) := by
  unfold compileRule at h
  obtain ⟨_, -, h⟩ := bind_ok.mp h
  obtain ⟨_, -, h⟩ := bind_ok.mp h
  obtain ⟨_, -, h⟩ := bind_ok.mp h
  obtain ⟨_, -, h⟩ := bind_ok.mp h
  obtain ⟨_, -, h⟩ := bind_ok.mp h
  obtain ⟨_, -, h⟩ := bind_ok.mp h
  obtain ⟨_, -, h⟩ := bind_ok.mp h
  obtain ⟨qosProfile, hqos, h⟩ := bind_ok.mp h
  obtain ⟨_, -, h⟩ := bind_ok.mp h
  cases h
  have hqos := mapError_ok.mp hqos
  unfold compileQosRef at hqos
  split at hqos
  · cases hqos
  · next hknown =>
      cases hqos
      refine ⟨rfl, fun hne => ?_⟩
      by_contra hno
      exact hknown ⟨hne, Option.isNone_iff_eq_none.mpr (Option.not_isSome_iff_eq_none.mp hno)⟩

/-- An enabled rule with a QoS reference plans a control. -/
theorem qosControls_eq_nil_iff {p : Phragma.Policy} {c : Compilation} {ir : IR}
    (hC : Compiled p c ir) :
    ir.qosControls = [] ↔ ∀ r ∈ p.rules, r.disabled = false → r.qosProfile = "" := by
  rw [hC.qos, compileQoSControls, List.filterMap_eq_nil_iff]
  constructor
  · intro h r hr henabled
    obtain ⟨rir, hrir, hcompile⟩ := exists_of_forall₂_left hC.rules
      (List.mem_filter.mpr ⟨hr, by simp [henabled]⟩)
    obtain ⟨hkeep, hknown⟩ := qosRef_of_compileRule hcompile
    have hnone := h rir hrir
    rw [hkeep] at hnone
    by_contra hne
    obtain ⟨profile, hprofile⟩ := Option.isSome_iff_exists.mp (hknown hne)
    simp [hne, hprofile] at hnone
  · intro h rir hrir
    obtain ⟨r, hr, hcompile⟩ := exists_of_forall₂_right hC.rules hrir
    obtain ⟨hr, henabled⟩ := List.mem_filter.mp hr
    rw [(qosRef_of_compileRule hcompile).1, h r hr (by simpa using henabled)]
    rfl

/-- A zone with a protection reference plans a protection. -/
theorem zoneProtections_eq_nil_iff {p : Phragma.Policy} (hA : Accepted p) {c : Compilation} {ir : IR}
    (hC : Compiled p c ir) :
    ir.zoneProtections = [] ↔ ∀ z ∈ p.zones, trimSpace z.zoneProtectionProfile = "" := by
  rw [hC.protections, compileZoneProtections, List.filterMap_eq_nil_iff, hC.zones]
  simp only [List.mem_map, forall_exists_index, and_imp, forall_apply_eq_imp_iff₂]
  refine forall₂_congr fun z hz => ?_
  have hcheck := List.flatMap_eq_nil_iff.mp hA.zoneProtection_ok z hz
  simp only at hcheck
  by_cases hblank : trimSpace z.zoneProtectionProfile = ""
  · -- a blank reference is no name, so no profile is found under it
    have hnone : c.zoneProtections.lookup z.zoneProtectionProfile = none := by
      by_contra hsome
      obtain ⟨profile, hprofile⟩ := Option.ne_none_iff_exists'.mp hsome
      rw [hC.zoneProtections] at hprofile
      obtain ⟨profile, hmem, hname, -⟩ := exists_of_lookup_tableOf hprofile
      have husable := hA.zoneProtections.usable profile hmem
      rw [hname] at husable
      exact husable.ne_empty (by rw [← trimSpace_eq_self husable.isWord.2, hblank])
    simp [hblank, hnone]
  · rw [if_neg hblank] at hcheck
    split_ifs at hcheck with htrim
    rw [not_not.mp htrim] at hcheck hblank
    cases hl : (collectAll p).2.zoneProtections.lookup z.zoneProtectionProfile with
    | none => simp [errIf, hl] at hcheck
    | some profile =>
        rw [hA.zoneProtections.map_eq, ← hC.zoneProtections] at hl
        simp [hblank, not_not.mp htrim, hl]

/-- **The netdev artifact is read back exactly for plain policies.** For every accepted
policy: it compiles and the engine reads the rendered artifact as exactly the link and
offload settings of the IR, if and only if it compiles at all, plans no QoS control and no
zone protection, and every interface whose link it manages is a word. -/
theorem netdev_round_trip_iff {H : IdentityHash} {p : Phragma.Policy}
    (haccepted : Validate (normalizeIdentities H p) = []) :
    (∃ ir, Compile H p = .ok ir ∧
        parseNetdev (Netdev.Render ir) = .ok (netdevDirectives ir)) ↔
      Compilable (normalizeIdentities H p) ∧ PlainNetdev (normalizeIdentities H p) := by
  have hA := accepted_of_Validate haccepted
  refine compile_and_iff haccepted fun {c ir} hC => ?_
  obtain ⟨hnone, hsome⟩ := netdev_interfaces hC
  rw [parseNetdev_Render_iff]
  constructor
  · intro h
    refine ⟨(qosControls_eq_nil_iff hC).mp h.qos, (zoneProtections_eq_nil_iff hA hC).mp h.protections,
      fun net hnet ifc hifc => ?_, fun net hnet ifc hifc => ?_⟩
    · obtain ⟨l, hl, rfl⟩ := ((hsome net hnet).1 ifc).mpr hifc
      exact h.links l hl
    · exact h.offloads ifc ((hsome net hnet).2 ▸ hifc)
  · intro h
    refine ⟨(qosControls_eq_nil_iff hC).mpr h.qos,
      (zoneProtections_eq_nil_iff hA hC).mpr h.protections, fun l hl => ?_, fun ifc hifc => ?_⟩
    · cases hnet : (normalizeIdentities H p).network with
      | none =>
          rw [(hnone hnet).1] at hl
          cases hl
      | some net => exact h.managed net hnet _ (((hsome net hnet).1 _).mp ⟨l, hl, rfl⟩)
    · cases hnet : (normalizeIdentities H p).network with
      | none =>
          rw [(hnone hnet).2] at hifc
          cases hifc
      | some net => exact h.offloads net hnet _ ((hsome net hnet).2 ▸ hifc)

/-- A node that manages the MTU of two interfaces and inspects one. -/
def managedNode : Phragma.Policy where
  zones := [{ name := "wan", interfaces := ["eth0"] }, { name := "lan", interfaces := ["eth1"] }]
  ids := some { enabled := true, mode := .detect, monitorInterfaces := ["eth1"] }
  network := some { mtu := 1500, manageNicOffloads := true }

theorem netdev_round_trip_managedNode :
    Validate (normalizeIdentities .zero managedNode) = [] ∧
      (∃ ir, Compile .zero managedNode = .ok ir ∧
        parseNetdev (Netdev.Render ir) = .ok (netdevDirectives ir)) ∧
      Compilable (normalizeIdentities .zero managedNode) ∧
      PlainNetdev (normalizeIdentities .zero managedNode) := by
  obtain ⟨haccepted, hok⟩ : Validate (normalizeIdentities .zero managedNode) = [] ∧
      (Compile .zero managedNode).toOption.any (fun ir =>
        decide ((parseNetdev (Netdev.Render ir)).toOption = some (netdevDirectives ir))) = true := by
    decide +kernel
  have hread : ∃ ir, Compile .zero managedNode = .ok ir ∧
      parseNetdev (Netdev.Render ir) = .ok (netdevDirectives ir) := by
    obtain ⟨ir, hir, hparse⟩ := (Option.any_eq_true _ _).mp hok
    exact ⟨ir, toOption_eq_some.mp hir, toOption_eq_some.mp (of_decide_eq_true hparse)⟩
  exact ⟨haccepted, hread, (netdev_round_trip_iff haccepted).mp hread⟩

/-- A rule with a QoS profile. -/
def shapedRule : Rule := { name := "bulk", action := .allow, qosProfile := "bulk" }

/-- The same node with a rate limit. -/
def shapedNode : Phragma.Policy where
  qosProfiles := [{ name := "bulk", maxBandwidthKbps := 10000 }]
  rules := [shapedRule]

/-- **A policy can render an artifact that the engine refuses.** -/
theorem netdev_refuses_shapedNode : ¬ ∀ (H : IdentityHash) (p : Phragma.Policy),
    Validate (normalizeIdentities H p) = [] → ∃ ir, Compile H p = .ok ir ∧
      parseNetdev (Netdev.Render ir) = .ok (netdevDirectives ir) := by
  intro hall
  obtain ⟨haccepted, r, hr, henabled, hprofile⟩ :
      Validate (normalizeIdentities .zero shapedNode) = [] ∧
        ∃ r ∈ (normalizeIdentities .zero shapedNode).rules,
          r.disabled = false ∧ r.qosProfile ≠ "" := by
    decide
  obtain ⟨ir, hir, hread⟩ := hall .zero shapedNode haccepted
  unfold Compile at hir
  simp only [haccepted] at hir
  obtain ⟨c, hC⟩ := compiled_of_compileValid hir
  have hplain := parseNetdev_Render_iff.mp hread
  exact hprofile ((qosControls_eq_nil_iff hC).mp hplain.qos r hr henabled)

end Phragma.Engines
