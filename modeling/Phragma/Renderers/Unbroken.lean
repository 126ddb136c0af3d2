import Phragma.Compiler.Applications
import Phragma.Engines.Wireguard
import Phragma.Go.Filepath
import Phragma.Go.Scan
import Phragma.Renderers.Suricata

/-!
# Phragma.Renderers.Unbroken

Which lines of `suricata.yaml` hold no line end of their own.

Operator texts reach the file in three ways: quoted or sanitised (`quote`, `metadataValue`),
as words the validator or the compiler vouches for, and as they are. Only the last can break
a line, and there are two of them, interface names and rule-file names; everything else a
compiled policy writes is **unbroken**.
-/

namespace Phragma.Renderers.Suricata

open Lib Go Policy Compiler Engines

/-- A text without line ends. -/
def Unbroken (s : String) : Prop := '\n' ∉ s.toList

instance (s : String) : Decidable (Unbroken s) := inferInstanceAs (Decidable (¬ _))

/-- A literal is the text of its characters, so that nothing has to be decoded. -/
theorem unbroken_ofList {cs : List Char} (h : '\n' ∉ cs) : Unbroken (String.ofList cs) := by
  unfold Unbroken
  rwa [String.toList_ofList]

@[simp] theorem unbroken_append {a b : String} :
    Unbroken (a ++ b) ↔ Unbroken a ∧ Unbroken b := by
  simp [Unbroken, not_or]

theorem unbroken_of_spaceless {s : String} (h : Spaceless s) : Unbroken s := by
  intro hmem
  cases h _ hmem

theorem unbroken_decimal (n : Nat) : Unbroken (decimal n) :=
  unbroken_of_spaceless (spaceless_decimal n)

theorem unbroken_toString_int (n : Int) : Unbroken (toString n) := by
  cases n with
  | ofNat n => exact unbroken_decimal n
  | negSucc n => exact unbroken_append.mpr ⟨by decide, unbroken_decimal (n + 1)⟩

theorem unbroken_join {sep : String} (hsep : Unbroken sep) :
    ∀ {parts : List String}, (∀ s ∈ parts, Unbroken s) → Unbroken (join parts sep) := by
  intro parts
  induction parts with
  | nil => intro _; exact List.not_mem_nil
  | cons a parts ih =>
      intro h
      have hrest := ih fun s hs => h s (List.mem_cons_of_mem _ hs)
      cases parts with
      | nil => exact h a List.mem_cons_self
      | cons b parts =>
          unfold Go.join at hrest ⊢
          rw [String.intercalate_cons_cons, unbroken_append, unbroken_append]
          exact ⟨⟨h a List.mem_cons_self, hsep⟩, hrest⟩

/-! ### Sanitised values

Quoting writes line ends as escapes, and words have none. -/

theorem unbroken_oneLine (s : String) : Unbroken (oneLine s) :=
  unbroken_join (by decide) fun _ hf => notMem_lineEnd (isWord_of_mem_fields hf)

/-- A replacement writes what was there, and replacements. -/
theorem mem_replaceLoop {pairs : List (String × String)} {c : Char} :
    ∀ {cs : List Char} {skip : Nat}, c ∈ replaceLoop pairs skip cs →
      c ∈ cs ∨ ∃ p ∈ pairs, c ∈ p.2.toList := by
  intro cs
  induction cs with
  | nil => intro skip h; cases skip <;> cases h
  | cons d cs ih =>
      intro skip h
      cases skip with
      | succ skip => exact (ih h).imp_left (List.mem_cons_of_mem _)
      | zero =>
          unfold replaceLoop at h
          split at h
          · next old new hfind =>
              rcases List.mem_append.mp h with h | h
              · exact .inr ⟨(old, new), List.mem_of_find?_eq_some hfind, h⟩
              · exact (ih h).imp_left (List.mem_cons_of_mem _)
          · rcases List.mem_cons.mp h with rfl | h
            · exact .inl List.mem_cons_self
            · exact (ih h).imp_left (List.mem_cons_of_mem _)

theorem unbroken_metadataValue (s : String) : Unbroken (metadataValue s) := by
  intro hmem
  unfold metadataValue replaceAll at hmem
  rw [String.toList_ofList] at hmem
  rcases mem_replaceLoop hmem with h | ⟨p, hp, h⟩
  · exact unbroken_oneLine s h
  · revert p
    decide

theorem notMem_ite {α : Type} {c : α} {p : Prop} [Decidable p] {a b : List α} (ha : c ∉ a)
    (hb : c ∉ b) : c ∉ (if p then a else b) := by
  split
  · exact ha
  · exact hb

theorem notMem_quoteRune (c : Char) : '\n' ∉ quoteRune c := by
  have hhex : ∀ n < 16, '\n' ≠ hexDigit n := by decide
  have hescape : '\n' ∉ '\\' :: 'x' :: hexByte c.toNat := by
    simp only [hexByte, List.mem_cons, List.not_mem_nil, or_false, not_or]
    exact ⟨by decide, by decide, hhex _ (Nat.mod_lt _ (by decide)),
      hhex _ (Nat.mod_lt _ (by decide))⟩
  unfold quoteRune
  by_cases hc : c = '\n'
  · subst hc
    decide
  · iterate 9 refine notMem_ite (by decide) ?_
    refine notMem_ite hescape ?_
    exact fun h => hc (List.mem_singleton.mp h).symm

theorem unbroken_quote (s : String) : Unbroken (quote s) := by
  unfold Unbroken quote
  rw [String.toList_ofList, List.mem_append, List.mem_cons, List.mem_flatMap]
  rintro ((h | ⟨c, -, h⟩) | h)
  · revert h; decide
  · exact notMem_quoteRune c h
  · revert h; decide

/-! ### Paths

Cleaning a path takes elements out and puts none in. -/

theorem unbroken_cleanPath {s : String} (h : Unbroken s) : Unbroken (cleanPath s) := by
  have hbody : ∀ rooted, Unbroken (join
      (((splitOn '/' s.toList).foldl (cleanStep rooted) []).reverse.map String.ofList) "/") := by
    intro rooted
    refine unbroken_join (by decide) fun part hpart => ?_
    obtain ⟨e, he, rfl⟩ := List.mem_map.mp hpart
    rcases mem_cleanSteps (List.mem_reverse.mp he) with he | he
    · cases he
    · unfold Unbroken
      rw [String.toList_ofList]
      exact fun hmem => h (mem_of_mem_splitOn he hmem)
  unfold cleanPath
  simp only
  split_ifs
  · exact unbroken_append.mpr ⟨by decide, hbody _⟩
  · decide
  · exact hbody _

theorem unbroken_joinPath {parts : List String} (h : ∀ s ∈ parts, Unbroken s) :
    Unbroken (joinPath parts) := by
  unfold joinPath
  simp only
  split_ifs
  · decide
  · exact unbroken_cleanPath (unbroken_join (by decide) fun s hs =>
      h s (List.mem_filter.mp hs).1)

/-! ### Generated lines -/

theorem unbroken_prefixText (p : Prefix) : Unbroken p.string :=
  unbroken_of_spaceless (spaceless_prefixText p)

theorem unbroken_setText {items : List String} (h : ∀ s ∈ items, Unbroken s) :
    Unbroken (setText items) := by
  unfold setText
  split
  · decide
  · exact h _ List.mem_cons_self
  · simp only [unbroken_append]
    exact ⟨⟨by decide, unbroken_join (by decide) h⟩, by decide⟩

theorem unbroken_addressSet (prefixes : List Prefix) : Unbroken (suricataAddressSet prefixes) := by
  refine unbroken_setText fun s hs => ?_
  obtain ⟨p, -, rfl⟩ := List.mem_map.mp hs
  exact unbroken_prefixText p

theorem unbroken_portSet (ports : List Compiler.PortRange) : Unbroken (suricataPortSet ports) := by
  refine unbroken_setText fun s hs => ?_
  obtain ⟨port, -, rfl⟩ := List.mem_map.mp hs
  split
  · exact unbroken_decimal _
  · simp only [unbroken_append]
    exact ⟨⟨unbroken_decimal _, by decide⟩, unbroken_decimal _⟩

/-- A generated signature is one line as long as its protocol is. -/
theorem unbroken_appIDControlRule {control : AppIDControlIR} (h : Unbroken control.engineSignal) :
    Unbroken (appIDControlRule control) := by
  have hheader : Unbroken (appIDControlHeader control).1 ∧
      Unbroken (appIDControlHeader control).2 := by
    unfold appIDControlHeader
    split
    · exact ⟨(unbroken_ofList (by decide) : Unbroken "tcp"), unbroken_portSet _⟩
    · exact ⟨(unbroken_ofList (by decide) : Unbroken "udp"), unbroken_portSet _⟩
    · decide
  have haction : Unbroken (if control.action = .allow then "pass" else "drop") := by
    split <;> decide
  unfold appIDControlRule
  simp only [unbroken_append, hheader, haction, h, unbroken_addressSet, unbroken_quote,
    unbroken_metadataValue, unbroken_decimal, true_and, and_true]
  decide

theorem unbroken_securityProfileRule {rule : SecurityProfileRuleIR} (h : Unbroken rule.protocol) :
    Unbroken (securityProfileRule rule) := by
  unfold securityProfileRule
  simp only [unbroken_append, h, unbroken_quote, unbroken_metadataValue, unbroken_decimal, and_true]
  decide

/-- The part of an exception's second line that the engine takes over. -/
def suppressLine (ex : IDSExceptionIR) : String :=
  "suppress gen_id 1, sig_id " ++ toString ex.signatureID ++
    (if ex.track = "" then ""
    else ", track " ++ ex.track ++ ", ip " ++ (ex.address.map Prefix.string).getD "invalid Prefix")

/-- One labelled value of an exception's comment. -/
def exceptionField (label value : String) : String :=
  if value = "" then "" else " " ++ label ++ "=" ++ metadataValue value

/-- The labelled values of an exception's comment. -/
def exceptionFields (ex : IDSExceptionIR) : String :=
  exceptionField "threat_id" ex.threatID ++ (exceptionField "description" ex.description ++
    (exceptionField "owner" ex.owner ++ (exceptionField "ticket" ex.ticketID ++
      (exceptionField "review_date" ex.reviewDate ++ (exceptionField "expires_at" ex.expiresAt ++
        (exceptionField "pcap_sha256" ex.pcapSHA256 ++
          exceptionField "regression_ref" ex.regression))))))

/-- The two lines of an exception: a comment, and its suppression behind the marker. -/
theorem exceptionLines_eq (ex : IDSExceptionIR) :
    exceptionLines ex = ["# ids_exception=" ++ (ex.name ++ exceptionFields ex),
      "# openngfw-threshold-line: " ++ suppressLine ex] := by
  have hlead : "# openngfw-threshold-line: suppress gen_id 1, sig_id " =
      "# openngfw-threshold-line: " ++ "suppress gen_id 1, sig_id " := by decide
  unfold exceptionLines suppressLine exceptionFields exceptionField
  rw [hlead]
  simp only [String.append_assoc]

theorem unbroken_exceptionField {label : String} (h : Unbroken label) (value : String) :
    Unbroken (exceptionField label value) := by
  unfold exceptionField
  split
  · decide
  · simp only [unbroken_append, h, unbroken_metadataValue, and_true]
    decide

theorem unbroken_exceptionFields (ex : IDSExceptionIR) : Unbroken (exceptionFields ex) := by
  simp only [exceptionFields, unbroken_append]
  refine ⟨?_, ?_, ?_, ?_, ?_, ?_, ?_, ?_⟩ <;> exact unbroken_exceptionField (by decide) _

theorem unbroken_suppressLine {ex : IDSExceptionIR} (h : Unbroken ex.track) :
    Unbroken (suppressLine ex) := by
  have haddress : Unbroken ((ex.address.map Prefix.string).getD "invalid Prefix") := by
    cases ex.address with
    | none => exact (unbroken_ofList (by decide) : Unbroken "invalid Prefix")
    | some p => exact unbroken_prefixText p
  unfold suppressLine
  rw [unbroken_append, unbroken_append]
  refine ⟨⟨by decide, unbroken_toString_int _⟩, ?_⟩
  split
  · decide
  · simp only [unbroken_append, h, haddress, and_true]
    decide

/-! ### What the compiler vouches for

Signals and protocols come from fixed lists, numbers and prefixes from parsed values. -/

theorem unbroken_of_suricataSignals {s : String} (h : s ∈ suricataSignals) : Unbroken s := by
  revert s
  decide

/-- A control is about a signal that Suricata reports. -/
theorem unbroken_of_control {p : Phragma.Policy} {c : Compilation} {ir : IR} (hC : Compiled p c ir)
    {control : AppIDControlIR} (h : control ∈ ir.appIDControls) : Unbroken control.engineSignal := by
  rw [hC.controls] at h
  unfold compileAppIDControls at h
  split at h
  · cases h
  · obtain ⟨mk, hmk, sid, rfl⟩ := mem_numberSIDs h
    obtain ⟨rir, hrir, hmk⟩ := List.mem_flatMap.mp hmk
    split at hmk
    · cases hmk
    · obtain ⟨entry, hentry, hmk⟩ := List.mem_flatMap.mp hmk
      obtain ⟨signal, hsignal, hmk⟩ := List.mem_flatMap.mp hmk
      obtain ⟨service, -, rfl⟩ := List.mem_map.mp hmk
      obtain ⟨r, -, hr⟩ := exists_of_forall₂_right hC.rules hrir
      obtain ⟨-, -, -, hsignals, -⟩ := services_of_compileRule hr
      rw [hsignals] at hentry
      obtain ⟨ref, -, hentry⟩ := List.mem_flatMap.mp hentry
      unfold signalEntry at hentry
      cases hl : c.apps.lookup ref with
      | none =>
          rw [hl] at hentry
          cases hentry
      | some app =>
          simp only [hl, Option.elim_some] at hentry
          split at hentry
          · cases hentry
          · obtain rfl := List.mem_singleton.mp hentry
            exact unbroken_of_suricataSignals (mem_supportedAppIDSignals.mp hsignal).1

theorem unbroken_of_drop {controls : List AppIDControlIR}
    (h : ∀ control ∈ controls, Unbroken control.engineSignal) :
    ∀ drop ∈ compileAppIDDrops controls, Unbroken drop.engineSignal := by
  intro drop hdrop
  obtain ⟨control, hmem, hdrop⟩ := List.mem_filterMap.mp hdrop
  split at hdrop
  · cases hdrop
    exact h control hmem
  · cases hdrop

/-- A profile rule is about one of three protocols. -/
theorem unbroken_of_profileRule {rules : List RuleIR} {ids : Option IDsIR}
    {profiles : List (String × SecurityProfile)} {rule : SecurityProfileRuleIR}
    (h : rule ∈ compileSecurityProfileRules rules ids profiles) : Unbroken rule.protocol := by
  have hcontrols : ∀ (profile : SecurityProfile), ∀ control ∈ securityProfileControls profile,
      control.2 = "tls" ∨ control.2 = "http" ∨ control.2 = "dns" := by
    intro profile control hmem
    unfold securityProfileControls at hmem
    simp only [List.mem_append, List.mem_map] at hmem
    rcases hmem with ((hmem | ⟨category, -, rfl⟩) | hmem) | hmem
    · split at hmem
      · exact .inl (by rw [List.mem_singleton.mp hmem])
      · cases hmem
    · exact .inr (.inl rfl)
    · split at hmem
      · exact .inr (.inr (by rw [List.mem_singleton.mp hmem]))
      · cases hmem
    · split at hmem
      · exact .inr (.inl (by rw [List.mem_singleton.mp hmem]))
      · exact .inr (.inl (by rw [List.mem_singleton.mp hmem]))
      · cases hmem
  unfold compileSecurityProfileRules at h
  split at h
  · cases h
  · obtain ⟨mk, hmk, sid, rfl⟩ := mem_numberSIDs h
    obtain ⟨rir, -, hmk⟩ := List.mem_flatMap.mp hmk
    split at hmk
    · cases hmk
    · obtain ⟨ref, -, hmk⟩ := List.mem_flatMap.mp hmk
      obtain ⟨control, hcontrol, rfl⟩ := List.mem_map.mp hmk
      cases hl : profiles.lookup ref with
      | none =>
          rw [hl] at hcontrol
          cases hcontrol
      | some profile =>
          rw [hl] at hcontrol
          show Unbroken control.2
          rcases hcontrols profile control hcontrol with h | h | h <;> rw [h] <;> decide

/-- An accepted exception has a usable name. -/
theorem unbroken_of_checkIDSExceptions {v : Objects} {exceptions : List IdsException}
    (h : checkIDSExceptions v exceptions = []) :
    ∀ ex ∈ exceptions, Unbroken ex.name := by
  intro ex hex
  obtain ⟨state, hq⟩ := collect_quiet_mem h hex
  exact notMem_lineEnd (usable_of_checkName (named_quiet hq).1).isWord

theorem compileIDSException_fields {addrs : List (String × Prefix)} {ex : IdsException}
    {ir : IDSExceptionIR} (h : compileIDSException addrs ex = .ok ir) :
    ir.name = ex.name ∧ Unbroken ir.track := by
  unfold compileIDSException at h
  simp only at h
  split at h
  · split at h
    · cases h
    · cases h
      exact ⟨rfl, (unbroken_ofList (by decide) : Unbroken "by_src")⟩
  · split at h
    · split at h
      · cases h
      · cases h
        exact ⟨rfl, (unbroken_ofList (by decide) : Unbroken "by_dst")⟩
    · cases h
      exact ⟨rfl, (unbroken_ofList (by decide) : Unbroken "")⟩

/-- Everything the renderer writes as it is, interface names, rule files and deployment paths
apart, holds no line end. -/
structure UnbrokenIR (ir : IR) (ids : IDsIR) : Prop where
  exceptions : ∀ ex ∈ ids.exceptions, Unbroken ex.name ∧ Unbroken ex.track
  controls : ∀ control ∈ appIDRuleControls ir, Unbroken control.engineSignal
  profileRules : ∀ rule ∈ ir.securityProfileRules, Unbroken rule.protocol

/-- **What is compiled is unbroken.** -/
theorem unbrokenIR_of_Compile {H : IdentityHash} {p : Phragma.Policy} {ir : IR} {ids : IDsIR}
    (h : Compile H p = .ok ir) (hids : ir.ids = some ids) : UnbrokenIR ir ids := by
  have hA := accepted_of_Validate (Compile_ok h).1
  obtain ⟨c, hC, hdrops, hprofiles⟩ := generated_of_Compile h
  refine ⟨?_, ?_, ?_⟩
  · intro ex hex
    obtain ⟨e, hactive, hcompile⟩ :=
      exists_of_forall₂_right (compileIDs_exceptions (hids ▸ hC.ids)) hex
    have he := (List.mem_filter.mp hactive).1
    obtain ⟨hname, htrack⟩ := compileIDSException_fields hcompile
    exact ⟨hname ▸ unbroken_of_checkIDSExceptions (exceptions_quiet hA) e he, htrack⟩
  · intro control hmem
    unfold appIDRuleControls at hmem
    split at hmem
    · obtain ⟨drop, hdrop, rfl⟩ := List.mem_map.mp hmem
      rw [hdrops] at hdrop
      exact unbroken_of_drop (fun _ => unbroken_of_control hC) drop hdrop
    · exact unbroken_of_control hC hmem
  · intro rule hrule
    rw [hprofiles] at hrule
    exact unbroken_of_profileRule hrule

end Phragma.Renderers.Suricata
