import Phragma.Engines.Suricata

/-!
# Phragma.Engines.SelfDescribing

**Does `suricata.yaml` describe itself?** The engine recovers the mode, the queues and the
generated rules from the text of the artifact.

It does exactly when every text fits on a line the scanner can hold (`ShortTexts`) and the
lines that interface and rule-file names smuggle in change nothing (`Harmless`); neither is
checked by the validator.
-/

namespace Phragma.Engines.Suricata

open Lib Go Policy Compiler Renderers Renderers.Suricata

/-! ### What the artifact should say -/

/-- The mode of an inspection section. -/
def modeOf : Option IDsIR → String
  | none => ModeDisabled
  | some ids => if ids.prevent then ModePrevent else ModeDetect

/-- The blocks of an artifact, with the lines the renderer writes into each. -/
def generatedBlocks (ir : IR) : List (Block × List String) :=
  match ir.ids with
  | none => [(thresholdMarkers, []), (appIDMarkers, []), (securityProfileMarkers, [])]
  | some ids =>
      [(thresholdMarkers, ids.exceptions.map suppressLine),
        (appIDMarkers, (appIDRuleControls ir).map appIDControlRule),
        (securityProfileMarkers, ir.securityProfileRules.map securityProfileRule)]

/-- **The engine reads what was rendered**: the mode, inline the queue number and the number
of queues (none given means one), and every generated block, in order and without an error. -/
structure SelfDescribing (ir : IR) (config : String) : Prop where
  mode : (parseMode config).mode = modeOf ir.ids
  queues : ∀ ids, ir.ids = some ids → ids.prevent = true →
    (parseMode config).queueNum = decimal ids.queueNum ∧
      (parseMode config).queueCount = (max 1 ids.queueCount : Nat)
  blocks : ∀ b ∈ generatedBlocks ir, ∃ found,
    generatedBlockLines config b.1 = (b.2, found, none) ∧ (b.2 ≠ [] → found = true)

/-! ### Texts that fit

The scanner has a buffer of 64 KiB. A line that does not fit ends the scan, and nothing after it is
read. -/

/-- Every text of the policy and the node fits on its line. -/
structure ShortTexts (ir : IR) (ids : IDsIR) (opts : Suricata.Options) : Prop where
  homeNets : Fits ("    HOME_NET: \"[" ++ (join (ids.homeNets.map Prefix.string) "," ++ "]\""))
  logDir : Fits ("default-log-dir: " ++ opts.logDir)
  interfaces : ids.prevent = false → ∀ ifc ∈ ids.interfaces.zipIdx,
    Fits ("  - interface: " ++ ifc.1) ∧ Fits ("    cluster-id: " ++ decimal (90 + ifc.2))
  paths : ∀ l ∈ pathLines opts, Fits l
  ruleFiles : ∀ rf ∈ ids.ruleFiles, Fits ("  - " ++ rf)
  thresholdFile : ids.exceptions ≠ [] →
    Fits ("threshold-file: " ++ joinPath [opts.rulesDir, ThresholdFileName])
  exceptions : ∀ ex ∈ ids.exceptions, ∀ l ∈ exceptionLines ex, Fits l
  controls : ∀ control ∈ appIDRuleControls ir,
    Fits ("# openngfw-appid-rule: " ++ appIDControlRule control)
  profileRules : ∀ rule ∈ ir.securityProfileRules,
    Fits ("# openngfw-security-profile-rule: " ++ securityProfileRule rule)

section Fits

variable {ir : IR} {ids : IDsIR} {opts : Suricata.Options}

theorem fits_headLines
    (hcount : ids.prevent = true → ids.queueNum < 65536 ∧ ids.queueCount < 65536) :
    ∀ l ∈ headLines ids, Fits l := by
  have hmarker : Unbroken ModeMarker := unbroken_ofList (by decide)
  have hmode : Fits (ModeMarker ++ (if ids.prevent then ModePrevent else ModeDetect)) := by
    split
    · exact fits_of_length (unbroken_append.mpr ⟨hmarker, unbroken_ofList (by decide)⟩)
        (by decide)
    · exact fits_of_length (unbroken_append.mpr ⟨hmarker, unbroken_ofList (by decide)⟩)
        (by decide)
  have hstart : ∀ l ∈ ["%YAML 1.1", "---"] ++
      [ModeMarker ++ (if ids.prevent then ModePrevent else ModeDetect)], Fits l := by
    rw [List.forall_mem_append, List.forall_mem_singleton]
    exact ⟨fun l hl => (plain_headStart l hl).fits, hmode⟩
  unfold headLines
  simp only [List.forall_mem_append]
  refine ⟨⟨hstart, ?_⟩, fun l hl => (plain_headEnd l hl).fits⟩
  intro l hl
  split at hl
  · next hprevent =>
      obtain ⟨hnum, hqueues⟩ := hcount hprevent
      simp only [List.mem_cons, List.not_mem_nil, or_false] at hl
      rcases hl with rfl | rfl
      · exact fits_number (unbroken_ofList (by decide)) (by decide) (by omega)
      · exact fits_number (unbroken_ofList (by decide)) (by decide) (by split <;> omega)
  · cases hl

theorem fits_settingLines : (∀ l ∈ settingLines ids opts, Fits l) ↔
    Fits ("    HOME_NET: \"[" ++ (join (ids.homeNets.map Prefix.string) "," ++ "]\"")) ∧
      Fits ("default-log-dir: " ++ opts.logDir) := by
  unfold settingLines
  rw [List.forall_mem_append, List.forall_mem_append, List.forall_mem_append,
    List.forall_mem_singleton, List.forall_mem_singleton]
  constructor
  · rintro ⟨⟨⟨-, hhome⟩, -⟩, hlog⟩
    exact ⟨hhome, hlog⟩
  · rintro ⟨hhome, hlog⟩
    exact ⟨⟨⟨fun l hl => (plain_runLines l hl).fits, hhome⟩,
      fun l hl => (plain_externalLines l hl).fits⟩, hlog⟩

theorem fits_captureLines : (∀ l ∈ captureLines ids, Fits l) ↔
    (ids.prevent = false → ∀ ifc ∈ ids.interfaces.zipIdx,
      Fits ("  - interface: " ++ ifc.1) ∧ Fits ("    cluster-id: " ++ decimal (90 + ifc.2))) := by
  unfold captureLines
  cases ids.prevent with
  | true =>
      simpa using fun l hl => (plain_inline ids.failOpen l hl).fits
  | false =>
      have hcluster : ∀ l ∈ ["    cluster-type: cluster_flow", "    defrag: yes", "af-packet:", ""],
          PlainLine l := by
        repeat refine plain_cons (by decide) ?_
        exact plain_nil
      have hfixed : Fits "    cluster-type: cluster_flow" ∧ Fits "    defrag: yes" ∧
          Fits "af-packet:" ∧ Fits "" := by
        simpa using fun l hl => (hcluster l hl).fits
      simp only [Bool.false_eq_true, if_false, List.forall_mem_append, List.forall_mem_singleton,
        List.forall_mem_flatMap, List.forall_mem_cons, hfixed, and_true, true_and, forall_const]

theorem fits_ruleFileLines : (∀ l ∈ ruleFileLines ir ids, Fits l) ↔
    ∀ rf ∈ ids.ruleFiles, Fits ("  - " ++ rf) := by
  have hhead : ∀ l ∈ ["rule-files:"], Fits l :=
    fun l hl => (plain_cons (by decide) plain_nil l hl).fits
  rw [ruleFileLines_eq, List.forall_mem_append, List.forall_mem_append, List.forall_mem_append,
    List.forall_mem_map]
  constructor
  · rintro ⟨⟨⟨-, h⟩, -⟩, -⟩
    exact h
  · intro h
    exact ⟨⟨⟨hhead, h⟩, fun l hl => (plain_generatedFileLines ir l hl).fits⟩,
      fun l hl => (plain_empty l hl).fits⟩

/-- Lines that are written only when there is something to write. -/
theorem forall_mem_ite_isEmpty {α : Type} {xs : List α} {ls : List String} {P : String → Prop} :
    (∀ l ∈ (if xs.isEmpty then [] else ls), P l) ↔ (xs ≠ [] → ∀ l ∈ ls, P l) := by
  cases xs <;> simp

/-- A block fits when its lines do. -/
theorem fits_block {α : Type} {xs : List α} {start stop : List String} {body : α → List String}
    (hstart : ∀ l ∈ start, Fits l) (hstop : ∀ l ∈ stop, Fits l) :
    (xs ≠ [] → ∀ l ∈ start ++ xs.flatMap body ++ stop, Fits l) ↔
      ∀ x ∈ xs, ∀ l ∈ body x, Fits l := by
  rw [List.forall_mem_append, List.forall_mem_append, List.forall_mem_flatMap]
  constructor
  · intro h x hx
    exact (h (List.ne_nil_of_mem hx)).1.2 x hx
  · intro h _
    exact ⟨⟨hstart, h⟩, hstop⟩

theorem fits_blockLines : (∀ l ∈ blockLines ir ids opts, Fits l) ↔
    (ids.exceptions ≠ [] →
      Fits ("threshold-file: " ++ joinPath [opts.rulesDir, ThresholdFileName])) ∧
    (∀ ex ∈ ids.exceptions, ∀ l ∈ exceptionLines ex, Fits l) ∧
    (∀ control ∈ appIDRuleControls ir, Fits ("# openngfw-appid-rule: " ++ appIDControlRule control)) ∧
    ∀ rule ∈ ir.securityProfileRules,
      Fits ("# openngfw-security-profile-rule: " ++ securityProfileRule rule) := by
  have hempty : Fits "" := fits_cons (by decide) fits_nil _ List.mem_cons_self
  have hthreshold : (ids.exceptions ≠ [] → ∀ l ∈ thresholdBlock ids.exceptions, Fits l) ↔
      ∀ ex ∈ ids.exceptions, ∀ l ∈ exceptionLines ex, Fits l :=
    fits_block (fits_cons (by decide) (fits_cons (by decide) (fits_cons (by decide) fits_nil)))
      (fits_cons (by decide) (fits_cons (by decide) fits_nil))
  have happID : (appIDRuleControls ir ≠ [] → ∀ l ∈ appIDRulesBlock (appIDRuleControls ir), Fits l) ↔
      ∀ control ∈ appIDRuleControls ir,
        Fits ("# openngfw-appid-rule: " ++ appIDControlRule control) := by
    unfold appIDRulesBlock
    rw [← List.flatMap_pure_eq_map]
    refine (fits_block ?_ ?_).trans (forall₂_congr fun _ _ => List.forall_mem_singleton)
    · exact fits_cons (by decide) (fits_cons (by decide) (fits_cons (by decide) fits_nil))
    · exact fits_cons (by decide) (fits_cons (by decide) fits_nil)
  have hprofile : (ir.securityProfileRules ≠ [] →
      ∀ l ∈ securityProfileRulesBlock ir.securityProfileRules, Fits l) ↔
      ∀ rule ∈ ir.securityProfileRules,
        Fits ("# openngfw-security-profile-rule: " ++ securityProfileRule rule) := by
    unfold securityProfileRulesBlock
    rw [← List.flatMap_pure_eq_map]
    refine (fits_block ?_ ?_).trans (forall₂_congr fun _ _ => List.forall_mem_singleton)
    · exact fits_cons (by decide) (fits_cons (by decide) (fits_cons (by decide) fits_nil))
    · exact fits_cons (by decide) (fits_cons (by decide) fits_nil)
  unfold blockLines
  rw [List.forall_mem_append, List.forall_mem_append, forall_mem_ite_isEmpty,
    forall_mem_ite_isEmpty, forall_mem_ite_isEmpty, happID, hprofile, ← hthreshold, and_assoc,
    ← and_assoc (b := ids.exceptions ≠ [] → ∀ l ∈ thresholdBlock ids.exceptions, Fits l)]
  refine and_congr_left fun _ => ?_
  simp only [List.forall_mem_append, List.forall_mem_cons, List.not_mem_nil, false_implies,
    implies_true, hempty, and_true]
  exact ⟨fun h => ⟨fun hne => (h hne).1, fun hne => (h hne).2⟩, fun h hne => ⟨h.1 hne, h.2 hne⟩⟩

/-- **The lines of the artifact fit exactly when its texts do.** -/
theorem fits_idsLines_iff
    (hcount : ids.prevent = true → ids.queueNum < 65536 ∧ ids.queueCount < 65536) :
    (∀ l ∈ idsLines ir ids opts, Fits l) ↔ ShortTexts ir ids opts := by
  have houtputs : ∀ l ∈ outputLines, Fits l := fun l hl => (plain_outputLines l hl).fits
  have hprotocols : ∀ l ∈ protocolLines, Fits l := fun l hl => (plain_protocolLines l hl).fits
  have hsize : ∀ l ∈ sizeLines ir.network, Fits l := fun l hl => (plain_sizeLines _ l hl).fits
  rw [idsLines_eq]
  simp only [List.forall_mem_append]
  rw [fits_settingLines, fits_captureLines, fits_ruleFileLines, fits_blockLines]
  constructor
  · rintro ⟨⟨⟨⟨⟨⟨⟨⟨-, hhome, hlog⟩, -⟩, -⟩, hifaces⟩, hpaths⟩, hfiles⟩, hfile, hex, happ, hprof⟩, -⟩
    exact ⟨hhome, hlog, hifaces, hpaths, hfiles, hfile, hex, happ, hprof⟩
  · rintro ⟨hhome, hlog, hifaces, hpaths, hfiles, hfile, hex, happ, hprof⟩
    exact ⟨⟨⟨⟨⟨⟨⟨⟨fits_headLines hcount, hhome, hlog⟩, hsize⟩, houtputs⟩, hifaces⟩,
      hpaths⟩, hfiles⟩, hfile, hex, happ, hprof⟩, hprotocols⟩

end Fits

/-! ### Smuggled lines

A smuggled line does harm if it gives another mode, another queue, or stands in a block or makes
one. -/

/-- The value a line gives for the mode. -/
def modeMarker (line : String) : Option String := (cutPrefix line "# openngfw-mode: ").map trimSpace

/-- The value a line gives for the queue. -/
def queueMarker (line : String) : Option String :=
  (cutPrefix line "# openngfw-queue: ").map trimSpace

/-- The value a line gives for the number of queues: a positive number. -/
def countMarker (line : String) : Option Int :=
  (cutPrefix line "# openngfw-queue-count: ").bind fun v => (atoi (trimSpace v)).filter (0 < ·)

/-- The last value among the lines. -/
def lastValue {β : Type} (marker : String → Option β) (lines : List String) : Option β :=
  (lines.filterMap marker).getLast?

/-- A reader that keeps the last value ends with it. -/
theorem foldl_lastValue {σ β : Type} {step : σ → String → σ} {field : σ → β}
    {marker : String → Option β} (h : ∀ s line, field (step s line) = (marker line).getD (field s)) :
    ∀ (lines : List String) (s : σ),
      field (lines.foldl step s) = (lastValue marker lines).getD (field s) := by
  intro lines
  induction lines with
  | nil => intro s; rfl
  | cons line lines ih =>
      intro s
      rw [List.foldl_cons, ih, h]
      unfold lastValue
      cases hm : marker line with
      | none => rw [List.filterMap_cons_none hm]; rfl
      | some v =>
          rw [List.filterMap_cons_some hm, List.getLast?_cons]
          rfl

theorem parseModeLine_mode (m : SuricataMode) (line : String) :
    (parseModeLine m line).mode = (modeMarker line).getD m.mode := by
  unfold parseModeLine modeMarker
  cases cutPrefix line "# openngfw-mode: " <;> cases cutPrefix line "# openngfw-queue: " <;>
    cases cutPrefix line "# openngfw-queue-count: " with
  | none => rfl
  | some v =>
      simp only
      split
      · split <;> rfl
      · rfl

theorem parseModeLine_queueNum (m : SuricataMode) (line : String) :
    (parseModeLine m line).queueNum = (queueMarker line).getD m.queueNum := by
  unfold parseModeLine queueMarker
  cases cutPrefix line "# openngfw-mode: " <;> cases cutPrefix line "# openngfw-queue: " <;>
    cases cutPrefix line "# openngfw-queue-count: " with
  | none => rfl
  | some v =>
      simp only
      split
      · split <;> rfl
      · rfl

theorem parseModeLine_queueCount (m : SuricataMode) (line : String) :
    (parseModeLine m line).queueCount = (countMarker line).getD m.queueCount := by
  unfold parseModeLine countMarker
  cases cutPrefix line "# openngfw-mode: " <;> cases cutPrefix line "# openngfw-queue: " <;>
    cases cutPrefix line "# openngfw-queue-count: " with
  | none => rfl
  | some v =>
      cases hn : atoi (trimSpace v) with
      | none => simp [hn]
      | some n =>
          by_cases hpos : 0 < n
          · simp [hn, hpos, Option.filter]
          · simp [hn, hpos, Option.filter]

/-- **The smuggled lines change nothing**: the last marker among them, if there is one, says
what the head says, and they add no line to a generated block and leave none open that is not
rendered (and closed) behind them. -/
structure Harmless (ir : IR) (ids : IDsIR) : Prop where
  mode : ∀ v, lastValue modeMarker (smuggledLines ids) = some v → v = modeOf (some ids)
  queue : ids.prevent = true → ∀ v, lastValue queueMarker (smuggledLines ids) = some v →
    v = decimal ids.queueNum
  count : ids.prevent = true → ∀ n, lastValue countMarker (smuggledLines ids) = some n →
    n = (max 1 ids.queueCount : Nat)
  blocks : ∀ b ∈ generatedBlocks ir,
    ((smuggledLines ids).foldl (generatedBlockLine b.1) {}).out = [] ∧
      (((smuggledLines ids).foldl (generatedBlockLine b.1) {}).inBlock = true → b.2 ≠ [])

theorem getD_eq_iff {β : Type} {o : Option β} {d : β} : o.getD d = d ↔ ∀ v, o = some v → v = d := by
  cases o <;> simp

/-- What a reader recovers of a block, from the state in which the smuggled lines left it. -/
theorem recovered_iff {s : BlockState} {values : List String} {opening : String} :
    (∃ found, (if (closeBlock s values).inBlock then
        ([], (closeBlock s values).found, some ("unterminated " ++ opening ++ " block"))
      else ((closeBlock s values).out, (closeBlock s values).found, none)) =
        (values, found, none) ∧ (values ≠ [] → found = true)) ↔
      s.out = [] ∧ (s.inBlock = true → values ≠ []) := by
  cases values with
  | nil => cases hin : s.inBlock <;> simp [closeBlock, hin]
  | cons v values => simp [closeBlock]

/-! ### The artifact -/

section Artifact

variable {ir : IR} {ids : IDsIR} {opts : Suricata.Options} (hids : ir.ids = some ids)
  (hir : UnbrokenIR ir ids) (hlog : Unbroken opts.logDir) (hrules : Unbroken opts.rulesDir)
  (hcount : ids.prevent = true → ids.queueNum < 65536 ∧ ids.queueCount < 65536)

include hids in
theorem Render_eq : Suricata.Render ir opts = unlines (idsLines ir ids opts) := by
  unfold Suricata.Render renderLines
  rw [hids]
  rfl

theorem modeOf_renderedMode : (renderedMode ids).mode = modeOf (some ids) := by
  cases hprevent : ids.prevent <;> simp [renderedMode, modeOf, hprevent]

theorem queues_renderedMode (hprevent : ids.prevent = true) :
    (renderedMode ids).queueNum = decimal ids.queueNum ∧
      (renderedMode ids).queueCount = (max 1 ids.queueCount : Nat) := by
  unfold renderedMode
  rw [if_pos hprevent]
  refine ⟨rfl, ?_⟩
  show ((if ids.queueCount < 1 then 1 else ids.queueCount : Nat) : Int) = _
  split <;> omega

include hids hir hlog hrules hcount in
/-- **What the mode reader finds**, where every line fits. -/
theorem parseMode_Render (hfits : ∀ l ∈ idsLines ir ids opts, Fits l) :
    parseMode (Suricata.Render ir opts) =
      (smuggledLines ids).foldl parseModeLine (renderedMode ids) := by
  have hskip : ∀ line, tagOf line = none → ∀ m, parseModeLine m line = m :=
    fun line h m => parseModeLine_of_tag (by simp [h]) (by simp [h]) m
  have hread := readLines_idsLines hskip hlog hrules ir ids {}
  have hhead : readLines parseModeLine {} (headLines ids) = renderedMode ids :=
    readLines_head fun hp => by have := (hcount hp).2; omega
  unfold parseMode
  rw [Render_eq hids, scanText_unlines hfits]
  refine Eq.trans hread ?_
  rw [readMode_blockLines hir hrules, hhead]

theorem within_headLines : ∀ l ∈ headLines ids, Within ['m', 'q'] l := by
  have hmarked : ∀ (c : Char) (cs : List Char) (v : String), isSpace c = false →
      c ∈ ['m', 'q'] → '\n' ∉ cs ∧ marker ++ [c] <+: cs → Unbroken v →
      Within ['m', 'q'] (String.ofList cs ++ v) := by
    intro c cs v hc hmem hcs hv
    refine within_of_tagOf (unbroken_append.mpr ⟨unbroken_ofList hcs.1, hv⟩) fun d hd => ?_
    rw [tagOf_of_lead hc] at hd
    · cases hd
      exact hmem
    · rw [String.toList_append]
      exact (prefix_ofList hcs.2).trans (List.prefix_append _ _)
  have hmode : Unbroken (if ids.prevent then ModePrevent else ModeDetect) := by
    split <;> exact unbroken_ofList (by decide)
  have hstart : ∀ l ∈ ["%YAML 1.1", "---"] ++
      [ModeMarker ++ (if ids.prevent then ModePrevent else ModeDetect)], Within ['m', 'q'] l := by
    rw [List.forall_mem_append, List.forall_mem_singleton]
    exact ⟨fun l hl => (plain_headStart l hl).within.mono (by simp),
      hmarked 'm' _ _ (by decide) (by decide) (by decide) hmode⟩
  unfold headLines
  simp only [List.forall_mem_append]
  refine ⟨⟨hstart, ?_⟩, fun l hl => (plain_headEnd l hl).within.mono (by simp)⟩
  intro l hl
  split at hl
  · simp only [List.mem_cons, List.not_mem_nil, or_false] at hl
    rcases hl with rfl | rfl
    · exact hmarked 'q' _ _ (by decide) (by decide) (by decide) (unbroken_decimal _)
    · exact hmarked 'q' _ _ (by decide) (by decide) (by decide) (unbroken_decimal _)
  · cases hl

include hids hlog hrules in
/-- **What a block reader finds**, where every line fits. -/
theorem generatedBlockLines_Render (hfits : ∀ l ∈ idsLines ir ids opts, Fits l) {k : Block}
    {c : Char} (hk : k.Tagged c) (hm : c ≠ 'm') (hq : c ≠ 'q') {values : List String}
    (hblocks : ∀ s, readLines (generatedBlockLine k) s (blockLines ir ids opts) =
      closeBlock s values) :
    let s := closeBlock ((smuggledLines ids).foldl (generatedBlockLine k) {}) values
    generatedBlockLines (Suricata.Render ir opts) k =
      if s.inBlock then ([], s.found, some ("unterminated " ++ k.opening ++ " block"))
      else (s.out, s.found, none) := by
  have hread := readLines_idsLines (generatedBlockLine_untagged hk) hlog hrules ir ids {}
  have hhead : readLines (generatedBlockLine k) {} (headLines ids) = {} := by
    refine readLines_within hk within_headLines ?_ _
    simp [hm, hq]
  have herr : scanErr (unlines (idsLines ir ids opts)) = none := scanErr_unlines.mpr hfits
  rw [hhead, hblocks] at hread
  unfold generatedBlockLines
  rw [Render_eq hids, herr, scanText_unlines hfits]
  simp only
  unfold readLines at hread
  rw [← hread]
  rfl

include hids hir hlog hrules hcount in
/-- **The artifact of an inspection section describes itself exactly when its texts are short
and the smuggled lines change nothing.** -/
theorem selfDescribing_iff : SelfDescribing ir (Suricata.Render ir opts) ↔
    ShortTexts ir ids opts ∧ Harmless ir ids := by
  have hblocks : generatedBlocks ir = [(thresholdMarkers, ids.exceptions.map suppressLine),
      (appIDMarkers, (appIDRuleControls ir).map appIDControlRule),
      (securityProfileMarkers, ir.securityProfileRules.map securityProfileRule)] := by
    unfold generatedBlocks
    rw [hids]
  -- a line that does not fit is an error for every block reader
  have hfits : SelfDescribing ir (Suricata.Render ir opts) → ∀ l ∈ idsLines ir ids opts, Fits l := by
    intro h
    obtain ⟨found, hread, -⟩ := h.blocks _ (by rw [hblocks]; exact List.mem_cons_self)
    unfold generatedBlockLines at hread
    rw [Render_eq hids] at hread
    refine scanErr_unlines.mp ?_
    cases herr : scanErr (unlines (idsLines ir ids opts)) with
    | none => rfl
    | some err =>
        rw [herr] at hread
        cases congrArg (fun r => r.2.2) hread
  have hmain : (∀ l ∈ idsLines ir ids opts, Fits l) →
      (SelfDescribing ir (Suricata.Render ir opts) ↔ Harmless ir ids) := by
    intro hshort
    have hmode := parseMode_Render hids hir hlog hrules hcount hshort
    have hread : ∀ b ∈ generatedBlocks ir, ((∃ found,
        generatedBlockLines (Suricata.Render ir opts) b.1 = (b.2, found, none) ∧
          (b.2 ≠ [] → found = true)) ↔
        ((smuggledLines ids).foldl (generatedBlockLine b.1) {}).out = [] ∧
          (((smuggledLines ids).foldl (generatedBlockLine b.1) {}).inBlock = true → b.2 ≠ [])) := by
      rw [hblocks]
      simp only [List.forall_mem_cons, List.not_mem_nil, false_implies, implies_true, and_true]
      rw [generatedBlockLines_Render hids hlog hrules hshort threshold_tagged (by decide)
          (by decide) (readThreshold_blockLines hir hrules),
        generatedBlockLines_Render hids hlog hrules hshort appID_tagged (by decide) (by decide)
          (readAppID_blockLines hir hrules),
        generatedBlockLines_Render hids hlog hrules hshort securityProfile_tagged (by decide)
          (by decide) (readSecurityProfile_blockLines hir hrules)]
      exact ⟨recovered_iff, recovered_iff, recovered_iff⟩
    have hmodes : (parseMode (Suricata.Render ir opts)).mode = modeOf ir.ids ↔
        ∀ v, lastValue modeMarker (smuggledLines ids) = some v → v = modeOf (some ids) := by
      rw [hmode, foldl_lastValue parseModeLine_mode, hids, modeOf_renderedMode, getD_eq_iff]
    have hqueues : ids.prevent = true →
        ((parseMode (Suricata.Render ir opts)).queueNum = decimal ids.queueNum ↔
          ∀ v, lastValue queueMarker (smuggledLines ids) = some v → v = decimal ids.queueNum) := by
      intro hp
      rw [hmode, foldl_lastValue parseModeLine_queueNum, (queues_renderedMode hp).1, getD_eq_iff]
    have hcounts : ids.prevent = true →
        ((parseMode (Suricata.Render ir opts)).queueCount = (max 1 ids.queueCount : Nat) ↔
          ∀ n, lastValue countMarker (smuggledLines ids) = some n →
            n = (max 1 ids.queueCount : Nat)) := by
      intro hp
      rw [hmode, foldl_lastValue parseModeLine_queueCount, (queues_renderedMode hp).2, getD_eq_iff]
    constructor
    · intro h
      exact ⟨hmodes.mp h.mode, fun hp => (hqueues hp).mp (h.queues ids hids hp).1,
        fun hp => (hcounts hp).mp (h.queues ids hids hp).2,
        fun b hb => (hread b hb).mp (h.blocks b hb)⟩
    · intro h
      refine ⟨hmodes.mpr h.mode, ?_, fun b hb => (hread b hb).mpr (h.blocks b hb)⟩
      intro ids' hids' hp
      rw [hids] at hids'
      cases hids'
      exact ⟨(hqueues hp).mpr (h.queue hp), (hcounts hp).mpr (h.count hp)⟩
  rw [← fits_idsLines_iff hcount]
  constructor
  · intro h
    exact ⟨hfits h, (hmain (hfits h)).mp h⟩
  · rintro ⟨hshort, hharmless⟩
    exact (hmain hshort).mpr hharmless

end Artifact

/-- Without an inspection section the artifact is one line. -/
theorem selfDescribing_disabled {ir : IR} (h : ir.ids = none) (opts : Suricata.Options) :
    SelfDescribing ir (Suricata.Render ir opts) := by
  have hrender : Suricata.Render ir opts = "# openngfw-mode: disabled\n" := by
    unfold Suricata.Render renderLines
    rw [h]
    show String.join [ModeMarker ++ ModeDisabled ++ "\n"] = _
    decide
  have hblocks : generatedBlocks ir =
      [(thresholdMarkers, []), (appIDMarkers, []), (securityProfileMarkers, [])] := by
    unfold generatedBlocks
    rw [h]
  rw [hrender]
  refine ⟨?_, ?_, ?_⟩
  · rw [h]
    decide
  · intro ids hids
    rw [h] at hids
    cases hids
  · rw [hblocks]
    intro b hb
    refine ⟨false, ?_, ?_⟩ <;> revert b <;> decide

theorem compileIDs_queueNum {p : Phragma.Policy} {addrs : List (String × Prefix)} {ids : IDsIR}
    (h : compileIDs p addrs = .ok (some ids)) : ids.queueNum = uint16 p.getIds.queueNum := by
  unfold compileIDs at h
  simp only at h
  split at h
  · cases h
  · split at h
    · cases h
    · obtain ⟨homeNets, -, h⟩ := bind_ok.mp h
      obtain ⟨exceptions, -, h⟩ := bind_ok.mp h
      cases h
      rfl

/-- What the pipeline changes of an inspection section: the number of queues. -/
theorem resolveQueueCount_ids {opts : Renderers.Options} {ir : IR} {ids : IDsIR}
    (h : (resolveQueueCount opts ir).ids = some ids) :
    ∃ ids₀, ir.ids = some ids₀ ∧ ids = { ids₀ with queueCount := ids.queueCount } ∧
      (ids.prevent = true →
        ids.queueCount = uint16 (if opts.inspectionWorkers < 1 then 1
          else opts.inspectionWorkers).toNat) := by
  unfold resolveQueueCount at h
  cases hids : ir.ids with
  | none => simp [hids] at h
  | some ids₀ =>
      refine ⟨ids₀, rfl, ?_⟩
      cases hp : ids₀.prevent with
      | true =>
          simp only [hids, hp, if_true, Option.some.injEq] at h
          subst h
          exact ⟨by simp, fun _ => rfl⟩
      | false =>
          simp only [hids, hp, Bool.false_eq_true, if_false, Option.some.injEq] at h
          subst h
          exact ⟨by rw [← hp], fun h => by rw [hp] at h; cases h⟩

theorem uint16_lt (n : Nat) : uint16 n < 65536 := Nat.mod_lt _ (by decide)

/-- The rendered inspection section of a policy: unbroken, with queue numbers of 16 bits. -/
theorem unbroken_resolved {H : IdentityHash} {p : Phragma.Policy} {ir : IR}
    (hcompile : Compile H p = .ok ir) {opts : Renderers.Options} {ids : IDsIR}
    (hids : (resolveQueueCount opts ir).ids = some ids) :
    UnbrokenIR (resolveQueueCount opts ir) ids ∧
      (ids.prevent = true → ids.queueNum < 65536 ∧ ids.queueCount < 65536) := by
  obtain ⟨ids₀, hids₀, heq, hworkers⟩ := resolveQueueCount_ids hids
  obtain ⟨-, c, hC⟩ := Compile_ok hcompile
  have hir := unbrokenIR_of_Compile hcompile hids₀
  have hsame : appIDRuleControls (resolveQueueCount opts ir) = appIDRuleControls ir ∧
      (resolveQueueCount opts ir).securityProfileRules = ir.securityProfileRules := by
    unfold resolveQueueCount
    rw [hids₀]
    cases hp : ids₀.prevent <;> simp [appIDRuleControls, hp]
  constructor
  · refine ⟨?_, ?_, ?_⟩
    · rw [heq]
      exact hir.exceptions
    · rw [hsame.1]
      exact hir.controls
    · rw [hsame.2]
      exact hir.profileRules
  · intro hp
    rw [hworkers hp, heq]
    refine ⟨?_, uint16_lt _⟩
    show ids₀.queueNum < 65536
    rw [compileIDs_queueNum (hids₀ ▸ hC.ids)]
    exact uint16_lt _

/-- **The Suricata artifact of a policy describes itself exactly when** every text of the
policy and the node fits on its line, and the lines that interface and rule-file names smuggle
into the file change nothing. -/
theorem suricata_selfDescribing_iff {H : IdentityHash} {p : Phragma.Policy} {ir : IR}
    (hcompile : Compile H p = .ok ir) (opts : Renderers.Options)
    (hrules : Unbroken opts.suricataRulesDir) (hlog : Unbroken opts.logDir) :
    SelfDescribing (resolveQueueCount opts ir)
        (Suricata.Render (resolveQueueCount opts ir) opts.suricata) ↔
      ∀ ids, (resolveQueueCount opts ir).ids = some ids →
        ShortTexts (resolveQueueCount opts ir) ids opts.suricata ∧
          Harmless (resolveQueueCount opts ir) ids := by
  cases hids : (resolveQueueCount opts ir).ids with
  | none =>
      refine iff_of_true (selfDescribing_disabled hids _) ?_
      intro ids h
      cases h
  | some ids =>
      obtain ⟨hir, hcount⟩ := unbroken_resolved hcompile hids
      rw [selfDescribing_iff hids hir hlog hrules hcount]
      constructor
      · intro h ids' hids'
        cases hids'
        exact h
      · intro h
        exact h ids rfl

theorem harmless_of_nil {ir : IR} {ids : IDsIR} (h : smuggledLines ids = []) : Harmless ir ids where
  mode := by simp [h, lastValue]
  queue := by simp [h, lastValue]
  count := by simp [h, lastValue]
  blocks := by simp [h]

/-- A node that inspects inline with two workers. -/
def inlineOptions : Renderers.Options :=
  { suricataRulesDir := "/var/lib/rules", logDir := "/var/log", inspectionWorkers := 2 }

/-- Inline inspection that fails closed, with one exception, on the queue and with the rule
files given. -/
def inlinePolicy (queueNum : Nat) (ruleFiles : List String) : Phragma.Policy where
  zones := [{ name := "wan", interfaces := ["eth0"] }]
  ids := some {
    enabled := true
    mode := .prevent
    failureBehavior := .failClosed
    ruleFiles
    queueNum
    exceptions := [{ name := "scanner", signatureId := 2001, description := "nightly scan" }] }

theorem suricata_selfDescribing_inline :
    ∃ ir, Compile .zero (inlinePolicy 4 ["local.rules"]) = .ok ir ∧
      Unbroken inlineOptions.suricataRulesDir ∧ Unbroken inlineOptions.logDir ∧
      SelfDescribing (resolveQueueCount inlineOptions ir)
        (Suricata.Render (resolveQueueCount inlineOptions ir) inlineOptions.suricata) := by
  have hok : (Compile .zero (inlinePolicy 4 ["local.rules"])).toOption.any (fun ir =>
      (resolveQueueCount inlineOptions ir).ids.any fun ids =>
        decide (ids.prevent = true ∧ smuggledLines ids = [] ∧ ids.ruleFiles = ["local.rules"] ∧
          appIDRuleControls (resolveQueueCount inlineOptions ir) = [] ∧
          (resolveQueueCount inlineOptions ir).securityProfileRules = [] ∧
          Fits ("    HOME_NET: \"[" ++ (join (ids.homeNets.map Prefix.string) "," ++ "]\"")) ∧
          ∀ ex ∈ ids.exceptions, ∀ l ∈ exceptionLines ex, Fits l)) = true := by
    decide +kernel
  obtain ⟨ir, hir, hok⟩ := (Option.any_eq_true _ _).mp hok
  obtain ⟨ids, hids, hok⟩ := (Option.any_eq_true _ _).mp hok
  obtain ⟨hprevent, hnil, hfiles, hcontrols, hprofiles, hhome, hexceptions⟩ := of_decide_eq_true hok
  have hcompile := toOption_eq_some.mp hir
  have hshort : ShortTexts (resolveQueueCount inlineOptions ir) ids inlineOptions.suricata := by
    refine ⟨hhome, by decide, ?_, by decide, ?_, fun _ => by decide,
      hexceptions, ?_, ?_⟩
    · intro hdetect
      rw [hprevent] at hdetect
      cases hdetect
    · rw [hfiles, List.forall_mem_singleton]
      decide
    · simp [hcontrols]
    · simp [hprofiles]
  refine ⟨ir, hcompile, by decide, by decide, ?_⟩
  refine (suricata_selfDescribing_iff hcompile inlineOptions (by decide)
    (by decide)).mpr ?_
  intro ids' hids'
  rw [hids] at hids'
  cases hids'
  exact ⟨hshort, harmless_of_nil hnil⟩

/-- **A rule-file name can switch inspection off.** -/
theorem suricata_smuggled_mode : ¬ ∀ (H : IdentityHash) (p : Phragma.Policy) (ir : IR)
    (opts : Renderers.Options), Compile H p = .ok ir → Unbroken opts.suricataRulesDir →
      Unbroken opts.logDir → SelfDescribing (resolveQueueCount opts ir)
        (Suricata.Render (resolveQueueCount opts ir) opts.suricata) := by
  intro hall
  have hok : (Compile .zero (inlinePolicy 4 ["local.rules\n# openngfw-mode: disabled"])).toOption.any
      (fun ir => (resolveQueueCount inlineOptions ir).ids.any fun ids =>
        decide (lastValue modeMarker (smuggledLines ids) = some "disabled" ∧
          ids.prevent = true)) = true := by
    decide +kernel
  obtain ⟨ir, hir, hok⟩ := (Option.any_eq_true _ _).mp hok
  obtain ⟨ids, hids, hok⟩ := (Option.any_eq_true _ _).mp hok
  obtain ⟨hvalue, hprevent⟩ := of_decide_eq_true hok
  have hcompile := toOption_eq_some.mp hir
  have hself := hall .zero _ ir inlineOptions hcompile (by decide) (by decide)
  obtain ⟨hir, hcount⟩ := unbroken_resolved hcompile hids
  obtain ⟨-, hharmless⟩ := (selfDescribing_iff hids hir (by decide) (by decide) hcount).mp hself
  have hmode := hharmless.mode _ hvalue
  simp only [modeOf, hprevent, if_true] at hmode
  revert hmode
  decide

end Phragma.Engines.Suricata
