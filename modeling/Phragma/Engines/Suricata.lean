import Phragma.Renderers.RenderAll
import Phragma.Renderers.Unbroken

/-!
# Phragma.Engines.Suricata

How the Suricata engine reads its artifact (`internal/engines/suricata.go`): the mode and the
queues from marker lines, and the generated suppressions and signatures from blocks between
markers.

The engine scans the whole file for markers, and a later marker wins. Every line it reacts to
starts with `# openngfw-` and one more character, its **tag** (`tagOf`); the renderer's own
lines have known tags, so the only lines of unknown tag are those that follow a line end inside
an interface name or a rule-file name (`smuggledLines`). What the engine reads is therefore
what the renderer wrote, followed by what these lines change.
-/

namespace Phragma.Engines.Suricata

open Lib Go Policy Compiler Renderers Renderers.Suricata

/-! ### The mode

Three marker lines say how the engine runs Suricata. All lines are scanned, and the last of a kind
counts. -/

/-- `suricataMode`: what the markers say. -/
structure SuricataMode where
  mode : String := "disabled"
  queueNum : String := "0"
  queueCount : Int := 1
  deriving DecidableEq, Repr

/-- The body of the loop of `parseMode`. -/
def parseModeLine (m : SuricataMode) (line : String) : SuricataMode :=
  let m := match cutPrefix line "# openngfw-mode: " with
    | some v => { m with mode := trimSpace v }
    | none => m
  let m := match cutPrefix line "# openngfw-queue: " with
    | some v => { m with queueNum := trimSpace v }
    | none => m
  match cutPrefix line "# openngfw-queue-count: " with
  | some v =>
      match atoi (trimSpace v) with
      | some n => if 0 < n then { m with queueCount := n } else m
      | none => m
  | none => m

/-- `parseMode`: the mode of an artifact. -/
def parseMode (config : String) : SuricataMode := (scanText config).foldl parseModeLine {}

/-! ### Generated blocks

A block is what stands between its two markers. Of its lines those with the lead of the block are
read, without it. -/

/-- The markers of a generated block. -/
structure Block where
  opening : String
  closing : String
  lead : String

def thresholdMarkers : Block :=
  ⟨"# openngfw-threshold-begin", "# openngfw-threshold-end", "# openngfw-threshold-line: "⟩

def appIDMarkers : Block :=
  ⟨"# openngfw-appid-rules-begin", "# openngfw-appid-rules-end", "# openngfw-appid-rule: "⟩

def securityProfileMarkers : Block :=
  ⟨"# openngfw-security-profile-rules-begin", "# openngfw-security-profile-rules-end",
    "# openngfw-security-profile-rule: "⟩

/-- The state of the loop of `generatedBlockLines`. -/
structure BlockState where
  out : List String := []
  inBlock : Bool := false
  found : Bool := false
  deriving DecidableEq, Repr

/-- The body of the loop of `generatedBlockLines`. -/
def generatedBlockLine (k : Block) (s : BlockState) (text : String) : BlockState :=
  let line := trimSpace text
  if line = k.opening then { s with inBlock := true, found := true }
  else if line = k.closing then { s with inBlock := false }
  else if s.inBlock then
    match cutPrefix line k.lead with
    | some value => { s with out := s.out ++ [trimSpace value] }
    | none => s
  else s

/-- `generatedBlockLines`: the lines, whether there is a block, and the error. -/
def generatedBlockLines (config : String) (k : Block) : List String × Bool × Option String :=
  let s := (scanText config).foldl (generatedBlockLine k) {}
  match scanErr config with
  | some err => ([], s.found, some err)
  | none =>
      if s.inBlock then ([], s.found, some ("unterminated " ++ k.opening ++ " block"))
      else (s.out, s.found, none)

/-! ### Tags

The engine's readers look at the start of a line. What they tell apart is the one character behind
`# openngfw-`, so a line of another tag is passed over by all of them. -/

/-- What every marker starts with. -/
def marker : List Char := ['#', ' ', 'o', 'p', 'e', 'n', 'n', 'g', 'f', 'w', '-']

/-- The character that follows `# openngfw-`. -/
def tag (cs : List Char) : Option Char :=
  if marker.isPrefixOf cs then (cs.drop marker.length).head? else none

/-- The tag of a line: surrounding white space does not count. -/
def tagOf (line : String) : Option Char := tag (trimSpace line).toList

theorem tag_of_lead {cs : List Char} {c : Char} (h : marker ++ [c] <+: cs) : tag cs = some c := by
  obtain ⟨rest, rfl⟩ := h
  have hmarker : marker.isPrefixOf (marker ++ [c] ++ rest) = true := by
    rw [List.isPrefixOf_iff_prefix, List.append_assoc]
    exact List.prefix_append _ _
  unfold tag
  rw [if_pos hmarker, List.append_assoc, List.drop_left]
  rfl

/-- A line that starts with a marker has its tag. -/
theorem tagOf_of_lead {line : String} {c : Char} (hc : isSpace c = false)
    (h : marker ++ [c] <+: line.toList) : tagOf line = some c := by
  refine tag_of_lead ?_
  obtain ⟨rest, hrest⟩ := h
  rw [trimSpace_toList, ← hrest]
  refine prefix_trimList ?_ ?_
  · intro d hd
    have hmarker : marker.head? = some '#' := rfl
    rw [List.head?_append, hmarker] at hd
    cases hd
    decide
  · intro d hd
    rw [List.getLast?_concat] at hd
    cases hd
    exact hc

/-- A line that starts otherwise has none. -/
theorem tag_eq_none {lead cs : List Char} (h : lead <+: cs) (hlead : ¬ lead <+: marker)
    (hmarker : ¬ marker <+: lead) : tag cs = none := by
  refine if_neg fun hp => ?_
  rcases List.prefix_or_prefix_of_prefix h (List.isPrefixOf_iff_prefix.mp hp) with h | h
  · exact hlead h
  · exact hmarker h

/-- A literal is the text of its characters: facts about it are facts about these. -/
theorem prefix_ofList {a cs : List Char} (h : a <+: cs) : a <+: (String.ofList cs).toList := by
  rwa [String.toList_ofList]

/-- The mode reader reacts to the tags `m` and `q` only. -/
theorem parseModeLine_of_tag {line : String} (hm : tagOf line ≠ some 'm')
    (hq : tagOf line ≠ some 'q') (m : SuricataMode) : parseModeLine m line = m := by
  have hmode : cutPrefix line "# openngfw-mode: " = none :=
    cutPrefix_eq_none fun h => hm (tagOf_of_lead (by decide)
      (List.IsPrefix.trans (prefix_ofList (by decide)) h))
  have hqueue : cutPrefix line "# openngfw-queue: " = none :=
    cutPrefix_eq_none fun h => hq (tagOf_of_lead (by decide)
      (List.IsPrefix.trans (prefix_ofList (by decide)) h))
  have hcount : cutPrefix line "# openngfw-queue-count: " = none :=
    cutPrefix_eq_none fun h => hq (tagOf_of_lead (by decide)
      (List.IsPrefix.trans (prefix_ofList (by decide)) h))
  simp only [parseModeLine, hmode, hqueue, hcount]

/-- All markers of a block have one tag, and the lines of the block are no markers. -/
structure Block.Tagged (k : Block) (c : Char) : Prop where
  opening : marker ++ [c] <+: k.opening.toList
  closing : marker ++ [c] <+: k.closing.toList
  lead : marker ++ [c] <+: k.lead.toList
  lead_opening : ¬ k.lead.toList <+: k.opening.toList
  lead_closing : ¬ k.lead.toList <+: k.closing.toList
  distinct : k.closing ≠ k.opening

theorem tagged_ofList {a b l : List Char} {c : Char}
    (h : marker ++ [c] <+: a ∧ marker ++ [c] <+: b ∧ marker ++ [c] <+: l ∧ ¬ l <+: a ∧ ¬ l <+: b ∧
      b ≠ a) : Block.Tagged ⟨String.ofList a, String.ofList b, String.ofList l⟩ c where
  opening := prefix_ofList h.1
  closing := prefix_ofList h.2.1
  lead := prefix_ofList h.2.2.1
  lead_opening := by simpa using h.2.2.2.1
  lead_closing := by simpa using h.2.2.2.2.1
  distinct := fun heq => h.2.2.2.2.2 (by
    have := congrArg String.toList heq
    rwa [String.toList_ofList, String.toList_ofList] at this)

theorem threshold_tagged : thresholdMarkers.Tagged 't' := tagged_ofList (by decide)
theorem appID_tagged : appIDMarkers.Tagged 'a' := tagged_ofList (by decide)
theorem securityProfile_tagged : securityProfileMarkers.Tagged 's' := tagged_ofList (by decide)

/-- A block reader reacts to the tag of its block only. -/
theorem generatedBlockLine_of_tag {k : Block} {c : Char} (hk : k.Tagged c) {line : String}
    (h : tagOf line ≠ some c) (s : BlockState) : generatedBlockLine k s line = s := by
  have hopening : trimSpace line ≠ k.opening := by
    intro heq
    exact h (tag_of_lead (by rw [heq]; exact hk.opening))
  have hclosing : trimSpace line ≠ k.closing := by
    intro heq
    exact h (tag_of_lead (by rw [heq]; exact hk.closing))
  have hlead : cutPrefix (trimSpace line) k.lead = none :=
    cutPrefix_eq_none fun hp => h (tag_of_lead (hk.lead.trans hp))
  simp [generatedBlockLine, hopening, hclosing, hlead]

/-! ### Written lines

One written line is read as several where it holds line ends. Only the lines after the first can be
a surprise. -/

/-- The lines that are read where one line was written. -/
def physical (l : String) : List String := (lineParts l).map scanned

/-- Only tags in `ts` are read where this line was written. -/
def Within (ts : List Char) (l : String) : Prop :=
  ∀ line ∈ physical l, ∀ c, tagOf line = some c → c ∈ ts

theorem physical_of_unbroken {l : String} (h : Unbroken l) : physical l = [scanned l.toList] := by
  rw [physical, lineParts_of_notMem h]
  rfl

theorem tagOf_scanned (l : String) : tagOf (scanned l.toList) = tagOf l := by
  unfold tagOf
  rw [trimSpace_scanned, trimSpace]

theorem within_of_tagOf {ts : List Char} {l : String} (hl : Unbroken l)
    (ht : ∀ c, tagOf l = some c → c ∈ ts) : Within ts l := by
  intro line hline c hc
  rw [physical_of_unbroken hl, List.mem_singleton] at hline
  rw [hline, tagOf_scanned] at hc
  exact ht c hc

theorem Within.mono {ts us : List Char} {l : String} (h : Within ts l) (hsub : ts ⊆ us) :
    Within us l :=
  fun line hline c hc => hsub (h line hline c hc)

/-- The mode reader skips lines of other tags. -/
theorem parseModeLine_of_within {ts : List Char} (hm : 'm' ∉ ts) (hq : 'q' ∉ ts) {l : String}
    (h : Within ts l) : ∀ line ∈ physical l, ∀ m, parseModeLine m line = m :=
  fun line hline m => parseModeLine_of_tag (fun ht => hm (h line hline _ ht))
    (fun ht => hq (h line hline _ ht)) m

/-- A text whose visible part neither starts a marker nor is started by one. -/
def plainLead (lead : String) : Bool :=
  let t := trimList isSpace lead.toList
  !t.isPrefixOf marker && !marker.isPrefixOf t

theorem tagOf_append {lead rest : String} (h : plainLead lead = true) :
    tagOf (lead ++ rest) = none := by
  simp only [plainLead, Bool.and_eq_true, Bool.not_eq_true', ← Bool.not_eq_true,
    List.isPrefixOf_iff_prefix] at h
  refine tag_eq_none ?_ h.1 h.2
  rw [trimSpace_toList, String.toList_append]
  exact trimList_prefix_append _ _

/-- The fixed start of a line of the renderer. -/
structure IsLead (lead : String) : Prop where
  plain : plainLead lead = true
  unbroken : Unbroken lead

theorem isLead_ofList {cs : List Char} (h : (let t := trimList isSpace cs
    !t.isPrefixOf marker && !marker.isPrefixOf t) = true ∧ '\n' ∉ cs) :
    IsLead (String.ofList cs) where
  plain := by
    unfold plainLead
    rw [String.toList_ofList]
    exact h.1
  unbroken := by
    unfold Unbroken
    rw [String.toList_ofList]
    exact h.2

/-- A line behind a fixed start is not tagged. -/
theorem within_of_lead {lead rest : String} (h : IsLead lead) (hr : Unbroken rest) :
    Within [] (lead ++ rest) :=
  within_of_tagOf (unbroken_append.mpr ⟨h.unbroken, hr⟩) fun c hc => by
    rw [tagOf_append h.plain] at hc
    cases hc

/-! ### The renderer's own lines

A line that the scanner can hold and that has no tag of interest changes nothing. -/

/-- A written line that the scanner can hold. -/
def Fits (l : String) : Prop := ∀ part ∈ lineParts l, fitsBuffer part = true

instance (l : String) : Decidable (Fits l) := inferInstanceAs (Decidable (∀ _ ∈ _, _))

theorem byteLen_le (cs : List Char) : byteLen cs ≤ 4 * cs.length := by
  induction cs with
  | nil => exact Nat.le_refl _
  | cons c cs ih =>
      have hc := Char.utf8Size_le_four c
      have hcons : byteLen (c :: cs) = c.utf8Size + byteLen cs := by simp [byteLen]
      rw [hcons, List.length_cons]
      omega

theorem fits_of_length {l : String} (hl : Unbroken l) (h : l.toList.length < 16384) : Fits l := by
  intro part hpart
  rw [lineParts_of_notMem hl, List.mem_singleton] at hpart
  have hlen := byteLen_le l.toList
  rw [hpart]
  exact decide_eq_true (by unfold maxScanTokenSize; omega)

theorem fits_nil : ∀ l ∈ ([] : List String), Fits l := fun _ hl => by cases hl

theorem fits_cons {cs : List Char} {ls : List String} (h : '\n' ∉ cs ∧ cs.length < 16384)
    (hls : ∀ l ∈ ls, Fits l) : ∀ l ∈ String.ofList cs :: ls, Fits l := by
  refine List.forall_mem_cons.mpr ⟨fits_of_length (unbroken_ofList h.1) ?_, hls⟩
  rw [String.toList_ofList]
  exact h.2

/-- A fixed line: one line, without a tag, and short. -/
structure PlainLine (l : String) : Prop where
  unbroken : Unbroken l
  untagged : tagOf l = none
  fits : Fits l

theorem PlainLine.within {l : String} (h : PlainLine l) : Within [] l :=
  within_of_tagOf h.unbroken fun c hc => by
    rw [h.untagged] at hc
    cases hc

theorem plain_lead {lead rest : String} (h : IsLead lead) (hr : Unbroken rest)
    (hlen : (lead ++ rest).toList.length < 16384) : PlainLine (lead ++ rest) :=
  have hunbroken := unbroken_append.mpr ⟨h.unbroken, hr⟩
  ⟨hunbroken, tagOf_append h.plain, fits_of_length hunbroken hlen⟩

/-- A number of 32 bits behind a short text. -/
theorem fits_number {lead : String} (h : Unbroken lead) (hlen : lead.toList.length ≤ 100) {n : Nat}
    (hn : n < 2 ^ 32) : Fits (lead ++ decimal n) := by
  have hdigits : (decimal n).toList.length ≤ 10 := by
    rw [decimal, Nat.toString_eq_repr, Nat.toList_repr]
    exact (Nat.length_toDigits_le_iff (by decide) (by decide)).mpr (by omega)
  refine fits_of_length (unbroken_append.mpr ⟨h, unbroken_decimal n⟩) ?_
  rw [String.toList_append, List.length_append]
  omega

theorem plain_number {lead : String} (h : IsLead lead) (hlen : lead.toList.length ≤ 100) {n : Nat}
    (hn : n < 2 ^ 32) : PlainLine (lead ++ decimal n) :=
  ⟨unbroken_append.mpr ⟨h.unbroken, unbroken_decimal n⟩, tagOf_append h.plain,
    fits_number h.unbroken hlen hn⟩

theorem plain_nil : ∀ l ∈ ([] : List String), PlainLine l := fun _ hl => by cases hl

theorem plain_cons {cs : List Char} {ls : List String}
    (h : '\n' ∉ cs ∧ tag (trimList isSpace cs) = none ∧ cs.length < 16384)
    (hls : ∀ l ∈ ls, PlainLine l) : ∀ l ∈ String.ofList cs :: ls, PlainLine l := by
  refine List.forall_mem_cons.mpr ⟨⟨unbroken_ofList h.1, ?_, ?_⟩, hls⟩
  · unfold tagOf
    rw [trimSpace_toList, String.toList_ofList]
    exact h.2.1
  · exact fits_cons ⟨h.1, h.2.2⟩ fits_nil _ List.mem_cons_self

/-! ### The sections of the file -/

def runLines : List String :=
  ["runmode: workers", "mpm-algo: auto", "spm-algo: auto", "", "vars:", "  address-groups:"]

def externalLines : List String := ["    EXTERNAL_NET: \"!$HOME_NET\"", ""]

/-- Run mode and networks. -/
def settingLines (ids : IDsIR) (opts : Suricata.Options) : List String :=
  runLines ++ ["    HOME_NET: \"[" ++ (join (ids.homeNets.map Prefix.string) "," ++ "]\"")] ++
  externalLines ++ ["default-log-dir: " ++ opts.logDir]

/-- The capture size. -/
def sizeLines : Option NetworkIR → List String
  | some net => if 0 < net.maxMTU then
      ["default-packet-size: " ++ decimal ((net.maxMTU + 18) % 2 ^ 32)] else []
  | none => []

def outputLines : List String :=
  ["", "stats:", "  enabled: no", "", "outputs:", "  - eve-log:", "      enabled: yes",
    "      filetype: regular", "      filename: eve.json", "      types:", "        - alert",
    "        - http", "        - dns", "        - tls", "        - flow", ""]

def pathLines (opts : Suricata.Options) : List String :=
  ["default-rule-path: " ++ opts.rulesDir,
    "classification-file: " ++ joinPath [opts.rulesDir, ClassificationFileName],
    "reference-config-file: " ++ joinPath [opts.rulesDir, ReferenceFileName]]

/-- The generated blocks. -/
def blockLines (ir : IR) (ids : IDsIR) (opts : Suricata.Options) : List String :=
  (if ids.exceptions.isEmpty then []
    else ["threshold-file: " ++ joinPath [opts.rulesDir, ThresholdFileName], ""] ++
      thresholdBlock ids.exceptions) ++
  (if (appIDRuleControls ir).isEmpty then [] else appIDRulesBlock (appIDRuleControls ir)) ++
  (if ir.securityProfileRules.isEmpty then []
    else securityProfileRulesBlock ir.securityProfileRules)

def protocolLines : List String :=
  ["app-layer:", "  protocols:", "    http:", "      enabled: yes", "    tls:",
    "      enabled: yes", "    dns:", "      tcp:", "        enabled: yes", "      udp:",
    "        enabled: yes", "    ssh:", "      enabled: yes", "", "logging:",
    "  default-log-level: notice", "  outputs:", "    - console:", "        enabled: yes"]

theorem idsLines_eq (ir : IR) (ids : IDsIR) (opts : Suricata.Options) :
    idsLines ir ids opts = headLines ids ++ settingLines ids opts ++ sizeLines ir.network ++
      outputLines ++ captureLines ids ++ pathLines opts ++ ruleFileLines ir ids ++
      blockLines ir ids opts ++ protocolLines := by
  unfold idsLines settingLines runLines externalLines sizeLines outputLines pathLines blockLines
    protocolLines
  rw [String.append_assoc]
  cases ir.network <;> simp only [List.append_assoc] <;> rfl

/-- The generated rule files. -/
def generatedFileLines (ir : IR) : List String :=
  (if (appIDRuleControls ir).isEmpty then [] else ["  - " ++ AppIDRuleFileName]) ++
  (if ir.securityProfileRules.isEmpty then [] else ["  - " ++ SecurityProfileRuleFileName])

theorem ruleFileLines_eq (ir : IR) (ids : IDsIR) : ruleFileLines ir ids =
    ["rule-files:"] ++ (ids.ruleFiles.map fun rf => "  - " ++ rf) ++ generatedFileLines ir ++ [""] := by
  unfold ruleFileLines generatedFileLines
  rw [← List.append_assoc]

theorem plain_generatedFileLines (ir : IR) : ∀ l ∈ generatedFileLines ir, PlainLine l := by
  have hlead : IsLead "  - " := isLead_ofList (by decide)
  unfold generatedFileLines
  rw [List.forall_mem_append]
  refine ⟨fun l hl => ?_, fun l hl => ?_⟩
  · split at hl
    · cases hl
    · rw [List.mem_singleton.mp hl]
      exact plain_lead hlead (unbroken_ofList (by decide)) (by decide)
  · split at hl
    · cases hl
    · rw [List.mem_singleton.mp hl]
      exact plain_lead hlead (unbroken_ofList (by decide)) (by decide)

theorem plain_runLines : ∀ l ∈ runLines, PlainLine l := by
  unfold runLines
  repeat refine plain_cons (by decide) ?_
  exact plain_nil

theorem plain_externalLines : ∀ l ∈ externalLines, PlainLine l :=
  plain_cons (by decide) (plain_cons (by decide) plain_nil)

theorem plain_outputLines : ∀ l ∈ outputLines, PlainLine l := by
  unfold outputLines
  repeat refine plain_cons (by decide) ?_
  exact plain_nil

theorem plain_protocolLines : ∀ l ∈ protocolLines, PlainLine l := by
  unfold protocolLines
  repeat refine plain_cons (by decide) ?_
  exact plain_nil

theorem plain_empty : ∀ l ∈ [""], PlainLine l := plain_cons (by decide) plain_nil

theorem plain_sizeLines (net : Option NetworkIR) : ∀ l ∈ sizeLines net, PlainLine l := by
  unfold sizeLines
  intro l hl
  split at hl
  · split at hl
    · rw [List.mem_singleton.mp hl]
      exact plain_number (isLead_ofList (by decide)) (by decide) (Nat.mod_lt _ (by decide))
    · cases hl
  · cases hl

/-- The capture section of inline inspection. -/
theorem plain_inline (failOpen : Bool) : ∀ l ∈ ["nfq:", "  mode: accept",
    "  fail-open: " ++ (if failOpen then "yes" else "no"), ""], PlainLine l := by
  have hlead : IsLead "  fail-open: " := isLead_ofList (by decide)
  refine plain_cons (by decide) (plain_cons (by decide) ?_)
  refine List.forall_mem_cons.mpr ⟨?_, plain_empty⟩
  cases failOpen with
  | true => exact plain_lead hlead (unbroken_ofList (by decide)) (by decide)
  | false => exact plain_lead hlead (unbroken_ofList (by decide)) (by decide)

theorem within_homeNets (ids : IDsIR) :
    Within [] ("    HOME_NET: \"[" ++ (join (ids.homeNets.map Prefix.string) "," ++ "]\"")) := by
  refine within_of_lead (isLead_ofList (by decide))
    (unbroken_append.mpr ⟨?_, unbroken_ofList (by decide)⟩)
  refine unbroken_join (unbroken_ofList (by decide)) fun t ht => ?_
  obtain ⟨pfx, -, rfl⟩ := List.mem_map.mp ht
  exact unbroken_prefixText pfx

theorem within_logDir {opts : Suricata.Options} (h : Unbroken opts.logDir) :
    Within [] ("default-log-dir: " ++ opts.logDir) :=
  within_of_lead (isLead_ofList (by decide)) h

/-- Paths below the rules directory. -/
theorem unbroken_rulesPath {opts : Suricata.Options} (h : Unbroken opts.rulesDir) {name : String}
    (hname : Unbroken name) : Unbroken (joinPath [opts.rulesDir, name]) := by
  refine unbroken_joinPath (List.forall_mem_cons.mpr ⟨h, ?_⟩)
  rwa [List.forall_mem_singleton]

theorem within_pathLines {opts : Suricata.Options} (h : Unbroken opts.rulesDir) :
    ∀ l ∈ pathLines opts, Within [] l := by
  unfold pathLines
  simp only [List.forall_mem_cons, List.not_mem_nil, false_implies, implies_true, and_true]
  refine ⟨?_, ?_, ?_⟩
  · exact within_of_lead (isLead_ofList (by decide)) h
  · exact within_of_lead (isLead_ofList (by decide))
      (unbroken_rulesPath h (unbroken_ofList (by decide)))
  · exact within_of_lead (isLead_ofList (by decide))
      (unbroken_rulesPath h (unbroken_ofList (by decide)))

theorem within_thresholdFile {opts : Suricata.Options} (h : Unbroken opts.rulesDir) :
    Within [] ("threshold-file: " ++ joinPath [opts.rulesDir, ThresholdFileName]) :=
  within_of_lead (isLead_ofList (by decide)) (unbroken_rulesPath h (unbroken_ofList (by decide)))

section Reading

variable {σ : Type} {step : σ → String → σ}

/-- Read what is read where these lines were written. -/
def readLines (step : σ → String → σ) (s : σ) (ls : List String) : σ :=
  (ls.flatMap physical).foldl step s

theorem readLines_nil (s : σ) : readLines step s [] = s := rfl

theorem readLines_append (s : σ) (ls ms : List String) :
    readLines step s (ls ++ ms) = readLines step (readLines step s ls) ms := by
  unfold readLines
  rw [List.flatMap_append, List.foldl_append]

theorem readLines_cons (s : σ) (l : String) (ls : List String) :
    readLines step s (l :: ls) = readLines step ((physical l).foldl step s) ls := by
  unfold readLines
  rw [List.flatMap_cons, List.foldl_append]

theorem foldl_skip {lines : List String} (h : ∀ line ∈ lines, ∀ s, step s line = s) (s : σ) :
    lines.foldl step s = s := by
  induction lines with
  | nil => rfl
  | cons line lines ih =>
      rw [List.foldl_cons, h line List.mem_cons_self]
      exact ih fun line' hmem => h line' (List.mem_cons_of_mem _ hmem)

/-- Lines a reader does not react to are skipped. -/
theorem readLines_skip {ls : List String} (h : ∀ l ∈ ls, ∀ line ∈ physical l, ∀ s, step s line = s)
    (s : σ) : readLines step s ls = s := by
  refine foldl_skip (fun line hline s => ?_) s
  obtain ⟨l, hl, hmem⟩ := List.mem_flatMap.mp hline
  exact h l hl line hmem s

/-- The lines that follow a line end inside a name. -/
def smuggled (name : String) : List String := (lineParts name).tail.map scanned

/-- All of them, in the order of the file. -/
def smuggledLines (ids : IDsIR) : List String :=
  (if ids.prevent then [] else ids.interfaces.flatMap smuggled) ++ ids.ruleFiles.flatMap smuggled

variable (hstep : ∀ line, tagOf line = none → ∀ s, step s line = s)
include hstep

theorem readLines_untagged {ls : List String} (h : ∀ l ∈ ls, Within [] l) (s : σ) :
    readLines step s ls = s := by
  refine readLines_skip (fun l hl line hline s => hstep line ?_ s) s
  cases ht : tagOf line with
  | none => rfl
  | some c => cases h l hl line hline c ht

/-- Behind a plain lead, only what a name smuggles in is read. -/
theorem foldl_physical_lead {lead : String} (hlead : IsLead lead) (name : String) (s : σ) :
    (physical (lead ++ name)).foldl step s = (smuggled name).foldl step s := by
  obtain ⟨part, parts, hname, hparts⟩ := lineParts_append (l := name) hlead.unbroken
  have hfirst : tagOf (scanned (lead.toList ++ part)) = none := by
    have htag := @tagOf_append lead (String.ofList part) hlead.plain
    rw [← tagOf_scanned, String.toList_append, String.toList_ofList] at htag
    exact htag
  unfold physical smuggled
  rw [hparts, hname, List.map_cons, List.foldl_cons, hstep _ hfirst, List.tail_cons]

theorem readLines_lead {lead : String} (hlead : IsLead lead) (names : List String) (s : σ) :
    readLines step s (names.map fun name => lead ++ name) =
      (names.flatMap smuggled).foldl step s := by
  induction names generalizing s with
  | nil => rfl
  | cons name names ih =>
      rw [List.map_cons, readLines_cons, foldl_physical_lead hstep hlead, ih,
        List.flatMap_cons, List.foldl_append]

theorem readLines_interfaces (ifaces : List String) : ∀ (n : Nat) (s : σ),
    readLines step s ((ifaces.zipIdx n).flatMap fun (ifc, i) =>
      ["  - interface: " ++ ifc, "    cluster-id: " ++ decimal (90 + i),
        "    cluster-type: cluster_flow", "    defrag: yes"]) =
      (ifaces.flatMap smuggled).foldl step s := by
  induction ifaces with
  | nil => intro n s; rfl
  | cons ifc ifaces ih =>
      intro n s
      have hrest : ∀ l ∈ ["    cluster-id: " ++ decimal (90 + n), "    cluster-type: cluster_flow",
          "    defrag: yes"], Within [] l := by
        refine List.forall_mem_cons.mpr ⟨?_, ?_⟩
        · exact within_of_lead (isLead_ofList (by decide)) (unbroken_decimal _)
        · refine fun l hl => PlainLine.within ?_
          revert l
          exact plain_cons (by decide) (plain_cons (by decide) plain_nil)
      rw [List.zipIdx_cons, List.flatMap_cons, readLines_append, readLines_cons,
        foldl_physical_lead hstep (isLead_ofList (by decide)), readLines_untagged hstep hrest, ih,
        List.flatMap_cons, List.foldl_append]

/-- Of the capture section, what interface names smuggle in is read. -/
theorem readLines_capture (ids : IDsIR) (s : σ) : readLines step s (captureLines ids) =
    (if ids.prevent then [] else ids.interfaces.flatMap smuggled).foldl step s := by
  unfold captureLines
  cases ids.prevent with
  | true =>
      exact readLines_untagged hstep (fun l hl => (plain_inline ids.failOpen l hl).within) s
  | false =>
      have hhead : ∀ l ∈ ["af-packet:"], Within [] l :=
        fun l hl => (plain_cons (by decide) plain_nil l hl).within
      have hend : ∀ l ∈ [""], Within [] l := fun l hl => (plain_empty l hl).within
      simp only [Bool.false_eq_true, if_false]
      rw [readLines_append, readLines_append, readLines_untagged hstep hhead,
        readLines_interfaces hstep, readLines_untagged hstep hend]

/-- Of the rule files, what their names smuggle in is read. -/
theorem readLines_ruleFiles (ir : IR) (ids : IDsIR) (s : σ) :
    readLines step s (ruleFileLines ir ids) = (ids.ruleFiles.flatMap smuggled).foldl step s := by
  have hhead : ∀ l ∈ ["rule-files:"], Within [] l :=
    fun l hl => (plain_cons (by decide) plain_nil l hl).within
  have hend : ∀ l ∈ [""], Within [] l := fun l hl => (plain_empty l hl).within
  have hgenerated : ∀ l ∈ generatedFileLines ir, Within [] l :=
    fun l hl => (plain_generatedFileLines ir l hl).within
  rw [ruleFileLines_eq, readLines_append, readLines_append, readLines_append,
    readLines_untagged hstep hhead, readLines_lead hstep (isLead_ofList (by decide)),
    readLines_untagged hstep hgenerated, readLines_untagged hstep hend]

/-- **What is read of the file**: the head, the smuggled lines, the generated blocks. -/
theorem readLines_idsLines {opts : Suricata.Options} (hlog : Unbroken opts.logDir)
    (hrules : Unbroken opts.rulesDir) (ir : IR) (ids : IDsIR) (s : σ) :
    readLines step s (idsLines ir ids opts) =
      readLines step ((smuggledLines ids).foldl step (readLines step s (headLines ids)))
        (blockLines ir ids opts) := by
  have hsettings : ∀ l ∈ settingLines ids opts, Within [] l := by
    unfold settingLines
    simp only [List.forall_mem_append, List.forall_mem_singleton]
    exact ⟨⟨⟨fun l hl => (plain_runLines l hl).within, within_homeNets ids⟩,
      fun l hl => (plain_externalLines l hl).within⟩, within_logDir hlog⟩
  have hsize : ∀ l ∈ sizeLines ir.network, Within [] l :=
    fun l hl => (plain_sizeLines _ l hl).within
  have hpaths := within_pathLines hrules
  have houtputs : ∀ l ∈ outputLines, Within [] l := fun l hl => (plain_outputLines l hl).within
  have hprotocols : ∀ l ∈ protocolLines, Within [] l :=
    fun l hl => (plain_protocolLines l hl).within
  rw [idsLines_eq]
  simp only [readLines_append]
  rw [readLines_untagged hstep hsettings, readLines_untagged hstep hsize,
    readLines_untagged hstep houtputs, readLines_capture hstep, readLines_untagged hstep hpaths,
    readLines_ruleFiles hstep, readLines_untagged hstep hprotocols, ← List.foldl_append]
  rfl

end Reading

/-! ### The head

The markers are written once, at the start, and no plain line changes what they say. -/

/-- What the head of the file says. -/
def renderedMode (ids : IDsIR) : SuricataMode :=
  if ids.prevent then
    ⟨ModePrevent, decimal ids.queueNum, (if ids.queueCount < 1 then 1 else ids.queueCount : Nat)⟩
  else { mode := ModeDetect }

theorem scanned_eq {l : String} (h : l.toList.getLast? ≠ some '\r') : scanned l.toList = l := by
  rw [scanned, dropCR, if_neg h, String.ofList_toList]

/-- A text behind one literal does not start with another. -/
theorem cutPrefix_mismatch {a b : List Char} (h : ¬ a <+: b ∧ ¬ b <+: a) (rest : String) :
    cutPrefix (String.ofList b ++ rest) (String.ofList a) = none := by
  refine cutPrefix_eq_none fun hp => ?_
  rw [String.toList_append, String.toList_ofList, String.toList_ofList] at hp
  rcases List.prefix_or_prefix_of_prefix hp (List.prefix_append b rest.toList) with hle | hle
  · exact h.1 hle
  · exact h.2 hle

/-- A marker followed by a number is read as one line. -/
theorem physical_number {lead : String} (h : Unbroken lead) (n : Nat) :
    physical (lead ++ decimal n) = [lead ++ decimal n] := by
  rw [physical_of_unbroken (unbroken_append.mpr ⟨h, unbroken_decimal n⟩), scanned_eq]
  intro hlast
  cases getLast?_append_word (isWord_decimal n) _ hlast

theorem trimSpace_decimal (n : Nat) : trimSpace (decimal n) = decimal n :=
  trimSpace_eq_self (spaceless_decimal n)

theorem parseModeLine_mode_marker (m : SuricataMode) {v : String} (hv : trimSpace v = v) :
    parseModeLine m (ModeMarker ++ v) = { m with mode := v } := by
  have hqueue : cutPrefix (ModeMarker ++ v) "# openngfw-queue: " = none :=
    cutPrefix_mismatch (by decide) v
  have hcount : cutPrefix (ModeMarker ++ v) "# openngfw-queue-count: " = none :=
    cutPrefix_mismatch (by decide) v
  have hmode : cutPrefix (ModeMarker ++ v) "# openngfw-mode: " = some v := cutPrefix_append _ _
  simp only [parseModeLine, hqueue, hcount, hmode, hv]

theorem parseModeLine_queue (m : SuricataMode) (n : Nat) :
    parseModeLine m ("# openngfw-queue: " ++ decimal n) = { m with queueNum := decimal n } := by
  have hmode : cutPrefix ("# openngfw-queue: " ++ decimal n) "# openngfw-mode: " = none :=
    cutPrefix_mismatch (by decide) _
  have hcount : cutPrefix ("# openngfw-queue: " ++ decimal n) "# openngfw-queue-count: " = none :=
    cutPrefix_mismatch (by decide) _
  simp only [parseModeLine, hmode, hcount, cutPrefix_append, trimSpace_decimal]

theorem parseModeLine_count (m : SuricataMode) {n : Nat} (hpos : 0 < n) (hn : n < 2 ^ 63) :
    parseModeLine m ("# openngfw-queue-count: " ++ decimal n) = { m with queueCount := n } := by
  have hmode : cutPrefix ("# openngfw-queue-count: " ++ decimal n) "# openngfw-mode: " = none :=
    cutPrefix_mismatch (by decide) _
  have hqueue : cutPrefix ("# openngfw-queue-count: " ++ decimal n) "# openngfw-queue: " = none :=
    cutPrefix_mismatch (by decide) _
  have hpos : (0 : Int) < n := by omega
  simp only [parseModeLine, hmode, hqueue, cutPrefix_append, trimSpace_decimal, atoi_decimal hn,
    hpos, if_true]

/-- The lines of the head that are no markers. -/
theorem plain_headStart : ∀ l ∈ ["%YAML 1.1", "---"], PlainLine l :=
  plain_cons (by decide) (plain_cons (by decide) plain_nil)

theorem plain_headEnd :
    ∀ l ∈ ["# Generated by OpenNGFW controld. Do not edit; overwritten on every commit.", ""],
      PlainLine l :=
  plain_cons (by decide) plain_empty

theorem readMode_plain {ls : List String} (h : ∀ l ∈ ls, PlainLine l) (m : SuricataMode) :
    readLines parseModeLine m ls = m :=
  readLines_skip (fun l hl => parseModeLine_of_within (by simp) (by simp) (h l hl).within) m

/-- The mode marker is read as one line. -/
theorem physical_mode {v : String} (hv : IsWord v) : physical (ModeMarker ++ v) = [ModeMarker ++ v] := by
  have hmarker : Unbroken ModeMarker := unbroken_ofList (by decide)
  rw [physical_of_unbroken (unbroken_append.mpr ⟨hmarker, notMem_lineEnd hv⟩), scanned_eq]
  intro hlast
  cases getLast?_append_word hv _ hlast

/-- **The head is read as it was written.** -/
theorem readLines_head {ids : IDsIR} (h : ids.prevent = true → ids.queueCount < 2 ^ 63) :
    readLines parseModeLine {} (headLines ids) = renderedMode ids := by
  have hmode : ∀ v, IsWord v → readLines parseModeLine {} (["%YAML 1.1", "---"] ++ [ModeMarker ++ v]) =
      { mode := v } := by
    intro v hv
    rw [readLines_append, readMode_plain plain_headStart, readLines_cons, readLines_nil,
      physical_mode hv, List.foldl_cons, List.foldl_nil,
      parseModeLine_mode_marker _ (trimSpace_eq_self hv.2)]
  unfold headLines renderedMode
  cases hprevent : ids.prevent with
  | false =>
      have hstart := hmode ModeDetect (by decide)
      simp only [Bool.false_eq_true, if_false, List.append_nil]
      rw [readLines_append, readMode_plain plain_headEnd]
      exact hstart
  | true =>
      have hstart := hmode ModePrevent (by decide)
      have hcount := h hprevent
      simp only [if_true]
      rw [readLines_append, readLines_append, readMode_plain plain_headEnd]
      refine (congrArg (fun m => readLines parseModeLine m _) hstart).trans ?_
      rw [readLines_cons, physical_number (unbroken_ofList (by decide)), readLines_cons,
        physical_number (unbroken_ofList (by decide)), readLines_nil, List.foldl_cons,
        List.foldl_nil, List.foldl_cons, List.foldl_nil, parseModeLine_queue,
        parseModeLine_count _ (by split <;> omega) (by split <;> omega)]

/-! ### The blocks

Outside of its markers a block's reader waits, inside it collects. -/

/-- A text that is read back from behind a marker. -/
structure IsValue (v : String) : Prop where
  unbroken : Unbroken v
  ne_empty : v ≠ ""
  head : ∀ c, v.toList.head? = some c → isSpace c = false
  last : ∀ c, v.toList.getLast? = some c → isSpace c = false

theorem IsValue.trimmed {v : String} (h : IsValue v) : trimSpace v = v := by
  rw [← String.toList_inj, trimSpace_toList]
  exact trimList_eq_self_of_ends h.head h.last

section Block

variable {k : Block} {c : Char} (hk : k.Tagged c)
include hk

omit hk in
theorem head_of_tagged {l : List Char} (h : marker ++ [c] <+: l) (rest : List Char) :
    ∀ d, (l ++ rest).head? = some d → isSpace d = false := by
  obtain ⟨tail, rfl⟩ := h
  intro d hd
  cases hd
  decide

/-- A line of a block is read as it is. -/
theorem trimSpace_lead {v : String} (hv : IsValue v) : trimSpace (k.lead ++ v) = k.lead ++ v := by
  have hne : v.toList ≠ [] := by simpa using hv.ne_empty
  rw [← String.toList_inj, trimSpace_toList, String.toList_append]
  refine trimList_eq_self_of_ends (head_of_tagged hk.lead _) fun d hd => ?_
  rw [List.getLast?_append_of_ne_nil _ hne] at hd
  exact hv.last d hd

/-- Inside the block a line is taken over. -/
theorem generatedBlockLine_value {v : String} (hv : IsValue v) {s : BlockState}
    (hs : s.inBlock = true) :
    generatedBlockLine k s (scanned (k.lead ++ v).toList) = { s with out := s.out ++ [v] } := by
  have htrim : trimSpace (scanned (k.lead ++ v).toList) = k.lead ++ v := by
    rw [trimSpace_scanned]
    exact trimSpace_lead hk hv
  have hnot : ∀ m : String, ¬ k.lead.toList <+: m.toList → k.lead ++ v ≠ m := by
    rintro m hm rfl
    rw [String.toList_append] at hm
    exact hm (List.prefix_append _ _)
  unfold generatedBlockLine
  simp only [htrim, hnot _ hk.lead_opening, hnot _ hk.lead_closing, hs, cutPrefix_append,
    hv.trimmed, if_true, if_false]

omit hk in
theorem generatedBlockLine_opening (htrim : trimSpace k.opening = k.opening) (s : BlockState) :
    generatedBlockLine k s k.opening = { s with inBlock := true, found := true } := by
  unfold generatedBlockLine
  simp only [htrim, if_true]

theorem generatedBlockLine_closing (htrim : trimSpace k.closing = k.closing) (s : BlockState) :
    generatedBlockLine k s k.closing = { s with inBlock := false } := by
  unfold generatedBlockLine
  simp only [htrim, hk.distinct, if_true, if_false]

theorem generatedBlockLine_untagged (line : String) (h : tagOf line = none) (s : BlockState) :
    generatedBlockLine k s line = s :=
  generatedBlockLine_of_tag hk (by simp [h]) s

variable {α : Type} {xs : List α} {before : α → List String} {value : α → String}

/-- The lines of a block are read in order, whatever stands between them. -/
theorem readLines_values (hbefore : ∀ x ∈ xs, ∀ l ∈ before x, Within [] l)
    (hvalue : ∀ x ∈ xs, IsValue (value x)) (hlead : Unbroken k.lead) {s : BlockState}
    (hs : s.inBlock = true) :
    readLines (generatedBlockLine k) s (xs.flatMap fun x => before x ++ [k.lead ++ value x]) =
      { s with out := s.out ++ xs.map value } := by
  induction xs generalizing s with
  | nil => simp [readLines]
  | cons x xs ih =>
      have hx := hvalue x List.mem_cons_self
      have hone : readLines (generatedBlockLine k) s (before x ++ [k.lead ++ value x]) =
          { s with out := s.out ++ [value x] } := by
        rw [readLines_append, readLines_untagged (generatedBlockLine_untagged hk)
          (hbefore x List.mem_cons_self), readLines_cons, readLines_nil,
          physical_of_unbroken (unbroken_append.mpr ⟨hlead, hx.unbroken⟩), List.foldl_cons,
          List.foldl_nil, generatedBlockLine_value hk hx hs]
      rw [List.flatMap_cons, readLines_append, hone,
        ih (fun y hy => hbefore y (List.mem_cons_of_mem _ hy))
          (fun y hy => hvalue y (List.mem_cons_of_mem _ hy))
          (s := { s with out := s.out ++ [value x] }) hs, List.map_cons, List.append_assoc,
        List.singleton_append]

end Block

/-- A marker alone on its line. -/
theorem marked_ofList {cs : List Char}
    (h : '\n' ∉ cs ∧ cs.getLast? ≠ some '\r' ∧ trimList isSpace cs = cs) :
    physical (String.ofList cs) = [String.ofList cs] ∧
      trimSpace (String.ofList cs) = String.ofList cs := by
  constructor
  · rw [physical_of_unbroken (unbroken_ofList h.1), scanned_eq]
    rw [String.toList_ofList]
    exact h.2.1
  · rw [trimSpace, String.toList_ofList, h.2.2]

/-- The writer of a generated block: comments, the opening, the lines, the closing. -/
def writtenBlock {α : Type} (k : Block) (comments : List String) (before : α → List String)
    (value : α → String) (xs : List α) : List String :=
  comments ++ [k.opening] ++ (xs.flatMap fun x => before x ++ [k.lead ++ value x]) ++
    [k.closing, ""]

/-- What the renderer vouches for about a block it writes. -/
structure BlockOK {α : Type} (k : Block) (c : Char) (comments : List String)
    (before : α → List String) (value : α → String) (xs : List α) : Prop where
  tagged : k.Tagged c
  opening : physical k.opening = [k.opening] ∧ trimSpace k.opening = k.opening
  closing : physical k.closing = [k.closing] ∧ trimSpace k.closing = k.closing
  lead : Unbroken k.lead
  comments : ∀ l ∈ comments, Within [] l
  before : ∀ x ∈ xs, ∀ l ∈ before x, Within [] l
  values : ∀ x ∈ xs, IsValue (value x)

/-- **A written block is read back.** -/
theorem readLines_writtenBlock {α : Type} {k : Block} {c : Char} {comments : List String}
    {before : α → List String} {value : α → String} {xs : List α}
    (h : BlockOK k c comments before value xs) (s : BlockState) :
    readLines (generatedBlockLine k) s (writtenBlock k comments before value xs) =
      ⟨s.out ++ xs.map value, false, true⟩ := by
  have hempty : physical "" = [""] := by decide
  have hskip : generatedBlockLine k ⟨s.out ++ xs.map value, false, true⟩ "" =
      ⟨s.out ++ xs.map value, false, true⟩ :=
    generatedBlockLine_untagged h.tagged "" (by decide) _
  have hopen : readLines (generatedBlockLine k) s (comments ++ [k.opening]) =
      { s with inBlock := true, found := true } := by
    rw [readLines_append, readLines_untagged (generatedBlockLine_untagged h.tagged) h.comments,
      readLines_cons, readLines_nil, h.opening.1, List.foldl_cons, List.foldl_nil,
      generatedBlockLine_opening h.opening.2]
  have hvalues := readLines_values h.tagged h.before h.values h.lead
    (s := { s with inBlock := true, found := true }) rfl
  unfold writtenBlock
  rw [readLines_append, readLines_append, hopen, hvalues, readLines_cons, readLines_cons,
    readLines_nil, h.closing.1, hempty, List.foldl_cons, List.foldl_nil, List.foldl_cons,
    List.foldl_nil, generatedBlockLine_closing h.tagged h.closing.2, hskip]

/-- A block holds only lines of its own tag. -/
theorem within_writtenBlock {α : Type} {k : Block} {c : Char} {comments : List String}
    {before : α → List String} {value : α → String} {xs : List α}
    (h : BlockOK k c comments before value xs) (hc : isSpace c = false) :
    ∀ l ∈ writtenBlock k comments before value xs, Within [c] l := by
  have hmarked : ∀ l : String, marker ++ [c] <+: l.toList → Unbroken l → Within [c] l := by
    intro l hl hu
    refine within_of_tagOf hu fun d hd => ?_
    rw [tagOf_of_lead hc hl] at hd
    cases hd
    exact List.mem_singleton_self _
  have hplain : ∀ l, physical l = [l] → marker ++ [c] <+: l.toList → Within [c] l := by
    intro l hphysical hl line hline d hd
    rw [hphysical, List.mem_singleton] at hline
    rw [hline, tagOf_of_lead hc hl] at hd
    cases hd
    exact List.mem_singleton_self _
  have huntagged : ∀ l, Within [] l → Within [c] l := fun l hl => hl.mono (by simp)
  intro l hl
  simp only [writtenBlock, List.mem_append, List.mem_flatMap, List.mem_cons, List.not_mem_nil,
    or_false] at hl
  rcases hl with ((hl | rfl) | ⟨x, hx, hl | rfl⟩) | rfl | rfl
  · exact huntagged l (h.comments l hl)
  · exact hplain _ h.opening.1 h.tagged.opening
  · exact huntagged l (h.before x hx l hl)
  · refine hmarked _ ?_ (unbroken_append.mpr ⟨h.lead, (h.values x hx).unbroken⟩)
    rw [String.toList_append]
    exact h.tagged.lead.trans (List.prefix_append _ _)
  · exact hplain _ h.closing.1 h.tagged.closing
  · exact huntagged _ (plain_empty _ (List.mem_singleton_self _)).within

/-! ### The three blocks -/

theorem ne_empty_of_head {l : String} {c : Char} (h : l.toList.head? = some c) : l ≠ "" := by
  rintro rfl
  cases h

theorem isSpace_head {l : String} {c : Char} (h : l.toList.head? = some c)
    (hc : isSpace c = false) : ∀ d, l.toList.head? = some d → isSpace d = false := by
  intro d hd
  rw [h] at hd
  cases hd
  exact hc

theorem last_append {a b : String} {d : Char} (hlast : b.toList.getLast? = some d)
    (hd : isSpace d = false) :
    ∀ c, (a ++ b).toList.getLast? = some c → isSpace c = false := by
  have hne : b.toList ≠ [] := by
    intro hnil
    rw [hnil] at hlast
    cases hlast
  intro c hc
  rw [String.toList_append, List.getLast?_append_of_ne_nil _ hne, hlast, Option.some.injEq] at hc
  exact hc ▸ hd

theorem isWord_toString_int (n : Int) : IsWord (toString n) := by
  cases n with
  | ofNat n => exact isWord_decimal n
  | negSucc n =>
      show IsWord ("-" ++ decimal (n + 1))
      exact isWord_append (by decide) (isWord_decimal _)

/-- A suppression ends in a number, an address or the text for a missing one. -/
theorem isValue_suppressLine {ex : IDSExceptionIR} (h : Unbroken ex.track) :
    IsValue (suppressLine ex) := by
  have hhead : (suppressLine ex).toList.head? = some 's' := head_append (head_append (by decide))
  refine ⟨unbroken_suppressLine h, ne_empty_of_head hhead, isSpace_head hhead (by decide), ?_⟩
  unfold suppressLine
  split
  · rw [String.append_empty]
    exact getLast?_append_word (isWord_toString_int _)
  · rw [← String.append_assoc]
    cases ex.address with
    | none => exact last_append (d := 'x') (by decide) (by decide)
    | some p => exact getLast?_append_word (isWord_prefixText p)

theorem isValue_appIDControlRule {control : AppIDControlIR} (h : Unbroken control.engineSignal) :
    IsValue (appIDControlRule control) := by
  have haction : ∃ c, isSpace c = false ∧
      (if control.action = .allow then "pass" else "drop").toList.head? = some c := by
    split
    · exact ⟨'p', by decide, by decide⟩
    · exact ⟨'d', by decide, by decide⟩
  obtain ⟨c, hc, haction⟩ := haction
  have hhead : (appIDControlRule control).toList.head? = some c := by
    unfold appIDControlRule
    iterate 17 refine head_append ?_
    exact haction
  refine ⟨unbroken_appIDControlRule h, ne_empty_of_head hhead, isSpace_head hhead hc, ?_⟩
  exact last_append (d := ')') (by decide) (by decide)

theorem isValue_securityProfileRule {rule : SecurityProfileRuleIR} (h : Unbroken rule.protocol) :
    IsValue (securityProfileRule rule) := by
  have hhead : (securityProfileRule rule).toList.head? = some 'a' := by
    unfold securityProfileRule
    iterate 8 refine head_append ?_
    decide
  refine ⟨unbroken_securityProfileRule h, ne_empty_of_head hhead,
    isSpace_head hhead (by decide), ?_⟩
  exact last_append (d := ')') (by decide) (by decide)

theorem thresholdBlock_eq (exceptions : List IDSExceptionIR) :
    thresholdBlock exceptions = writtenBlock thresholdMarkers
      ["# Generated IDS false-positive controls. The engine writes",
        "# this block to the threshold-file path before validation/apply."]
      (fun ex => ["# ids_exception=" ++ (ex.name ++ exceptionFields ex)]) suppressLine
      exceptions := by
  have hlines : exceptions.flatMap exceptionLines = exceptions.flatMap fun ex =>
      ["# ids_exception=" ++ (ex.name ++ exceptionFields ex)] ++
        [thresholdMarkers.lead ++ suppressLine ex] :=
    List.flatMap_congr fun ex _ => exceptionLines_eq ex
  unfold thresholdBlock writtenBlock
  rw [hlines]
  rfl

theorem appIDRulesBlock_eq (controls : List AppIDControlIR) :
    appIDRulesBlock controls = writtenBlock appIDMarkers
      ["# Generated App-ID allow/drop controls. The engine writes this",
        "# block to the managed App-ID rule file before validation/apply."]
      (fun _ => []) appIDControlRule controls := by
  unfold appIDRulesBlock writtenBlock
  rw [← List.flatMap_pure_eq_map]
  rfl

theorem securityProfileRulesBlock_eq (rules : List SecurityProfileRuleIR) :
    securityProfileRulesBlock rules = writtenBlock securityProfileMarkers
      ["# Generated security-profile inspection controls. The engine writes",
        "# this block to the managed security-profile rule file before validation/apply."]
      (fun _ => []) securityProfileRule rules := by
  unfold securityProfileRulesBlock writtenBlock
  rw [← List.flatMap_pure_eq_map]
  rfl

section Blocks

variable {ir : IR} {ids : IDsIR} (hir : UnbrokenIR ir ids)
include hir

theorem thresholdBlock_ok : BlockOK thresholdMarkers 't'
    ["# Generated IDS false-positive controls. The engine writes",
      "# this block to the threshold-file path before validation/apply."]
    (fun ex : IDSExceptionIR => ["# ids_exception=" ++ (ex.name ++ exceptionFields ex)])
    suppressLine ids.exceptions where
  tagged := threshold_tagged
  opening := marked_ofList (by decide)
  closing := marked_ofList (by decide)
  lead := unbroken_ofList (by decide)
  comments := fun l hl => (plain_cons (by decide) (plain_cons (by decide) plain_nil) l hl).within
  before := by
    intro ex hex l hl
    rw [List.mem_singleton.mp hl]
    refine within_of_lead (isLead_ofList (by decide)) (unbroken_append.mpr ⟨?_, ?_⟩)
    · exact (hir.exceptions ex hex).1
    · exact unbroken_exceptionFields ex
  values := fun ex hex => isValue_suppressLine (hir.exceptions ex hex).2

theorem appIDRulesBlock_ok : BlockOK appIDMarkers 'a'
    ["# Generated App-ID allow/drop controls. The engine writes this",
      "# block to the managed App-ID rule file before validation/apply."]
    (fun _ => []) appIDControlRule (appIDRuleControls ir) where
  tagged := appID_tagged
  opening := marked_ofList (by decide)
  closing := marked_ofList (by decide)
  lead := unbroken_ofList (by decide)
  comments := fun l hl => (plain_cons (by decide) (plain_cons (by decide) plain_nil) l hl).within
  before := fun _ _ l hl => by cases hl
  values := fun control hcontrol => isValue_appIDControlRule (hir.controls control hcontrol)

theorem securityProfileRulesBlock_ok : BlockOK securityProfileMarkers 's'
    ["# Generated security-profile inspection controls. The engine writes",
      "# this block to the managed security-profile rule file before validation/apply."]
    (fun _ => []) securityProfileRule ir.securityProfileRules where
  tagged := securityProfile_tagged
  opening := marked_ofList (by decide)
  closing := marked_ofList (by decide)
  lead := unbroken_ofList (by decide)
  comments := fun l hl => (plain_cons (by decide) (plain_cons (by decide) plain_nil) l hl).within
  before := fun _ _ l hl => by cases hl
  values := fun rule hrule => isValue_securityProfileRule (hir.profileRules rule hrule)

variable {opts : Suricata.Options} (hrules : Unbroken opts.rulesDir)

omit hir in
/-- A block reader skips the lines of other tags. -/
theorem readLines_within {k : Block} {c : Char} (hk : k.Tagged c) {ts : List Char}
    {ls : List String} (h : ∀ l ∈ ls, Within ts l) (hc : c ∉ ts) (s : BlockState) :
    readLines (generatedBlockLine k) s ls = s :=
  readLines_skip (fun l hl line hline s =>
    generatedBlockLine_of_tag hk (fun ht => hc (h l hl line hline c ht)) s) s

include hrules in
theorem within_thresholdLines : ∀ l ∈ (if ids.exceptions.isEmpty then []
    else ["threshold-file: " ++ joinPath [opts.rulesDir, ThresholdFileName], ""] ++
      thresholdBlock ids.exceptions), Within ['t'] l := by
  intro l hl
  split at hl
  · cases hl
  · rcases List.mem_append.mp hl with hl | hl
    · have hfile := List.forall_mem_cons.mpr
        ⟨within_thresholdFile hrules, fun l hl => (plain_empty l hl).within⟩
      exact (hfile l hl).mono (by simp)
    · rw [thresholdBlock_eq] at hl
      exact within_writtenBlock (thresholdBlock_ok hir) (by decide) l hl

theorem within_appIDLines : ∀ l ∈ (if (appIDRuleControls ir).isEmpty then []
    else appIDRulesBlock (appIDRuleControls ir)), Within ['a'] l := by
  intro l hl
  split at hl
  · cases hl
  · rw [appIDRulesBlock_eq] at hl
    exact within_writtenBlock (appIDRulesBlock_ok hir) (by decide) l hl

theorem within_securityProfileLines : ∀ l ∈ (if ir.securityProfileRules.isEmpty then []
    else securityProfileRulesBlock ir.securityProfileRules), Within ['s'] l := by
  intro l hl
  split at hl
  · cases hl
  · rw [securityProfileRulesBlock_eq] at hl
    exact within_writtenBlock (securityProfileRulesBlock_ok hir) (by decide) l hl

include hrules in
/-- The mode reader skips the blocks. -/
theorem readMode_blockLines (m : SuricataMode) :
    readLines parseModeLine m (blockLines ir ids opts) = m := by
  have hwithin : ∀ l ∈ blockLines ir ids opts, Within ['t', 'a', 's'] l := by
    intro l hl
    simp only [blockLines, List.mem_append] at hl
    rcases hl with (hl | hl) | hl
    · exact (within_thresholdLines hir hrules l (by simpa using hl)).mono (by simp)
    · exact (within_appIDLines hir l hl).mono (by simp)
    · exact (within_securityProfileLines hir l hl).mono (by simp)
  exact readLines_skip (fun l hl => parseModeLine_of_within (by decide) (by decide)
    (hwithin l hl)) m

/-- What a written block makes of the state of its reader. -/
def closeBlock (s : BlockState) (values : List String) : BlockState :=
  if values.isEmpty then s else ⟨s.out ++ values, false, true⟩

include hrules in
theorem readThreshold_blockLines (s : BlockState) :
    readLines (generatedBlockLine thresholdMarkers) s (blockLines ir ids opts) =
      closeBlock s (ids.exceptions.map suppressLine) := by
  unfold blockLines closeBlock
  rw [readLines_append, readLines_append,
    readLines_within threshold_tagged (within_appIDLines hir) (by decide),
    readLines_within threshold_tagged (within_securityProfileLines hir) (by decide),
    List.isEmpty_map]
  split
  · rfl
  · have hfile := List.forall_mem_cons.mpr
      ⟨within_thresholdFile hrules, fun l hl => (plain_empty l hl).within⟩
    rw [readLines_append, readLines_within threshold_tagged hfile (by simp),
      thresholdBlock_eq, readLines_writtenBlock (thresholdBlock_ok hir)]

include hrules in
theorem readAppID_blockLines (s : BlockState) :
    readLines (generatedBlockLine appIDMarkers) s (blockLines ir ids opts) =
      closeBlock s ((appIDRuleControls ir).map appIDControlRule) := by
  unfold blockLines closeBlock
  rw [readLines_append, readLines_append,
    readLines_within appID_tagged (within_thresholdLines hir hrules) (by decide),
    readLines_within appID_tagged (within_securityProfileLines hir) (by decide),
    List.isEmpty_map]
  split
  · rfl
  · rw [appIDRulesBlock_eq, readLines_writtenBlock (appIDRulesBlock_ok hir)]

include hrules in
theorem readSecurityProfile_blockLines (s : BlockState) :
    readLines (generatedBlockLine securityProfileMarkers) s (blockLines ir ids opts) =
      closeBlock s (ir.securityProfileRules.map securityProfileRule) := by
  unfold blockLines closeBlock
  rw [readLines_append, readLines_append,
    readLines_within securityProfile_tagged (within_thresholdLines hir hrules) (by decide),
    readLines_within securityProfile_tagged (within_appIDLines hir) (by decide),
    List.isEmpty_map]
  split
  · rfl
  · rw [securityProfileRulesBlock_eq, readLines_writtenBlock (securityProfileRulesBlock_ok hir)]

end Blocks

end Phragma.Engines.Suricata
