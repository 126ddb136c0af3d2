import Mathlib.Data.List.DropRight
import Mathlib.Data.List.Nodup
import Phragma.Policy.ValidateTelemetry
import Phragma.Renderers.Plain
import Phragma.Renderers.Unbroken

/-!
# Phragma.Renderers.Sinks

**The sinks of Vector's configuration**, read back from what is written under `sinks:`.

A sink is a key and an indented body. The key of an export is its name with `-` replaced, and the
name is written with the white space that the validator ignores. So every export has a sink of its
own exactly when no name brings a line break along and the replaced names differ
(`exported_iff`).
-/

namespace Phragma.Renderers.Vector

open Lib Go Policy Compiler Suricata

/-! ### Reading sinks

YAML is read as far as the section goes: keys at one depth, and below each its body. Of two equal
keys a reader keeps one or refuses both, so what counts is that they differ. -/

/-- A character that YAML takes as part of an unquoted key: printable in one line, and no
indicator of a value or a comment. -/
def plainChar (c : Char) : Bool :=
  let n := c.toNat
  n == 9 || (0x20 ≤ n && n ≤ 0x7e && n != 0x3a && n != 0x23) || n == 0x85 ||
    (0xa0 ≤ n && n ≤ 0xfffd && n != 0xfeff) || 0x10000 ≤ n

/-- A space or a tab. -/
def isBlank (c : Char) : Bool := c == ' ' || c == '\t'

/-- An unquoted key. -/
def plainKey (key : List Char) : Bool := key.head?.any Char.isAlphanum && key.all plainChar

/-- The key of a line that opens a sink. Blanks before the colon are not part of it. -/
def sinkKey : List Char → Option (List Char)
  | ' ' :: ' ' :: rest =>
      let key := rest.dropLast.rdropWhile isBlank
      if rest.getLast? = some ':' ∧ plainKey key then some key else none
  | _ => none

/-- A line of a sink's body. -/
def indented (line : List Char) : Bool := hasPrefixList line "    ".toList

/-- What has been read of the lines below: the lines of a body that has no key yet, and sinks. -/
abbrev SinkState := List (List Char) × List (List Char × List (List Char))

/-- Read one more line, from below. -/
def readSinkLine (line : List Char) (s : SinkState) : Option SinkState :=
  if indented line then some (line :: s.1, s.2)
  else (sinkKey line).map fun key => ([], (key, s.1) :: s.2)

/-- The sinks of a section, each with its body. -/
def readSinks (lines : List (List Char)) : Option (List (List Char × List (List Char))) :=
  (lines.foldr (fun line s => s.bind (readSinkLine line)) (some ([], []))).bind fun s =>
    if s.1 = [] then some s.2 else none

/-- The value of a field in a body. -/
def bodyField (body : List (List Char)) (field : String) : Option String :=
  body.findSome? fun line => cutPrefix (String.ofList line) ("    " ++ field ++ ": ")

/-- Does the body of a sink send to the target of an export, in the way of its type? -/
def Carries (body : List (List Char)) (e : TelemetryExport) : Prop :=
  match e.type with
  | .jsonFile => bodyField body "type" = some "file" ∧ bodyField body "path" = some (quote e.target)
  | .jsonTcp => bodyField body "type" = some "socket" ∧
      bodyField body "address" = some (quote e.target) ∧ bodyField body "mode" = some "tcp"
  | .jsonUdp => bodyField body "type" = some "socket" ∧
      bodyField body "address" = some (quote e.target) ∧ bodyField body "mode" = some "udp"
  | .unspecified | .unrecognized _ => False

/-- **Every export has a sink**: the section holds the two sinks of the event store and one for
each export, under different keys. -/
def Exported (text : String) (exports : List TelemetryExport) : Prop :=
  ∃ sinks, readSinks (textParts text) = some sinks ∧ sinks.length = 2 + exports.length ∧
    (sinks.map Prod.fst).Nodup ∧ List.Forall₂ (fun s e => Carries s.2 e) (sinks.drop 2) exports

/-! ### What is written -/

/-- The lines before the sinks. -/
def headerLines (opts : Options) : List String :=
  [ModeMarker ++ ModeEnabled, generatedBy, "", "data_dir: " ++ opts.dataDir, "",
    "sources:", "  suricata_eve:", "    type: file",
    "    include: [" ++ quote opts.evePath ++ "]", "",
    "transforms:", "  eve_parsed:", "    type: remap", "    inputs: [suricata_eve]",
    "    source: |", "      . = parse_json!(.message)", "      .ingested_at = now()",
    "  eve_alerts:", "    type: filter", "    inputs: [eve_parsed]",
    "    condition: .event_type == \"alert\"", "", "sinks:"]

/-- The text of an export's key. -/
def exportKeyText (e : TelemetryExport) : String := "event_export_" ++ underscored e.name

/-- The lines of an export's body. -/
def exportBody (e : TelemetryExport) : List String :=
  (exportSink ⟨e.name, exportTypeString e.type, e.target⟩).tail

/-- The keys and the bodies written for a telemetry section. -/
def sinkBlocks (tel : TelemetryIR) (exports : List TelemetryExport) : List (String × List String) :=
  ("clickhouse_events", (clickhouseSink tel "clickhouse_events" "eve_parsed" "events").tail) ::
  ("clickhouse_alerts", (clickhouseSink tel "clickhouse_alerts" "eve_alerts" "alerts").tail) ::
  exports.map fun e => (exportKeyText e, exportBody e)

/-- The lines of one sink. -/
def blockLines (b : String × List String) : List String := ("  " ++ b.1 ++ ":") :: b.2

theorem exportSink_eq {e : TelemetryExport} (h : UsableExport e) :
    exportSink ⟨e.name, exportTypeString e.type, e.target⟩ =
      blockLines (exportKeyText e, exportBody e) := by
  have hkey : "  event_export_" ++ underscored e.name ++ ":" = "  " ++ exportKeyText e ++ ":" := by
    rw [exportKeyText, ← String.append_assoc]
    rfl
  unfold blockLines exportBody exportSink
  rw [← hkey]
  rcases h.type with ht | ht | ht <;> simp [ht, exportTypeString]

/-- **What stands under `sinks:`.** -/
theorem Render_eq {ir : IR} {tel : TelemetryIR} {exports : List TelemetryExport} (opts : Options)
    (h : ir.telemetry = some tel) (hexports : ∀ e ∈ exports, UsableExport e)
    (htel : tel.exports = exports.map fun e => ⟨e.name, exportTypeString e.type, e.target⟩) :
    Render ir opts = unlines (headerLines opts) ++
      unlines ((sinkBlocks tel exports).flatMap blockLines) := by
  have hsinks : tel.exports.flatMap exportSink =
      exports.flatMap fun e => blockLines (exportKeyText e, exportBody e) := by
    rw [htel, List.flatMap_map]
    exact List.flatMap_congr fun e he => exportSink_eq (hexports e he)
  unfold Render
  rw [h, ← unlines_append]
  dsimp only
  rw [hsinks]
  simp [headerLines, sinkBlocks, blockLines, clickhouseSink, List.flatMap_map]

/-! ### What is read

Reading is a fold from the end: a body is collected until its key is met. -/

theorem readSinks_eq_none {lines : List (List Char)} {line : List Char} (h : line ∈ lines)
    (hbody : indented line = false) (hkey : sinkKey line = none) : readSinks lines = none := by
  have hfold : lines.foldr (fun line s => s.bind (readSinkLine line)) (some ([], [])) = none := by
    obtain ⟨before, after, rfl⟩ := List.append_of_mem h
    rw [List.foldr_append, List.foldr_cons]
    have hline : ∀ s, readSinkLine line s = none := by
      intro s
      simp [readSinkLine, hbody, hkey]
    have hnone : ∀ l : List (List Char),
        l.foldr (fun line s => s.bind (readSinkLine line)) none = none := by
      intro l
      induction l with
      | nil => rfl
      | cons a l ih => rw [List.foldr_cons, ih, Option.bind_none]
    cases after.foldr (fun line s => s.bind (readSinkLine line)) (some ([], [])) with
    | none => exact hnone before
    | some s => rw [Option.bind_some, hline, hnone]
  unfold readSinks
  rw [hfold, Option.bind_none]

/-- A line with a key is indented by two, not by four. -/
theorem indented_of_sinkKey {line key : List Char} (h : sinkKey line = some key) :
    indented line = false := by
  unfold sinkKey at h
  split at h
  · next rest =>
      dsimp only at h
      split at h
      · next hkey =>
          obtain ⟨-, hkey⟩ := hkey
          rw [Bool.eq_false_iff]
          intro hind
          obtain ⟨tail, htail⟩ := List.isPrefixOf_iff_prefix.mp hind
          obtain ⟨rest, rfl⟩ : ∃ r, rest = ' ' :: ' ' :: r := by
            simp at htail
            exact ⟨tail, htail.symm⟩
          -- the key would begin with the third space
          have hpre := List.rdropWhile_prefix isBlank (l := (' ' :: ' ' :: rest).dropLast)
          rw [List.dropLast_cons_cons] at hpre hkey
          cases hk : (' ' :: (' ' :: rest).dropLast).rdropWhile isBlank with
          | nil => simp [hk, plainKey] at hkey
          | cons x xs =>
              rw [hk, List.cons_prefix_cons] at hpre
              simp [hk, hpre.1, plainKey] at hkey
      · cases h
  · cases h

/-- **Blocks of a key and indented lines are read back.** -/
theorem readSinks_blocks {blocks : List (List Char × List Char × List (List Char))}
    (hkey : ∀ b ∈ blocks, sinkKey b.1 = some b.2.1)
    (hbody : ∀ b ∈ blocks, ∀ l ∈ b.2.2, indented l = true) :
    readSinks (blocks.flatMap fun b => b.1 :: b.2.2) = some (blocks.map Prod.snd) := by
  have hlines : ∀ (body : List (List Char)) (sinks : List (List Char × List (List Char))),
      (∀ l ∈ body, indented l = true) →
      body.foldr (fun line s => s.bind (readSinkLine line)) (some ([], sinks)) =
        some (body, sinks) := by
    intro body sinks hall
    induction body with
    | nil => rfl
    | cons l body ih =>
        rw [List.foldr_cons, ih fun m hm => hall m (List.mem_cons_of_mem _ hm), Option.bind_some,
          readSinkLine, hall l List.mem_cons_self]
        rfl
  have hfold : (blocks.flatMap fun b => b.1 :: b.2.2).foldr
      (fun line s => s.bind (readSinkLine line)) (some ([], [])) =
        some ([], blocks.map Prod.snd) := by
    induction blocks with
    | nil => rfl
    | cons b blocks ih =>
        have hb := hkey b List.mem_cons_self
        have hnot : indented b.1 = false := indented_of_sinkKey hb
        rw [List.flatMap_cons, List.foldr_append, ih
          (fun c hc => hkey c (List.mem_cons_of_mem _ hc))
          (fun c hc => hbody c (List.mem_cons_of_mem _ hc)), List.foldr_cons,
          hlines _ _ (hbody b List.mem_cons_self), Option.bind_some, readSinkLine, hnot, hb]
        rfl
  unfold readSinks
  rw [hfold]
  rfl

/-! ### Names that bring a line break along

The validator trims a name before it looks at it, and the renderer writes it untrimmed. -/

/-- The white space that ends a line, or that YAML does not print. -/
def isBreak (c : Char) : Bool := 10 ≤ c.toNat && c.toNat ≤ 13

/-- Every character of a usable name is white space around it, or a letter, a digit, `-` or
`_`. -/
theorem nameChar_cases {e : TelemetryExport} (h : UsableExport e) :
    ∀ c ∈ e.name.toList, isSpace c = true ∨ isNameChar c = true := by
  intro c hc
  cases hspace : isSpace c with
  | true => exact .inl rfl
  | false =>
      refine .inr (isNameChar_of_nameRE h.name c ?_)
      rw [trimSpace_toList]
      exact mem_trimList hc hspace

/-- What white space and names are made of is plain, line breaks apart. -/
theorem plainChar_of_name {c : Char} (h : isSpace c = true ∨ isNameChar c = true)
    (hbreak : isBreak c = false) : plainChar (if c = '-' then '_' else c) = true := by
  split
  · decide
  simp only [isBreak, Bool.and_eq_false_iff, decide_eq_false_iff_not] at hbreak
  have hrange : c.toNat = 9 ∨ (0x20 ≤ c.toNat ∧ c.toNat ≤ 0x7e ∧ c.toNat ≠ 0x3a ∧ c.toNat ≠ 0x23) ∨
      c.toNat = 0x85 ∨ (0xa0 ≤ c.toNat ∧ c.toNat ≤ 0xfffd ∧ c.toNat ≠ 0xfeff) := by
    rcases h with h | h
    · simp only [isSpace, Bool.or_eq_true, Bool.and_eq_true, decide_eq_true_eq, beq_iff_eq] at h
      omega
    · have hne : ∀ d : Char, isNameChar d = false → c.toNat ≠ d.toNat := by
        intro d hd heq
        rw [Char.toNat_inj.mp heq, hd] at h
        cases h
      have hcolon : c.toNat ≠ 0x3a := hne ':' (by decide)
      have hhash : c.toNat ≠ 0x23 := hne '#' (by decide)
      have hrange := isRuleIDChar_range (isRuleIDChar_of_isNameChar h)
      omega
  simp only [plainChar, Bool.or_eq_true, Bool.and_eq_true, decide_eq_true_eq, beq_iff_eq, bne_iff_ne]
  omega

/-! ### The lines of an accepted section

An accepted name has no space inside, so its key is one line unless a break is at its ends. -/

theorem rdropWhile_append {a b : List Char} (ha : a.rdropWhile isBlank = a) :
    (a ++ b).rdropWhile isBlank = a ++ b.rdropWhile isBlank := by
  induction b using List.reverseRecOn with
  | nil => rw [List.append_nil, ha, List.rdropWhile_nil, List.append_nil]
  | append_singleton b c ih =>
      rw [← List.append_assoc, List.rdropWhile_concat, List.rdropWhile_concat, ih]
      split
      · rfl
      · rw [List.append_assoc]

/-- What the key of an export begins with. -/
def exportLead : List Char := ['e', 'v', 'e', 'n', 't', '_', 'e', 'x', 'p', 'o', 'r', 't', '_']

/-- The replaced name. -/
def underscoredName (e : TelemetryExport) : List Char :=
  e.name.toList.map fun c => if c = '-' then '_' else c

/-- The key of an export without its lead: the replaced name, without the blanks behind. -/
def exportKey (e : TelemetryExport) : List Char := (underscoredName e).rdropWhile isBlank

theorem toList_exportLine (e : TelemetryExport) :
    ("  " ++ exportKeyText e ++ ":").toList =
      ' ' :: ' ' :: (exportLead ++ underscoredName e ++ [':']) := by
  simp [exportKeyText, exportLead, underscoredName, underscored]

theorem indented_exportLine (rest : List Char) :
    indented (' ' :: ' ' :: (exportLead ++ rest)) = false := rfl

/-- The key line of an export whose name brings no line break along. -/
theorem sinkKey_export {e : TelemetryExport} (h : UsableExport e)
    (hbreak : ∀ c ∈ e.name.toList, isBreak c = false) :
    sinkKey ("  " ++ exportKeyText e ++ ":").toList = some (exportLead ++ exportKey e) := by
  have hkey : (exportLead ++ underscoredName e).rdropWhile isBlank = exportLead ++ exportKey e :=
    rdropWhile_append (by decide)
  have hplain : plainKey (exportLead ++ exportKey e) = true := by
    have hlead : (exportLead ++ exportKey e).head? = some 'e' := rfl
    have hleadPlain : exportLead.all plainChar = true := by decide
    unfold plainKey
    rw [hlead, List.all_append, hleadPlain, Bool.true_and, Bool.and_eq_true]
    refine ⟨by decide, List.all_eq_true.mpr fun c hc => ?_⟩
    obtain ⟨d, hd, rfl⟩ := List.mem_map.mp ((List.rdropWhile_prefix isBlank _).mem hc)
    exact plainChar_of_name (nameChar_cases h d hd) (hbreak d hd)
  rw [toList_exportLine, sinkKey, List.dropLast_concat, hkey, List.getLast?_concat]
  exact if_pos ⟨rfl, hplain⟩

/-- A name that brings a line break along gives a line that is no part of a mapping. -/
theorem unread_of_break {e : TelemetryExport} (h : UsableExport e) {c : Char}
    (hc : c ∈ e.name.toList) (hbreak : isBreak c = true) :
    ∃ line ∈ lineParts ("  " ++ exportKeyText e ++ ":"), indented line = false ∧
      sinkKey line = none := by
  have hrange : 10 ≤ c.toNat ∧ c.toNat ≤ 13 := by simpa [isBreak] using hbreak
  have hmem : c ∈ underscoredName e := by
    refine List.mem_map.mpr ⟨c, hc, if_neg ?_⟩
    rintro rfl
    exact absurd hrange (by decide)
  unfold lineParts
  rw [toList_exportLine]
  by_cases hnl : '\n' ∈ underscoredName e
  · -- the first line ends before the colon
    obtain ⟨before, after, hsplit, hno⟩ := List.eq_append_cons_of_mem hnl
    have hcolon : ':' ∉ exportLead ++ before := by
      rw [List.mem_append, not_or]
      refine ⟨by decide, fun hmem => ?_⟩
      have hname : ':' ∈ underscoredName e := by
        rw [hsplit]
        exact List.mem_append_left _ hmem
      obtain ⟨d, hd, heq⟩ := List.mem_map.mp hname
      split at heq
      · cases heq
      · subst heq
        exact absurd (nameChar_cases h _ hd) (by decide)
    have hfirst : '\n' ∉ ' ' :: ' ' :: (exportLead ++ before) := by
      simp [hno, exportLead]
    have hlines : ' ' :: ' ' :: (exportLead ++ underscoredName e ++ [':']) =
        (' ' :: ' ' :: (exportLead ++ before)) ++ '\n' :: (after ++ [':']) := by
      simp [hsplit]
    refine ⟨' ' :: ' ' :: (exportLead ++ before), ?_, indented_exportLine before, ?_⟩
    · rw [hlines, splitOn_append, splitOn_of_notMem hfirst]
      exact List.mem_append_left _ (List.mem_singleton_self _)
    · exact if_neg fun hkey => hcolon (List.mem_of_getLast? hkey.1)
  · -- the key is not plain
    have hwhole : '\n' ∉ ' ' :: ' ' :: (exportLead ++ underscoredName e ++ [':']) := by
      simp [hnl, exportLead]
    refine ⟨_, by rw [splitOn_of_notMem hwhole]; exact List.mem_singleton_self _, ?_, ?_⟩
    · rw [List.append_assoc]
      exact indented_exportLine _
    · have hkey : (exportLead ++ underscoredName e).rdropWhile isBlank = exportLead ++ exportKey e :=
        rdropWhile_append (by decide)
      rw [sinkKey, List.dropLast_concat, hkey]
      refine if_neg fun hread => ?_
      have hplain := hread.2
      rw [plainKey, Bool.and_eq_true, List.all_eq_true] at hplain
      have hin : c ∈ exportKey e := by
        refine List.mem_reverse.mpr (mem_dropWhile_of_not (List.mem_reverse.mpr hmem) ?_)
        have hne : ∀ d : Char, (d.toNat < 10 ∨ 13 < d.toNat) → c ≠ d := by
          rintro d hd rfl
          omega
        simp [isBlank, hne]
      have hchar := hplain.2 c (List.mem_append_right _ hin)
      simp [plainChar] at hchar
      omega

/-! ### The bodies

The lines of a body are indented, whatever the target is, since it is quoted. -/

/-- A line of a body as it is written: one line, indented. -/
def BodyLine (l : String) : Prop := Unbroken l ∧ indented l.toList = true

theorem bodyLine_append {lead l : String} (hlead : BodyLine lead) (h : Unbroken l) :
    BodyLine (lead ++ l) := by
  refine ⟨unbroken_append.mpr ⟨hlead.1, h⟩, ?_⟩
  rw [String.toList_append]
  exact List.isPrefixOf_iff_prefix.mpr
    ((List.isPrefixOf_iff_prefix.mp hlead.2).trans (List.prefix_append _ _))

theorem bodyLines_clickhouseSink {tel : TelemetryIR} (hurl : Unbroken tel.clickHouseURL)
    (hdb : Unbroken tel.database) {name input table : String} (hinput : Unbroken input)
    (htable : Unbroken table) : ∀ l ∈ (clickhouseSink tel name input table).tail, BodyLine l := by
  have hlit : ∀ l ∈ ["    type: clickhouse", "    inputs: [", "    endpoint: ", "    database: ",
      "    table: ", "    skip_unknown_fields: true"], BodyLine l := by
    unfold BodyLine
    decide
  simp only [List.forall_mem_cons, List.not_mem_nil, false_implies, implies_true, and_true] at hlit
  obtain ⟨htype, hinputs, hendpoint, hdatabase, htables, hskip⟩ := hlit
  simp only [clickhouseSink, List.tail_cons, List.forall_mem_cons, List.not_mem_nil, false_implies,
    implies_true, and_true]
  exact ⟨htype, bodyLine_append (bodyLine_append hinputs hinput) (by decide),
    bodyLine_append hendpoint hurl, bodyLine_append hdatabase hdb, bodyLine_append htables htable,
    hskip⟩

/-- The body of an export, by its type. -/
theorem exportBody_cases {e : TelemetryExport} (h : UsableExport e) :
    (e.type = .jsonFile ∧ exportBody e = ["    type: file", "    inputs: [eve_parsed]",
      "    path: " ++ quote e.target, "    encoding:", "      codec: json"]) ∨
    (e.type = .jsonTcp ∧ exportBody e = ["    type: socket", "    inputs: [eve_parsed]",
      "    address: " ++ quote e.target, "    mode: tcp", "    framing:",
      "      method: newline_delimited", "    encoding:", "      codec: json"]) ∨
    (e.type = .jsonUdp ∧ exportBody e = ["    type: socket", "    inputs: [eve_parsed]",
      "    address: " ++ quote e.target, "    mode: udp", "    encoding:", "      codec: json"]) := by
  rcases h.type with ht | ht | ht <;> simp [exportBody, exportSink, exportTypeString, ht]

theorem bodyLines_exportBody {e : TelemetryExport} (h : UsableExport e) :
    ∀ l ∈ exportBody e, BodyLine l := by
  have hlit : ∀ l ∈ ["    type: file", "    type: socket", "    inputs: [eve_parsed]", "    path: ",
      "    address: ", "    mode: tcp", "    mode: udp", "    framing:",
      "      method: newline_delimited", "    encoding:", "      codec: json"], BodyLine l := by
    unfold BodyLine
    decide
  have hquoted : ∀ lead ∈ ["    path: ", "    address: "], BodyLine (lead ++ quote e.target) :=
    fun lead hlead => bodyLine_append (hlit lead (by revert lead; decide)) (unbroken_quote e.target)
  intro l hl
  by_cases hplain : l = "    path: " ++ quote e.target ∨ l = "    address: " ++ quote e.target
  · rcases hplain with rfl | rfl
    · exact hquoted _ (by decide)
    · exact hquoted _ (by decide)
  · refine hlit l ?_
    rcases exportBody_cases h with ⟨-, hbody⟩ | ⟨-, hbody⟩ | ⟨-, hbody⟩ <;>
      · rw [hbody] at hl
        simp only [List.mem_cons, List.not_mem_nil, or_false] at hl hplain ⊢
        grind

theorem carries_exportBody {e : TelemetryExport} (h : UsableExport e) :
    Carries ((exportBody e).map String.toList) e := by
  have hskip : ∀ {line field : String} (lines : List (List Char)),
      cutPrefix line ("    " ++ field ++ ": ") = none →
      bodyField (line.toList :: lines) field = bodyField lines field := by
    intro line field lines hnone
    rw [bodyField, List.findSome?_cons, String.ofList_toList, hnone]
    rfl
  have hhit : ∀ {line field value : String} (lines : List (List Char)),
      line = "    " ++ field ++ ": " ++ value →
      bodyField (line.toList :: lines) field = some value := by
    rintro line field value lines rfl
    rw [bodyField, List.findSome?_cons, String.ofList_toList, cutPrefix_append]
  have haddress : cutPrefix ("    address: " ++ quote e.target) ("    " ++ "mode" ++ ": ") = none :=
    cutPrefix_eq_none (by simp)
  unfold Carries
  rcases exportBody_cases h with ⟨ht, hbody⟩ | ⟨ht, hbody⟩ | ⟨ht, hbody⟩
  · rw [ht, hbody]
    refine ⟨hhit _ (by decide), ?_⟩
    rw [List.map_cons, hskip _ (by decide), List.map_cons, hskip _ (by decide)]
    exact hhit _ rfl
  all_goals
    rw [ht, hbody]
    refine ⟨hhit _ (by decide), ?_, ?_⟩
    · rw [List.map_cons, hskip _ (by decide), List.map_cons, hskip _ (by decide)]
      exact hhit _ rfl
    · rw [List.map_cons, hskip _ (by decide), List.map_cons, hskip _ (by decide), List.map_cons,
        hskip _ haddress]
      exact hhit _ (by decide)

/-! ### The section -/

/-- **When every export keeps a sink of its own.** -/
structure ExportsApart (exports : List TelemetryExport) : Prop where
  unbroken : ∀ e ∈ exports, ∀ c ∈ e.name.toList, isBreak c = false
  distinct : (exports.map exportKey).Nodup

section Section

variable {tel : TelemetryIR} {exports : List TelemetryExport}
  (hurl : Unbroken tel.clickHouseURL) (hdb : Unbroken tel.database)
  (husable : ∀ e ∈ exports, UsableExport e)
include hurl hdb husable

theorem bodyLines_sinkBlocks : ∀ b ∈ sinkBlocks tel exports, ∀ l ∈ b.2, BodyLine l := by
  unfold sinkBlocks
  simp only [List.forall_mem_cons, List.forall_mem_map]
  exact ⟨bodyLines_clickhouseSink hurl hdb (by decide) (by decide),
    bodyLines_clickhouseSink hurl hdb (by decide) (by decide),
    fun e he => bodyLines_exportBody (husable e he)⟩

omit hurl hdb husable in
theorem toList_exportKeyText (e : TelemetryExport) :
    (exportKeyText e).toList.rdropWhile isBlank = exportLead ++ exportKey e := by
  have htext : (exportKeyText e).toList = exportLead ++ underscoredName e := by
    simp [exportKeyText, exportLead, underscoredName, underscored]
  rw [htext]
  exact rdropWhile_append (by decide)

omit hurl hdb in
theorem keyLines_sinkBlocks
    (hbreak : ∀ e ∈ exports, ∀ c ∈ e.name.toList, isBreak c = false) :
    ∀ b ∈ sinkBlocks tel exports, Unbroken ("  " ++ b.1 ++ ":") ∧
      sinkKey ("  " ++ b.1 ++ ":").toList = some (b.1.toList.rdropWhile isBlank) := by
  unfold sinkBlocks
  simp only [List.forall_mem_cons, List.forall_mem_map]
  refine ⟨by decide, by decide, fun e he => ⟨?_, ?_⟩⟩
  · have hname : '\n' ∉ underscoredName e := by
      intro hmem
      obtain ⟨c, hc, heq⟩ := List.mem_map.mp hmem
      split at heq
      · cases heq
      · subst heq
        exact absurd (hbreak e he _ hc) (by decide)
    unfold Unbroken
    rw [toList_exportLine]
    simp [hname, exportLead]
  · rw [sinkKey_export (husable e he) (hbreak e he), toList_exportKeyText]

/-- Without line breaks in names, the section is read back. -/
theorem readSinks_sinkBlocks
    (hbreak : ∀ e ∈ exports, ∀ c ∈ e.name.toList, isBreak c = false) :
    readSinks (textParts (unlines ((sinkBlocks tel exports).flatMap blockLines))) =
      some ((sinkBlocks tel exports).map fun b =>
        (b.1.toList.rdropWhile isBlank, b.2.map String.toList)) := by
  have hbody := bodyLines_sinkBlocks hurl hdb husable
  have hkey := @keyLines_sinkBlocks tel _ husable hbreak
  let read (b : String × List String) : List Char × List Char × List (List Char) :=
    (("  " ++ b.1 ++ ":").toList, b.1.toList.rdropWhile isBlank, b.2.map String.toList)
  have hlines : ((sinkBlocks tel exports).flatMap blockLines).flatMap lineParts =
      ((sinkBlocks tel exports).map read).flatMap fun b => b.1 :: b.2.2 := by
    rw [List.flatMap_assoc, List.flatMap_map]
    refine List.flatMap_congr fun b hb => ?_
    have hrest : b.2.flatMap lineParts = b.2.map String.toList := by
      rw [← List.flatMap_singleton' (b.2.map String.toList), List.flatMap_map]
      exact List.flatMap_congr fun l hl => lineParts_of_notMem (hbody b hb l hl).1
    rw [blockLines, List.flatMap_cons, lineParts_of_notMem (hkey b hb).1, hrest]
    rfl
  rw [textParts_unlines, hlines, readSinks_blocks, List.map_map]
  · rfl
  · rw [List.forall_mem_map]
    exact fun b hb => (hkey b hb).2
  · rw [List.forall_mem_map]
    intro b hb
    exact List.forall_mem_map.mpr fun l hl => (hbody b hb l hl).2

omit hurl hdb in
/-- A line break in a name: the section is not read. -/
theorem readSinks_of_break {e : TelemetryExport} (he : e ∈ exports) {c : Char}
    (hc : c ∈ e.name.toList) (hbreak : isBreak c = true) :
    readSinks (textParts (unlines ((sinkBlocks tel exports).flatMap blockLines))) = none := by
  obtain ⟨line, hline, hind, hkey⟩ := unread_of_break (husable e he) hc hbreak
  rw [textParts_unlines]
  refine readSinks_eq_none (List.mem_flatMap.mpr ⟨_, List.mem_flatMap.mpr
    ⟨(exportKeyText e, exportBody e), ?_, List.mem_cons_self⟩, hline⟩) hind hkey
  exact List.mem_cons_of_mem _ (List.mem_cons_of_mem _ (List.mem_map_of_mem he))

/-- **Every export has a sink exactly when names bring no line break along and their keys
differ.** -/
theorem exported_iff :
    Exported (unlines ((sinkBlocks tel exports).flatMap blockLines)) exports ↔
      ExportsApart exports := by
  have hread := readSinks_sinkBlocks hurl hdb husable
  have hkeys : (((sinkBlocks tel exports).map fun b =>
      (b.1.toList.rdropWhile isBlank, b.2.map String.toList)).map Prod.fst).Nodup ↔
      (exports.map exportKey).Nodup := by
    have hmap : ((sinkBlocks tel exports).map fun b =>
        (b.1.toList.rdropWhile isBlank, b.2.map String.toList)).map Prod.fst =
        "clickhouse_events".toList :: "clickhouse_alerts".toList ::
          (exports.map exportKey).map (exportLead ++ ·) := by
      have hevents : "clickhouse_events".toList.rdropWhile isBlank = "clickhouse_events".toList := by
        decide
      have halerts : "clickhouse_alerts".toList.rdropWhile isBlank = "clickhouse_alerts".toList := by
        decide
      simp only [sinkBlocks, List.map_cons, List.map_map, hevents, halerts, Function.comp_def,
        toList_exportKeyText]
    -- the two sinks of the firewall itself clash with no export
    have hother : ∀ lead : List Char, lead.head? = some 'c' →
        lead ∉ (exports.map exportKey).map (exportLead ++ ·) := by
      intro lead hlead hmem
      obtain ⟨key, -, rfl⟩ := List.mem_map.mp hmem
      cases hlead
    rw [hmap, List.nodup_cons, List.nodup_cons, List.mem_cons, not_or,
      List.nodup_map_iff (List.append_right_injective exportLead)]
    exact ⟨fun h => h.2.2,
      fun h => ⟨⟨by decide, hother _ (by decide)⟩, hother _ (by decide), h⟩⟩
  constructor
  · rintro ⟨sinks, hsinks, -, hnodup, -⟩
    -- with a broken key the file is not read at all
    have hbreak : ∀ e ∈ exports, ∀ c ∈ e.name.toList, isBreak c = false := by
      intro e he c hc
      rw [Bool.eq_false_iff]
      intro hbreak
      rw [readSinks_of_break husable he hc hbreak] at hsinks
      cases hsinks
    rw [hread hbreak] at hsinks
    cases hsinks
    exact ⟨hbreak, hkeys.mp hnodup⟩
  · rintro ⟨hbreak, hdistinct⟩
    refine ⟨_, hread hbreak, ?_, hkeys.mpr hdistinct, ?_⟩
    · simp [sinkBlocks]
      omega
    · simp only [sinkBlocks, List.map_cons, List.drop_succ_cons, List.drop_zero, List.map_map,
        List.forall₂_map_left_iff, List.forall₂_same]
      exact fun e he => carries_exportBody (husable e he)

end Section

/-! ### Accepted policies -/

theorem unbroken_of_clean {s : String} (h : ∀ c ∈ s.toList, ' ' ≤ c) : Unbroken s :=
  fun hmem => absurd (h _ hmem) (by decide)

theorem unbroken_of_nameRE {s : String} (h : nameRE s.toList = true) : Unbroken s :=
  fun hmem => absurd (isNameChar_of_nameRE h _ hmem) (by decide)

/-- The event store's URL and database stand in one line each. -/
theorem unbroken_of_checkTelemetry {urls : URLParser} {tel : Telemetry} {tir : TelemetryIR}
    (hcheck : checkTelemetry urls tel = []) (h : compileTelemetry tel = some tir) :
    Unbroken tir.clickHouseURL ∧ Unbroken tir.database := by
  unfold compileTelemetry at h
  unfold checkTelemetry at hcheck
  cases henabled : tel.enabled with
  | false => simp [henabled] at h
  | true =>
      simp only [henabled, Bool.not_true, Bool.false_eq_true, if_false, Option.some.injEq,
        List.append_eq_nil_iff] at h hcheck
      obtain ⟨⟨hurl, hdb⟩, -⟩ := hcheck
      subst h
      refine ⟨?_, ?_⟩
      · by_cases hempty : tel.clickhouseUrl = ""
        · simp only [hempty, if_true]
          decide
        · simp only [hempty, if_false]
          cases hparse : urls.parse tel.clickhouseUrl with
          | none => simp [checkClickhouseURL, hempty, hparse] at hurl
          | some u => exact unbroken_of_clean (urls.parse_clean hparse)
      · by_cases hempty : tel.database = ""
        · simp only [hempty, if_true]
          decide
        · simp only [hempty, if_false]
          refine unbroken_of_nameRE ?_
          simpa [errIf, hempty] using hdb

/-- What is written under `sinks:` for an accepted policy. -/
theorem section_of_Compile {H : IdentityHash} {urls : URLParser} {p : Phragma.Policy} {ir : IR}
    (h : Compile H p = .ok ir) (hcheck : checkTelemetry urls p.getTelemetry = [])
    (henabled : p.getTelemetry.enabled = true) (opts : Options) :
    ∃ tel, (Unbroken tel.clickHouseURL ∧ Unbroken tel.database) ∧
      (∀ e ∈ p.getTelemetry.exports.filter TelemetryExport.enabled, UsableExport e) ∧
      Render ir opts = unlines (headerLines opts) ++ unlines ((sinkBlocks tel
        (p.getTelemetry.exports.filter TelemetryExport.enabled)).flatMap blockLines) := by
  obtain ⟨-, c, hC⟩ := Compile_ok h
  have hexports : ir.telemetry = compileTelemetry p.getTelemetry := hC.telemetry
  have husable : ∀ e ∈ p.getTelemetry.exports.filter TelemetryExport.enabled, UsableExport e := by
    have hcollect : (collect checkTelemetryExport [] p.getTelemetry.exports).1 = [] := by
      unfold checkTelemetry at hcheck
      simp only [henabled, Bool.not_true, Bool.false_eq_true, if_false, List.append_eq_nil_iff]
        at hcheck
      exact hcheck.2
    intro e he
    obtain ⟨hmem, hon⟩ := List.mem_filter.mp he
    exact (exports_quiet hcollect).1 e hmem hon
  cases htel : compileTelemetry p.getTelemetry with
  | none => simp [compileTelemetry, henabled] at htel
  | some tel =>
      have hlist : tel.exports = (p.getTelemetry.exports.filter TelemetryExport.enabled).map
          fun e => ⟨e.name, exportTypeString e.type, e.target⟩ := by
        simp only [compileTelemetry, henabled, Bool.not_true, Bool.false_eq_true, if_false,
          Option.some.injEq] at htel
        rw [← htel]
      exact ⟨tel, unbroken_of_checkTelemetry hcheck htel, husable,
        Render_eq opts (hexports.trans htel) husable hlist⟩

/-- **When no export is lost.** Under `sinks:` every enabled export has a sink of its own, exactly
when the names bring no line break along and differ as keys. -/
theorem exports_kept_iff {H : IdentityHash} {urls : URLParser} {p : Phragma.Policy} {ir : IR}
    (h : Compile H p = .ok ir) (hcheck : checkTelemetry urls p.getTelemetry = [])
    (henabled : p.getTelemetry.enabled = true) (opts : Options) :
    ∃ text, Render ir opts = unlines (headerLines opts) ++ text ∧
      (Exported text (p.getTelemetry.exports.filter TelemetryExport.enabled) ↔
        ExportsApart (p.getTelemetry.exports.filter TelemetryExport.enabled)) := by
  obtain ⟨tel, ⟨hurl, hdb⟩, husable, hrender⟩ := section_of_Compile h hcheck henabled opts
  exact ⟨_, hrender, exported_iff hurl hdb husable⟩

/-! ### Two names of one key -/

/-- A policy with exports of the names given, to a collector. -/
def withExports (names : List String) : Phragma.Policy where
  zones := [{ name := "lan", interfaces := ["eth0"] }]
  telemetry := some {
    enabled := true
    exports := names.map fun name =>
      { name, enabled := true, type := .jsonTcp, target := "192.0.2.1:5170" } }

/-- No URL is parsed: the event store is the default one. -/
def noURLs : URLParser where
  parse _ := none
  queryUnescape _ := none
  parse_clean h := by cases h

/-- The paths of an installation. -/
def samplePaths : Options := ⟨"/var/log/suricata/eve.json", "/var/lib/vector"⟩

theorem exports_kept_branch : ∃ ir text, Compile .zero (withExports ["soc", "branch"]) = .ok ir ∧
    Render ir samplePaths = unlines (headerLines samplePaths) ++ text ∧
    (Exported text ((withExports ["soc", "branch"]).getTelemetry.exports.filter
        TelemetryExport.enabled) ↔
      ExportsApart ((withExports ["soc", "branch"]).getTelemetry.exports.filter
        TelemetryExport.enabled)) := by
  have hok : (Compile .zero (withExports ["soc", "branch"])).isOk = true := by decide +kernel
  cases h : Compile .zero (withExports ["soc", "branch"]) with
  | error e => simp [h, Except.isOk, Except.toBool] at hok
  | ok ir =>
      obtain ⟨text, hrender, hiff⟩ := @exports_kept_iff _ noURLs _ _ h (by decide +kernel) rfl samplePaths
      exact ⟨ir, text, rfl, hrender, hiff⟩

/-- Two names that differ in `-` and `_` only are both accepted, and give one key. -/
theorem exports_collide : ∃ ir text, Compile .zero (withExports ["a-b", "a_b"]) = .ok ir ∧
    checkTelemetry noURLs (withExports ["a-b", "a_b"]).getTelemetry = [] ∧
    Render ir samplePaths = unlines (headerLines samplePaths) ++ text ∧
    ¬ Exported text ((withExports ["a-b", "a_b"]).getTelemetry.exports.filter
        TelemetryExport.enabled) := by
  have hok : (Compile .zero (withExports ["a-b", "a_b"])).isOk = true := by decide +kernel
  have hcheck : checkTelemetry noURLs (withExports ["a-b", "a_b"]).getTelemetry = [] := by
    decide +kernel
  cases h : Compile .zero (withExports ["a-b", "a_b"]) with
  | error e => simp [h, Except.isOk, Except.toBool] at hok
  | ok ir =>
      obtain ⟨tel, ⟨hurl, hdb⟩, husable, hrender⟩ := section_of_Compile h hcheck rfl samplePaths
      refine ⟨ir, _, rfl, hcheck, hrender, fun hexported => ?_⟩
      exact absurd ((exported_iff hurl hdb husable).mp hexported).distinct (by decide +kernel)

end Phragma.Renderers.Vector
