import Phragma.Engines.SelfDescribing
import Phragma.Renderers.Prevent

/-!
# Phragma.Engines.Queues

**Inline inspection takes two sides to agree on queue numbers**: the queue statement of the
ruleset names a range of NFQUEUEs, and Suricata is started with one `-q` argument for each
queue it finds in its own artifact.

The ruleset computes the end of the range in 16 bits, the engine counts up in 64, so the two
part company where the range passes the last queue number. The engine reads its numbers back
from text, in which operator texts can smuggle lines (`Phragma.Engines.SelfDescribing`); a line
that is too long only hides the ones behind it.
-/

namespace Phragma.Engines.Suricata

open Lib Go Policy Compiler Renderers Renderers.Suricata Nft

/-! ### Starting Suricata

One process reads all queues, each named by an argument. Where a number cannot be read there are no
arguments, and nothing is started. -/

/-- The queue numbers of the `-q` arguments: consecutive ones, in 64-bit arithmetic. -/
def startQueues (m : SuricataMode) (base : Int) : List Int :=
  (List.range m.queueCount.toNat).map fun i : Nat => (base + (i : Int)).bmod (2 ^ 64)

/-- The arguments `Suricata.Apply` starts the process with. -/
def startArgs (cfgPath : String) (m : SuricataMode) : Except String (List String) :=
  if m.mode = "detect" then .ok ["-c", cfgPath, "--af-packet"]
  else if m.mode = "prevent" then
    match atoi m.queueNum with
    | none => .error ("invalid queue number " ++ quote m.queueNum)
    | some base =>
        .ok (["-c", cfgPath] ++ (startQueues m base).flatMap fun q => ["-q", toString q])
  else .error ("unknown suricata mode " ++ quote m.mode)

/-- The queues Suricata is started with, read back from its artifact. -/
def startedQueues (config : String) : List Int :=
  let m := parseMode config
  if m.mode = "prevent" then (atoi m.queueNum).elim [] (startQueues m) else []

/-- Inline, the arguments name exactly the started queues. -/
theorem startArgs_prevent {cfgPath config : String} {args : List String}
    (h : startArgs cfgPath (parseMode config) = .ok args)
    (hmode : (parseMode config).mode = "prevent") :
    args = ["-c", cfgPath] ++ (startedQueues config).flatMap fun q => ["-q", toString q] := by
  have hne : ¬ (parseMode config).mode = "detect" := by
    rw [hmode]
    decide
  unfold startArgs at h
  rw [if_neg hne, if_pos hmode] at h
  unfold startedQueues
  simp only [hmode, if_true]
  cases hbase : atoi (parseMode config).queueNum with
  | none =>
      rw [hbase] at h
      cases h
  | some base =>
      rw [hbase] at h
      cases h
      rfl

/-! ### The queue statement

The ruleset has one line that hands packets over, if anything is to be prevented. -/

/-- The queue targets of a line. -/
def queueTargets (line : Line) : List Queue :=
  line.stmts.filterMap fun
    | .queue q => some q
    | _ => none

/-- Does a queue target name a queue? Only a fanned-out one is written as a range. -/
def Names (q : Queue) (k : Nat) : Prop :=
  if q.fanout then q.first ≤ k ∧ k ≤ q.last else k = q.first

/-- **Both sides agree**: the queue statement has one target, it names exactly the queues
Suricata is started with, and these are queue numbers in order. -/
structure QueuesAgree (line : Line) (config : String) : Prop where
  same : ∃ q, queueTargets line = [q] ∧
    (∀ n : Int, n ∈ startedQueues config ↔ ∃ k : Nat, Names q k ∧ n = k) ∧
    (∀ k, Names q k → k ≤ 65535) ∧ q.first ≤ q.last

/-! ### What the engine reaches

A line that is too long ends the scan, so the engine sees a beginning of the file. For the numbers
it is enough that the head is in it. -/

/-- The lines a scanner reaches of what was written line by line. -/
def reached (ls : List String) : List String :=
  ((ls.flatMap lineParts).takeWhile fitsBuffer).map scanned

theorem scanText_reached (ls : List String) : scanText (unlines ls) = reached ls := by
  unfold scanText reached
  rw [textParts_unlines]

theorem reached_append_of_fits {a : List String} (h : ∀ l ∈ a, Fits l) (b : List String) :
    reached (a ++ b) = a.flatMap physical ++ reached b := by
  have hall : ∀ part ∈ a.flatMap lineParts, fitsBuffer part = true := by
    intro part hpart
    obtain ⟨l, hl, hpart⟩ := List.mem_flatMap.mp hpart
    exact h l hl part hpart
  unfold reached
  rw [List.flatMap_append, List.takeWhile_append_of_pos hall, List.map_append, List.map_flatMap]
  rfl

theorem reached_append_of_not_fits {a : List String} (h : ¬ ∀ l ∈ a, Fits l) (b : List String) :
    reached (a ++ b) = reached a := by
  unfold reached
  rw [List.flatMap_append, List.takeWhile_append]
  split
  · next hlen =>
      refine absurd ?_ h
      have hprefix := List.takeWhile_prefix fitsBuffer (l := a.flatMap lineParts)
      have hself := hprefix.eq_of_length hlen
      intro l hl part hpart
      exact List.takeWhile_eq_self_iff.mp hself part (List.mem_flatMap.mpr ⟨l, hl, hpart⟩)
  · rfl

theorem mem_reached {ls : List String} {line : String} (h : line ∈ reached ls) :
    ∃ l ∈ ls, line ∈ physical l := by
  obtain ⟨part, hpart, rfl⟩ := List.mem_map.mp h
  obtain ⟨l, hl, hmem⟩ := List.mem_flatMap.mp ((List.takeWhile_sublist _).mem hpart)
  exact ⟨l, hl, List.mem_map.mpr ⟨part, hmem, rfl⟩⟩

section Reach

variable {σ : Type} {step : σ → String → σ}

/-- Read what is reached of these lines. -/
def reachFold (step : σ → String → σ) (s : σ) (ls : List String) : σ := (reached ls).foldl step s

/-- Lines that fit and are skipped can be left out, wherever they stand. -/
theorem reachFold_middle {a b c : List String} (hfits : ∀ l ∈ b, Fits l)
    (hskip : ∀ l ∈ b, ∀ line ∈ physical l, ∀ s, step s line = s) (s : σ) :
    reachFold step s (a ++ (b ++ c)) = reachFold step s (a ++ c) := by
  unfold reachFold
  by_cases ha : ∀ l ∈ a, Fits l
  · rw [reached_append_of_fits ha, reached_append_of_fits ha, reached_append_of_fits hfits,
      List.foldl_append, List.foldl_append, List.foldl_append]
    have hb := readLines_skip hskip ((a.flatMap physical).foldl step s)
    unfold readLines at hb
    rw [hb]
  · rw [reached_append_of_not_fits ha, reached_append_of_not_fits ha]

/-- Lines at the end that are skipped can be left out, fit or not. -/
theorem reachFold_end {a b : List String}
    (hskip : ∀ l ∈ b, ∀ line ∈ physical l, ∀ s, step s line = s) (s : σ) :
    reachFold step s (a ++ b) = reachFold step s a := by
  unfold reachFold
  by_cases ha : ∀ l ∈ a, Fits l
  · have hself := reached_append_of_fits ha []
    rw [List.append_nil] at hself
    rw [reached_append_of_fits ha, hself, List.foldl_append, List.foldl_append]
    refine (foldl_skip (fun line hline s => ?_) _)
    obtain ⟨l, hl, hmem⟩ := mem_reached hline
    exact hskip l hl line hmem s
  · rw [reached_append_of_not_fits ha]

/-- Lines at the start that fit are read. -/
theorem reachFold_start {a b : List String} (hfits : ∀ l ∈ a, Fits l) (s : σ) :
    reachFold step s (a ++ b) = reachFold step (readLines step s a) b := by
  unfold reachFold readLines
  rw [reached_append_of_fits hfits, List.foldl_append]

/-- Lines without anything for the reader, and short enough. -/
def Idle (step : σ → String → σ) (b : List String) : Prop :=
  (∀ l ∈ b, Fits l) ∧ ∀ l ∈ b, ∀ line ∈ physical l, ∀ s, step s line = s

/-- Idle lines between the others can be left out. -/
theorem reachFold_idle {f₁ v₁ f₂ v₂ f₃ v₃ f₄ v₄ f₅ v₅ rest : List String} (h₁ : Idle step f₁)
    (h₂ : Idle step f₂) (h₃ : Idle step f₃) (h₄ : Idle step f₄) (h₅ : Idle step f₅)
    (hrest : ∀ l ∈ rest, ∀ line ∈ physical l, ∀ s, step s line = s) (s : σ) :
    reachFold step s (f₁ ++ (v₁ ++ (f₂ ++ (v₂ ++ (f₃ ++ (v₃ ++ (f₄ ++ (v₄ ++ (f₅ ++
      (v₅ ++ rest)))))))))) = reachFold step s (v₁ ++ (v₂ ++ (v₃ ++ (v₄ ++ v₅)))) := by
  have hmiddle : ∀ {b : List String}, Idle step b → ∀ a c : List String,
      reachFold step s (a ++ (b ++ c)) = reachFold step s (a ++ c) :=
    fun hb a c => reachFold_middle hb.1 hb.2 s
  rw [← List.nil_append (f₁ ++ _), hmiddle h₁, List.nil_append, hmiddle h₂ v₁,
    ← List.append_assoc v₁, hmiddle h₃, ← List.append_assoc (v₁ ++ v₂), hmiddle h₄,
    ← List.append_assoc (v₁ ++ v₂ ++ v₃), hmiddle h₅,
    ← List.append_assoc (v₁ ++ v₂ ++ v₃ ++ v₄), reachFold_end hrest]
  simp only [List.append_assoc]

end Reach

/-- The lines of an inline artifact that hold addresses, paths and rule files, as they are
written. -/
def textLines (ids : IDsIR) (opts : Suricata.Options) : List String :=
  ["    HOME_NET: \"[" ++ (join (ids.homeNets.map Prefix.string) "," ++ "]\"")] ++
  (["default-log-dir: " ++ opts.logDir] ++ (pathLines opts ++
  ((ids.ruleFiles.map fun rf => "  - " ++ rf) ++
  (if ids.exceptions.isEmpty then []
    else ["threshold-file: " ++ joinPath [opts.rulesDir, ThresholdFileName]]))))

theorem idle_mode {b : List String} (h : ∀ l ∈ b, PlainLine l) : Idle parseModeLine b :=
  ⟨fun l hl => (h l hl).fits, fun l hl => parseModeLine_of_within (by simp) (by simp)
    (h l hl).within⟩

section Inline

variable {ir : IR} {ids : IDsIR} (opts : Suricata.Options) (hids : ir.ids = some ids)
  (hir : UnbrokenIR ir ids) (hprevent : ids.prevent = true)
  (hcount : ids.queueNum < 65536 ∧ ids.queueCount < 65536)
include hids hir hprevent hcount

/-- **What the mode reader finds of an inline artifact**: the head, changed by what it reaches
of the texts. -/
theorem parseMode_inline : parseMode (Suricata.Render ir opts) =
    (reached (textLines ids opts)).foldl parseModeLine (renderedMode ids) := by
  have hsplit : idsLines ir ids opts = headLines ids ++
      (runLines ++
      (["    HOME_NET: \"[" ++ (join (ids.homeNets.map Prefix.string) "," ++ "]\"")] ++
      (externalLines ++ (["default-log-dir: " ++ opts.logDir] ++
      ((sizeLines ir.network ++ (outputLines ++ captureLines ids)) ++ (pathLines opts ++
      (["rule-files:"] ++ ((ids.ruleFiles.map fun rf => "  - " ++ rf) ++
      ((generatedFileLines ir ++ [""]) ++
      ((if ids.exceptions.isEmpty then []
        else ["threshold-file: " ++ joinPath [opts.rulesDir, ThresholdFileName]]) ++
      ((if ids.exceptions.isEmpty then [] else [""] ++ thresholdBlock ids.exceptions) ++
      ((if (appIDRuleControls ir).isEmpty then [] else appIDRulesBlock (appIDRuleControls ir)) ++
      ((if ir.securityProfileRules.isEmpty then []
        else securityProfileRulesBlock ir.securityProfileRules) ++ protocolLines))))))))))))) := by
    rw [idsLines_eq, ruleFileLines_eq]
    unfold settingLines blockLines
    cases ids.exceptions.isEmpty <;> simp only [List.append_assoc] <;> rfl
  have hhead : readLines parseModeLine {} (headLines ids) = renderedMode ids :=
    readLines_head fun _ => by omega
  -- the lines between the texts are the renderer's own, and short
  have hsettings : Idle parseModeLine runLines := idle_mode plain_runLines
  have hexternal : Idle parseModeLine externalLines := idle_mode plain_externalLines
  have hcapture : Idle parseModeLine (sizeLines ir.network ++ (outputLines ++ captureLines ids)) := by
    refine idle_mode ?_
    rw [List.forall_mem_append, List.forall_mem_append]
    refine ⟨plain_sizeLines _, plain_outputLines, ?_⟩
    unfold captureLines
    rw [if_pos hprevent]
    exact plain_inline ids.failOpen
  have hstart : Idle parseModeLine ["rule-files:"] := idle_mode (plain_cons (by decide) plain_nil)
  have hgenerated : Idle parseModeLine (generatedFileLines ir ++ [""]) := by
    refine idle_mode ?_
    rw [List.forall_mem_append]
    exact ⟨plain_generatedFileLines ir, plain_empty⟩
  have hrest : ∀ l ∈ (if ids.exceptions.isEmpty then [] else [""] ++ thresholdBlock ids.exceptions) ++
      ((if (appIDRuleControls ir).isEmpty then [] else appIDRulesBlock (appIDRuleControls ir)) ++
      ((if ir.securityProfileRules.isEmpty then []
        else securityProfileRulesBlock ir.securityProfileRules) ++ protocolLines)),
      ∀ line ∈ physical l, ∀ m, parseModeLine m line = m := by
    simp only [List.forall_mem_append, forall_mem_ite_isEmpty]
    refine ⟨fun _ => ⟨?_, ?_⟩, ?_, ?_, ?_⟩
    · exact (idle_mode plain_empty).2
    · intro l hl
      rw [thresholdBlock_eq] at hl
      exact parseModeLine_of_within (by decide) (by decide)
        (within_writtenBlock (thresholdBlock_ok hir) (by decide) l hl)
    · exact fun hne l hl => parseModeLine_of_within (by decide) (by decide)
        (within_appIDLines hir l (by simpa [hne] using hl))
    · exact fun hne l hl => parseModeLine_of_within (by decide) (by decide)
        (within_securityProfileLines hir l (by simpa [hne] using hl))
    · exact (idle_mode plain_protocolLines).2
  unfold parseMode
  rw [Render_eq hids, scanText_reached, hsplit]
  refine (reachFold_start (fits_headLines fun _ => hcount) _).trans ?_
  rw [hhead, reachFold_idle hsettings hexternal hcapture hstart hgenerated hrest]
  rfl

end Inline

/-! ### Ranges

Both sides name consecutive numbers from the same start. They are the same numbers exactly when
counting does not pass the last one of 16 bits. -/

theorem atoi_bounds {s : String} {z : Int} (h : atoi s = some z) : -2 ^ 63 ≤ z ∧ z < 2 ^ 63 := by
  unfold atoi at h
  split at h
  · obtain ⟨n, -, h⟩ := Option.bind_eq_some_iff.mp h
    split at h
    · cases h
      omega
    · cases h
  all_goals
    obtain ⟨n, -, h⟩ := Option.bind_eq_some_iff.mp h
    split at h
    · cases h
      omega
    · cases h

theorem countMarker_bounds {line : String} {n : Int} (h : countMarker line = some n) :
    0 < n ∧ n < 2 ^ 63 := by
  obtain ⟨v, -, h⟩ := Option.bind_eq_some_iff.mp h
  obtain ⟨hv, hpos⟩ := Option.filter_eq_some_iff.mp h
  exact ⟨of_decide_eq_true hpos, (atoi_bounds hv).2⟩

/-- In 64 bits, small steps from a small number do not wrap. -/
theorem bmod_small {x : Int} (hlo : -2 ^ 63 ≤ x) (hhi : x < 2 ^ 63) : x.bmod (2 ^ 64) = x :=
  Int.bmod_eq_of_le (by omega) (by omega)

/-- **The started queues are a given range exactly when they start with it and are as many.** -/
theorem startQueues_eq_iff {m : SuricataMode} {base : Int} {q last : Nat}
    (hbase : -2 ^ 63 ≤ base ∧ base < 2 ^ 63) (hcount : 0 < m.queueCount ∧ m.queueCount < 2 ^ 63)
    (hle : q ≤ last) (hlast : last < 2 ^ 32) :
    (∀ z : Int, z ∈ startQueues m base ↔ ∃ k : Nat, (q ≤ k ∧ k ≤ last) ∧ z = k) ↔
      base = q ∧ m.queueCount = last - q + 1 := by
  have hmem : ∀ z : Int, z ∈ startQueues m base ↔
      ∃ i : Nat, (i : Int) < m.queueCount ∧ z = (base + i).bmod (2 ^ 64) := by
    intro z
    unfold startQueues
    rw [List.mem_map]
    constructor
    · rintro ⟨i, hi, rfl⟩
      exact ⟨i, by have := List.mem_range.mp hi; omega, rfl⟩
    · rintro ⟨i, hi, rfl⟩
      exact ⟨i, List.mem_range.mpr (by omega), rfl⟩
  simp only [hmem]
  constructor
  · intro h
    -- the first started queue is in the range
    have hstart : (q : Int) ≤ base := by
      obtain ⟨k, hk, heq⟩ := (h base).mp ⟨0, hcount.1, by
        rw [Int.natCast_zero, Int.add_zero, bmod_small hbase.1 hbase.2]⟩
      omega
    -- a started queue in the range is reached without wrapping
    have hreach : ∀ k : Nat, q ≤ k → k ≤ last → ∃ i : Nat, (i : Int) < m.queueCount ∧
        base + i = k := by
      intro k hk hk'
      obtain ⟨i, hi, heq⟩ := (h k).mpr ⟨k, ⟨hk, hk'⟩, rfl⟩
      refine ⟨i, hi, ?_⟩
      have hdef := Int.bmod_def (base + i) (2 ^ 64)
      rw [← heq] at hdef
      split at hdef <;> omega
    obtain ⟨i, hi, hq⟩ := hreach q (Nat.le_refl _) hle
    have hbaseq : base = q := by omega
    obtain ⟨j, hj, hl⟩ := hreach last hle (Nat.le_refl _)
    refine ⟨hbaseq, ?_⟩
    by_contra hne
    -- one more queue would lie behind the range
    have hnext : ((last - q + 1 : Nat) : Int) < m.queueCount := by omega
    obtain ⟨k, hk, heq⟩ := (h ((base + (last - q + 1 : Nat)).bmod (2 ^ 64))).mp
      ⟨last - q + 1, hnext, rfl⟩
    rw [bmod_small (by omega) (by omega)] at heq
    omega
  · rintro ⟨rfl, hn⟩ z
    constructor
    · rintro ⟨i, hi, hz⟩
      rw [bmod_small (by omega) (by omega)] at hz
      exact ⟨q + i, ⟨by omega, by omega⟩, by omega⟩
    · rintro ⟨k, ⟨hk, hk'⟩, hz⟩
      refine ⟨k - q, by omega, ?_⟩
      rw [bmod_small (by omega) (by omega)]
      omega

/-! ### Agreement -/

/-- The lines leave the mode and the queues as they are: the last marker among them, if there
is one, says the same. -/
structure QueuesKept (lines : List String) (queueNum : Nat) (workers : Int) : Prop where
  mode : ∀ v, lastValue modeMarker lines = some v → v = ModePrevent
  queue : ∀ v, lastValue queueMarker lines = some v → atoi v = some (queueNum : Int)
  count : ∀ n, lastValue countMarker lines = some n → n = workers

theorem lastValue_mem {β : Type} {marker : String → Option β} {lines : List String} {v : β}
    (h : lastValue marker lines = some v) : ∃ line, marker line = some v := by
  obtain ⟨line, -, hline⟩ := List.mem_filterMap.mp (List.mem_of_getLast? h)
  exact ⟨line, hline⟩

/-- **The started queues, read from a head that is followed by other lines, are a range exactly
when these lines keep it.** -/
theorem startedQueues_iff {config : String} {lines : List String} {q n last : Nat}
    (hparse : parseMode config = lines.foldl parseModeLine ⟨ModePrevent, decimal q, n⟩)
    (hpos : 0 < n) (hn : n < 65536) (hq : q < 65536) (hle : q ≤ last) (hlast : last < 2 ^ 32) :
    (∀ z : Int, z ∈ startedQueues config ↔ ∃ k : Nat, (q ≤ k ∧ k ≤ last) ∧ z = k) ↔
      (∀ v, lastValue modeMarker lines = some v → v = ModePrevent) ∧
      (∀ v, lastValue queueMarker lines = some v → atoi v = some (q : Int)) ∧
      (lastValue countMarker lines).getD n = last - q + 1 := by
  have hmode : (parseMode config).mode = (lastValue modeMarker lines).getD ModePrevent := by
    rw [hparse, foldl_lastValue parseModeLine_mode]
  have hqueue : (parseMode config).queueNum = (lastValue queueMarker lines).getD (decimal q) := by
    rw [hparse, foldl_lastValue parseModeLine_queueNum]
  have hcount : (parseMode config).queueCount = (lastValue countMarker lines).getD n := by
    rw [hparse, foldl_lastValue parseModeLine_queueCount]
  have hbounds : 0 < (parseMode config).queueCount ∧ (parseMode config).queueCount < 2 ^ 63 := by
    rw [hcount]
    cases hv : lastValue countMarker lines with
    | none => exact ⟨by simpa using hpos, by simp; omega⟩
    | some v =>
        obtain ⟨line, hline⟩ := lastValue_mem hv
        exact countMarker_bounds hline
  have hwritten : atoi (decimal q) = some (q : Int) := atoi_decimal (by omega)
  have hread : (∀ v, lastValue queueMarker lines = some v → atoi v = some (q : Int)) ↔
      atoi (parseMode config).queueNum = some (q : Int) := by
    rw [hqueue]
    cases lastValue queueMarker lines <;> simp [hwritten]
  rw [← getD_eq_iff (d := ModePrevent), ← hmode, hread, ← hcount]
  unfold startedQueues
  simp only
  -- a range is not empty, so the process is started inline with a number it can read
  have hnonempty : ¬ ∀ z : Int, z ∈ ([] : List Int) ↔ ∃ k : Nat, (q ≤ k ∧ k ≤ last) ∧ z = k :=
    fun h => List.not_mem_nil ((h q).mpr ⟨q, ⟨Nat.le_refl _, hle⟩, rfl⟩)
  have hprevent : ModePrevent = "prevent" := rfl
  rw [hprevent]
  split
  · next hm =>
      cases hbase : atoi (parseMode config).queueNum with
      | none => exact iff_of_false hnonempty (by simp)
      | some base =>
          rw [Option.elim_some, startQueues_eq_iff (atoi_bounds hbase) hbounds hle hlast,
            Option.some.injEq]
          exact ⟨fun h => ⟨hm, h⟩, fun h => h.2⟩
  · next hm => exact iff_of_false hnonempty fun h => hm h.1

/-- Texts that smuggle in no line keep the queues. -/
theorem queuesKept_of_unbroken {ids : IDsIR} {opts : Suricata.Options} (hlog : Unbroken opts.logDir)
    (hrules : Unbroken opts.rulesDir) (hfiles : ∀ rf ∈ ids.ruleFiles, Unbroken rf) (q : Nat) (w : Int) :
    QueuesKept (reached (textLines ids opts)) q w := by
  -- no text of the policy or the deployment breaks its line
  have hwithin : ∀ l ∈ textLines ids opts, Within [] l := by
    unfold textLines
    simp only [List.forall_mem_append, List.forall_mem_singleton, List.forall_mem_map,
      forall_mem_ite_isEmpty]
    exact ⟨within_homeNets ids, within_logDir hlog, within_pathLines hrules,
      fun rf hrf => within_of_lead (isLead_ofList (by decide)) (hfiles rf hrf),
      fun _ => within_thresholdFile hrules⟩
  have htag : ∀ line ∈ reached (textLines ids opts), tagOf line = none := by
    intro line hline
    obtain ⟨l, hl, hmem⟩ := mem_reached hline
    cases ht : tagOf line with
    | none => rfl
    | some c => cases hwithin l hl line hmem c ht
  -- so no marker starts a line, and the scanner's values stay unset
  have hskip : ∀ cs : List Char, (marker ++ ['m'] <+: cs ∨ marker ++ ['q'] <+: cs) →
      ∀ line ∈ reached (textLines ids opts), cutPrefix line (String.ofList cs) = none := by
    intro cs hcs line hline
    refine cutPrefix_eq_none fun hp => ?_
    have hnone := htag line hline
    rw [String.toList_ofList] at hp
    rcases hcs with hcs | hcs
    · rw [tagOf_of_lead (by decide) (hcs.trans hp)] at hnone
      cases hnone
    · rw [tagOf_of_lead (by decide) (hcs.trans hp)] at hnone
      cases hnone
  have hnone : ∀ {β : Type} {mark : String → Option β},
      (∀ line ∈ reached (textLines ids opts), mark line = none) →
        lastValue mark (reached (textLines ids opts)) = none := by
    intro β mark h
    unfold lastValue
    rw [List.filterMap_eq_nil_iff.mpr h]
    rfl
  have hmode : lastValue modeMarker (reached (textLines ids opts)) = none :=
    hnone fun line hline => by
      unfold modeMarker
      rw [hskip _ (.inl (by decide)) line hline]
      rfl
  have hqueue : lastValue queueMarker (reached (textLines ids opts)) = none :=
    hnone fun line hline => by
      unfold queueMarker
      rw [hskip _ (.inr (by decide)) line hline]
      rfl
  have hcount : lastValue countMarker (reached (textLines ids opts)) = none :=
    hnone fun line hline => by
      unfold countMarker
      rw [hskip _ (.inr (by decide)) line hline]
      rfl
  exact ⟨by simp [hmode], by simp [hqueue], by simp [hcount]⟩

/-- Queue numbers that are accepted have 16 bits. -/
theorem queueNum_of_Validate {p : Phragma.Policy} (h : Validate p = [])
    (henabled : p.getIds.enabled = true) : p.getIds.queueNum ≤ 65535 := by
  have hok := (accepted_of_Validate h).ids_ok
  unfold checkIDs at hok
  simp only [henabled, Bool.not_true, Bool.false_eq_true, if_false, List.append_eq_nil_iff] at hok
  by_contra hbig
  have hnum := hok.1.2
  simp [errIf, Nat.lt_of_not_le hbig] at hnum

/-- A range that does not wrap names what lies between its ends, a single queue included. -/
theorem names_iff {q n k : Nat} {bypass : Bool} (hn : 0 < n) (h : q + n ≤ 65536) :
    Names ⟨q, (q + n - 1) % 65536, decide (1 < n), bypass⟩ k ↔ q ≤ k ∧ k ≤ q + n - 1 := by
  unfold Names
  by_cases hfan : 1 < n
  · simp only [hfan, decide_true, if_true]
    omega
  · simp only [hfan, decide_false, Bool.false_eq_true, if_false]
    omega

/-- A number of workers that fits is kept. -/
theorem workers_eq {w : Int} (h : 1 ≤ w ∧ w ≤ 16) :
    ((uint16 (if w < 1 then 1 else w).toNat : Nat) : Int) = w := by
  rw [if_neg (by omega), uint16]
  omega

/-- **The queue statement and Suricata agree exactly when** the range of queues ends before
65536 and the texts in the artifact leave the queues as they are. -/
theorem nfqueue_agree_iff {H : IdentityHash} {p : Phragma.Policy} {ir : IR}
    (hcompile : Compile H p = .ok ir) (henabled : p.getIds.enabled = true)
    (hmode : p.getIds.mode = .prevent) {opts : Renderers.Options}
    (hworkers : 1 ≤ opts.inspectionWorkers ∧ opts.inspectionWorkers ≤ 16) :
    ∃ ids, (resolveQueueCount opts ir).ids = some ids ∧
      (QueuesAgree (Nftables.queueStatement ids)
          (Suricata.Render (resolveQueueCount opts ir) opts.suricata) ↔
        p.getIds.queueNum + opts.inspectionWorkers ≤ 65536 ∧
          QueuesKept (reached (textLines ids opts.suricata)) p.getIds.queueNum
            opts.inspectionWorkers) := by
  obtain ⟨ids, hids, hprevent⟩ := resolveQueueCount_prevent hcompile henabled hmode opts
  refine ⟨ids, hids, ?_⟩
  obtain ⟨hir, hcount⟩ := unbroken_resolved hcompile hids
  obtain ⟨ids₀, hids₀, heq, hresolved⟩ := resolveQueueCount_ids hids
  obtain ⟨hvalid, c, hC⟩ := Compile_ok hcompile
  -- the two numbers, as both renderers see them
  have hgetIds : (normalizeIdentities H p).getIds = p.getIds := rfl
  have hnum : ids.queueNum = p.getIds.queueNum := by
    have hle := queueNum_of_Validate hvalid (hgetIds ▸ henabled)
    rw [hgetIds] at hle
    rw [heq]
    show ids₀.queueNum = _
    rw [compileIDs_queueNum (hids₀ ▸ hC.ids), hgetIds]
    exact Nat.mod_eq_of_lt (by omega)
  have hqueues : (ids.queueCount : Int) = opts.inspectionWorkers := by
    rw [hresolved hprevent]
    exact workers_eq hworkers
  have hpos : 0 < ids.queueCount := by omega
  have hsmall := hcount hprevent
  have hparse := parseMode_inline opts.suricata hids hir hprevent hsmall
  have hhead : renderedMode ids = ⟨ModePrevent, decimal ids.queueNum, ids.queueCount⟩ := by
    unfold renderedMode
    rw [if_pos hprevent, if_neg (by omega)]
  rw [hhead] at hparse
  have htarget : queueTargets (Nftables.queueStatement ids) =
      [⟨ids.queueNum, (ids.queueNum + ids.queueCount - 1) % 65536, decide (1 < ids.queueCount),
        ids.failOpen⟩] := rfl
  rw [← hnum, ← hqueues]
  constructor
  · rintro ⟨q, hq, hsame, -, hordered⟩
    rw [htarget] at hq
    obtain rfl := (List.cons.inj hq).1
    have hrange : ids.queueNum + ids.queueCount ≤ 65536 := by
      simp only at hordered
      omega
    simp only [names_iff hpos hrange] at hsame
    obtain ⟨hm, hq, hn⟩ := (startedQueues_iff hparse hpos (by omega) (by omega) (by omega)
      (by omega)).mp hsame
    refine ⟨by omega, hm, hq, getD_eq_iff.mp ?_⟩
    omega
  · rintro ⟨hrange, hkept⟩
    have hrange : ids.queueNum + ids.queueCount ≤ 65536 := by omega
    have hn := getD_eq_iff.mpr hkept.count
    refine ⟨_, htarget, ?_, ?_, ?_⟩
    · simp only [names_iff hpos hrange]
      refine (startedQueues_iff hparse hpos (by omega) (by omega) (by omega) (by omega)).mpr
        ⟨hkept.mode, hkept.queue, ?_⟩
      omega
    · intro k hk
      rw [names_iff hpos hrange] at hk
      omega
    · show ids.queueNum ≤ (ids.queueNum + ids.queueCount - 1) % 65536
      omega

theorem nfqueue_agree_inline :
    ∃ ir ids, Compile .zero (inlinePolicy 4 ["local.rules"]) = .ok ir ∧
      (inlinePolicy 4 ["local.rules"]).getIds.enabled = true ∧
      (inlinePolicy 4 ["local.rules"]).getIds.mode = .prevent ∧
      (resolveQueueCount inlineOptions ir).ids = some ids ∧
      QueuesAgree (Nftables.queueStatement ids)
        (Suricata.Render (resolveQueueCount inlineOptions ir) inlineOptions.suricata) := by
  have hok : (Compile .zero (inlinePolicy 4 ["local.rules"])).toOption.any (fun ir =>
      (resolveQueueCount inlineOptions ir).ids.any fun ids =>
        decide (ids.ruleFiles = ["local.rules"])) = true := by
    decide
  obtain ⟨ir, hir, hok⟩ := (Option.any_eq_true _ _).mp hok
  obtain ⟨ids, hids, hok⟩ := (Option.any_eq_true _ _).mp hok
  have hfiles : ids.ruleFiles = ["local.rules"] := of_decide_eq_true hok
  have hcompile := toOption_eq_some.mp hir
  obtain ⟨ids', hids', hagree⟩ := @nfqueue_agree_iff _ _ _ hcompile rfl rfl inlineOptions
    (by decide)
  rw [hids] at hids'
  cases hids'
  refine ⟨ir, ids, hcompile, rfl, rfl, hids, hagree.mpr ⟨by decide, ?_⟩⟩
  have hlog : Unbroken "/var/log" := unbroken_ofList (by decide)
  have hrules : Unbroken "/var/lib/rules" := unbroken_ofList (by decide)
  refine queuesKept_of_unbroken hlog hrules ?_ _ _
  rw [hfiles, List.forall_mem_singleton]
  exact unbroken_ofList (by decide)

/-- **At the last queue number two workers have no range.** -/
theorem nfqueue_wraps : ¬ ∀ (H : IdentityHash) (p : Phragma.Policy) (ir : IR)
    (opts : Renderers.Options), Compile H p = .ok ir → p.getIds.enabled = true →
      p.getIds.mode = .prevent → 1 ≤ opts.inspectionWorkers ∧ opts.inspectionWorkers ≤ 16 →
      ∃ ids, (resolveQueueCount opts ir).ids = some ids ∧
        QueuesAgree (Nftables.queueStatement ids)
          (Suricata.Render (resolveQueueCount opts ir) opts.suricata) := by
  intro hall
  have hok : (Compile .zero (inlinePolicy 65535 ["local.rules"])).toOption.any (fun ir =>
      (resolveQueueCount inlineOptions ir).ids.any fun ids =>
        decide (ids.queueNum = 65535 ∧ ids.queueCount = 2)) = true := by
    decide
  obtain ⟨ir, hir, hok⟩ := (Option.any_eq_true _ _).mp hok
  obtain ⟨ids, hids, hok⟩ := (Option.any_eq_true _ _).mp hok
  obtain ⟨hnum, hcount⟩ := of_decide_eq_true hok
  obtain ⟨ids', hids', q, hq, -, -, hordered⟩ := hall .zero _ ir inlineOptions
    (toOption_eq_some.mp hir) rfl rfl (by decide)
  rw [hids] at hids'
  cases hids'
  have hq : [(⟨ids.queueNum, (ids.queueNum + ids.queueCount - 1) % 65536,
      decide (1 < ids.queueCount), ids.failOpen⟩ : Queue)] = [q] := hq
  obtain rfl := (List.cons.inj hq).1
  simp only [hnum, hcount] at hordered
  omega

end Phragma.Engines.Suricata
