import Phragma.Lib.Collect
import Phragma.Go.Strings
import Phragma.Policy.Model

/-!
# Phragma.Policy.RuleIdentity

Durable rule and item identities (`internal/policy/rule_identity.go`).

`NormalizeRuleIDs` gives every forwarding rule an id, `NormalizePolicyItemIDs` does
the same for host-input and NAT items, which share one set of ids already taken.
All four loops treat one item alike: trim the id, replace it by a generated one when
it is missing, malformed or taken, then try numbered suffixes while the result is
still taken. `normalizeID` is that treatment of one id, and `ItemKind` packs what a
loop needs to know about its item type.

The digest inside a generated id is that of the item's protobuf encoding with the id
cleared. Encoder and digest are outside this repository, so an `IdentityHash` stands
for them, with the one fact that matters: the digest is cut to twelve lower-case
hexadecimal digits.

The result proved here is that both passes are idempotent and change nothing but
ids, which is what lets the compiler, the explainer and the store each normalize
again whatever they are handed.
-/

namespace Phragma.Policy

open Lib Go

/-! ### Ids

An id is the name of the item, made to fit, and a digest of the item without its id. It is at most
128 characters long, whatever the name. -/

/-- `[a-z0-9]`: lower-case letters and digits. -/
def isLowerAlnum (c : Char) : Bool :=
  (decide ('a' ≤ c) && decide (c ≤ 'z')) || (decide ('0' ≤ c) && decide (c ≤ '9'))

/-- `[a-z0-9._:-]`, the characters of `ruleIDValidRE` after the first. -/
def isRuleIDChar (c : Char) : Bool :=
  isLowerAlnum c || c == '.' || c == '_' || c == ':' || c == '-'

/-- `ruleIDTrimChars`: what an id neither begins nor ends with. -/
def ruleIDTrimChars : List Char := ['-', '.', '_', ':']

/-- `ruleIDValidRE`: a lower-case letter or digit, then at most 127 id characters. -/
def ruleIDValidRE : List Char → Bool
  | [] => false
  | c :: cs => isLowerAlnum c && decide (cs.length ≤ 127) && cs.all isRuleIDChar

/-- `ValidRuleID`: an id of the right characters, without space around it. -/
def ValidRuleID (id : String) : Bool :=
  id != "" && trimSpace id == id && ruleIDValidRE id.toList

/-- Replace every maximal run of at least `min` characters satisfying `p` by a single
`-` (`ReplaceAllString` of a character class with a repetition). -/
def replaceRuns (p : Char → Bool) (min : Nat) : List Char → List Char → List Char
  | run, [] => flush run
  | run, c :: cs =>
      if p c then replaceRuns p min (c :: run) cs
      else flush run ++ c :: replaceRuns p min [] cs
where
  /-- The replacement of a finished run, kept in reverse. -/
  flush (run : List Char) : List Char :=
    if run ≠ [] ∧ min ≤ run.length then ['-'] else run.reverse

/-- `ruleIDFallbackLabel`: what stands for a name of which nothing is left. -/
def ruleIDFallbackLabel : List Char := "unnamed".toList

/-- `sanitizeRuleIDLabel`. Past the first replacement every character is ASCII, so
lengths in bytes are lengths of the list. -/
def sanitizeRuleIDLabel (name : String) : List Char :=
  let label := (toLower (trimSpace name)).toList
  let label := replaceRuns (fun c => !isRuleIDChar c) 1 [] label
  let label := replaceRuns (fun c => ruleIDTrimChars.contains c) 2 [] label
  let label := trim ruleIDTrimChars label
  if label = [] then ruleIDFallbackLabel
  else
    let label := if 64 < label.length then trim ruleIDTrimChars (label.take 64) else label
    if label = [] then ruleIDFallbackLabel else label

/-- `withRuleIDLimit`: at most 128 characters, keeping what follows the last `-`. -/
def withRuleIDLimit (id : List Char) : List Char :=
  let id := trim ruleIDTrimChars id
  if id.length ≤ 128 then id
  else
    let hash := (splitOn '-' id).getLastD []
    let prefixLimit := 128 - (hash.length + 1)
    if prefixLimit < "rule-x".length then id.take 128
    else trim ruleIDTrimChars (id.take prefixLimit) ++ '-' :: hash

/-- `withRuleIDSuffix`: an id with a number after it, cut before the number if it would be too
long. -/
def withRuleIDSuffix (base : String) (suffix : Nat) : String :=
  String.ofList (withRuleIDLimit (base.toList ++ '-' :: (decimal suffix).toList))

/-- Twelve lower-case hexadecimal digits. -/
def IsHash12 (h : String) : Prop :=
  h.toList.length = 12 ∧ ∀ c ∈ h.toList, isLowerAlnum c = true

/-- The digests of an item's encoding that the generated ids embed
(`ruleIdentityHash`, `policyItemIdentityHash`), as functions of the item with its id
cleared and of its position. -/
structure IdentityHash where
  rule : Rule → Nat → String
  hostInput : HostInputRule → Nat → String
  sourceNat : SourceNat → Nat → String
  destinationNat : DestinationNat → Nat → String
  rule_hash : ∀ r i, IsHash12 (rule r i)
  hostInput_hash : ∀ r i, IsHash12 (hostInput r i)
  sourceNat_hash : ∀ r i, IsHash12 (sourceNat r i)
  destinationNat_hash : ∀ r i, IsHash12 (destinationNat r i)

/-- One digest for everything; enough where every item has a usable id of its own. -/
def IdentityHash.zero : IdentityHash where
  rule _ _ := "000000000000"
  hostInput _ _ := "000000000000"
  sourceNat _ _ := "000000000000"
  destinationNat _ _ := "000000000000"
  rule_hash _ _ := ⟨by decide, by decide⟩
  hostInput_hash _ _ := ⟨by decide, by decide⟩
  sourceNat_hash _ _ := ⟨by decide, by decide⟩
  destinationNat_hash _ _ := ⟨by decide, by decide⟩

/-- An id generated from a kind label, an item name and a digest. -/
def generatedID (kind name hash : String) : String :=
  String.ofList (withRuleIDLimit
    (kind.toList ++ (sanitizeRuleIDLabel name ++ '-' :: hash.toList)))

/-- `generatedRuleID`: of a rule. -/
def generatedRuleID (H : IdentityHash) (r : Rule) (i : Nat) : String :=
  generatedID "rule-" r.name (H.rule { r with id := "" } i)

/-- `generatedHostInputID`: of a rule on traffic to the firewall. -/
def generatedHostInputID (H : IdentityHash) (r : HostInputRule) (i : Nat) : String :=
  generatedID "host-input-" r.name (H.hostInput { r with id := "" } i)

/-- `generatedSourceNatID`: of a source translation. -/
def generatedSourceNatID (H : IdentityHash) (r : SourceNat) (i : Nat) : String :=
  generatedID "snat-" r.name (H.sourceNat { r with id := "" } i)

/-- `generatedDestinationNatID`: of a destination translation. -/
def generatedDestinationNatID (H : IdentityHash) (r : DestinationNat) (i : Nat) : String :=
  generatedID "dnat-" r.name (H.destinationNat { r with id := "" } i)

/-! ### Generated ids are well formed

The label of a name consists of the characters of ids and keeps to their length, and so does what is
made of it. -/

theorem isRuleIDChar_of_isLowerAlnum {c : Char} (h : isLowerAlnum c = true) :
    isRuleIDChar c = true := by
  simp [isRuleIDChar, h]

/-- No separator is a letter or a digit, so `withRuleIDLimit` never trims one. -/
theorem not_trimChar_of_isLowerAlnum {c : Char} (h : isLowerAlnum c = true) :
    ruleIDTrimChars.contains c = false := by
  cases hc : ruleIDTrimChars.contains c with
  | false => rfl
  | true =>
      have hm : c ∈ ruleIDTrimChars := by simpa using hc
      simp only [ruleIDTrimChars, List.mem_cons, List.not_mem_nil, or_false] at hm
      rcases hm with rfl | rfl | rfl | rfl <;> exact absurd h (by decide)

/-- Id characters lie in the printable part of ASCII. -/
theorem isRuleIDChar_range {c : Char} (h : isRuleIDChar c = true) :
    0x21 ≤ c.toNat ∧ c.toNat ≤ 0x7e := by
  simp only [isRuleIDChar, isLowerAlnum, Bool.or_eq_true, Bool.and_eq_true, decide_eq_true_eq,
    beq_iff_eq] at h
  rcases h with ((((⟨h1, h2⟩ | ⟨h1, h2⟩) | rfl) | rfl) | rfl) | rfl
  · exact ⟨le_trans (by decide) (show 'a'.toNat ≤ c.toNat from h1),
      le_trans (show c.toNat ≤ 'z'.toNat from h2) (by decide)⟩
  · exact ⟨le_trans (by decide) (show '0'.toNat ≤ c.toNat from h1),
      le_trans (show c.toNat ≤ '9'.toNat from h2) (by decide)⟩
  all_goals decide

/-- Id characters are not white space. -/
theorem isSpace_of_isRuleIDChar {c : Char} (h : isRuleIDChar c = true) : isSpace c = false := by
  obtain ⟨h1, h2⟩ := isRuleIDChar_range h
  simp only [isSpace, Bool.or_eq_false_iff, Bool.and_eq_false_iff, decide_eq_false_iff_not,
    beq_eq_false_iff_ne]
  omega

/-- The regular expression alone decides `ValidRuleID`: what it matches is not empty
and has no white space to trim. -/
theorem ValidRuleID_ofList {l : List Char} (h : ruleIDValidRE l = true) :
    ValidRuleID (String.ofList l) = true := by
  cases l with
  | nil => simp [ruleIDValidRE] at h
  | cons c cs =>
      have hall : ∀ x ∈ c :: cs, isSpace x = false := by
        simp only [ruleIDValidRE, Bool.and_eq_true, List.all_eq_true] at h
        intro x hx
        rcases List.mem_cons.mp hx with rfl | hx
        · exact isSpace_of_isRuleIDChar (isRuleIDChar_of_isLowerAlnum h.1.1)
        · exact isSpace_of_isRuleIDChar (h.2 x hx)
      have htrim : trimSpace (String.ofList (c :: cs)) = String.ofList (c :: cs) := by
        rw [trimSpace, String.toList_ofList, trimList_eq_self hall]
      have hne : String.ofList (c :: cs) ≠ "" := by
        intro he
        simpa using congrArg String.toList he
      simp only [ValidRuleID, htrim, String.toList_ofList, h, bne_iff_ne.mpr hne, beq_self_eq_true,
        Bool.and_self]

/-- Cutting an id to the limit keeps it well formed. -/
theorem ruleIDValidRE_withRuleIDLimit {c : Char} {cs : List Char} (hc : isLowerAlnum c = true)
    (hcs : ∀ x ∈ cs, isRuleIDChar x = true) :
    ruleIDValidRE (withRuleIDLimit (c :: cs)) = true := by
  obtain ⟨t, ht, hpre⟩ := trimList_cons (l := cs) (not_trimChar_of_isLowerAlnum hc)
  have hall : ∀ x ∈ t, isRuleIDChar x = true := fun x hx => hcs x (hpre.subset hx)
  unfold withRuleIDLimit trim
  simp only [ht, List.length_cons]
  by_cases hlen : t.length + 1 ≤ 128
  · rw [if_pos hlen]
    simp only [ruleIDValidRE, hc, Bool.true_and, Bool.and_eq_true, decide_eq_true_eq,
      List.all_eq_true]
    exact ⟨by omega, hall⟩
  · -- too long: the front is cut so that the last part, the hash, still fits
    rw [if_neg hlen]
    generalize hh : (splitOn '-' (c :: t)).getLastD [] = hash
    have hhash : ∀ x ∈ hash, isRuleIDChar x = true := by
      intro x hx
      have hmem : hash ∈ splitOn '-' (c :: t) ∨ hash = [] := by
        rw [← hh, List.getLastD_eq_getLast?]
        cases hl : (splitOn '-' (c :: t)).getLast? with
        | none => exact .inr rfl
        | some part => exact .inl (List.mem_of_getLast? hl)
      rcases hmem with hmem | rfl
      · rcases List.mem_cons.mp (mem_of_mem_splitOn hmem hx) with rfl | hx
        · exact isRuleIDChar_of_isLowerAlnum hc
        · exact hall x hx
      · simp at hx
    split
    · -- No room for the last part: the plain cut.
      simp only [List.take_succ_cons, ruleIDValidRE, hc, Bool.true_and, Bool.and_eq_true,
        decide_eq_true_eq, List.all_eq_true, List.length_take]
      exact ⟨by omega, fun x hx => hall x (List.mem_of_mem_take hx)⟩
    · rename_i hroom
      simp only [show "rule-x".length = 6 from rfl] at hroom
      obtain ⟨k, hk⟩ : ∃ k, 128 - (hash.length + 1) = k + 1 :=
        ⟨128 - (hash.length + 1) - 1, by omega⟩
      rw [hk, List.take_succ_cons]
      obtain ⟨u, hu, hupre⟩ :=
        trimList_cons (l := t.take k) (not_trimChar_of_isLowerAlnum hc)
      have hulen : u.length ≤ k := le_trans hupre.length_le (List.length_take_le _ _)
      simp only [hu, List.cons_append, ruleIDValidRE, hc, Bool.true_and, Bool.and_eq_true,
        decide_eq_true_eq, List.all_eq_true, List.length_append, List.length_cons]
      refine ⟨by omega, ?_⟩
      intro x hx
      rcases List.mem_append.mp hx with hx | hx
      · exact hall x (List.mem_of_mem_take (hupre.subset hx))
      · rcases List.mem_cons.mp hx with rfl | hx
        · decide
        · exact hhash x hx

/-- Replacing runs brings in nothing but dashes. -/
theorem mem_replaceRuns {p : Char → Bool} {min : Nat} {x : Char} :
    ∀ {l run : List Char}, x ∈ replaceRuns p min run l → x = '-' ∨ x ∈ l ∨ x ∈ run := by
  intro l
  have flush : ∀ {run : List Char}, x ∈ replaceRuns.flush min run → x = '-' ∨ x ∈ run := by
    intro run h
    unfold replaceRuns.flush at h
    split at h
    · exact .inl (by simpa using h)
    · exact .inr (by simpa using h)
  induction l with
  | nil => intro run h; exact (flush h).imp_right .inr
  | cons c cs ih =>
      intro run h
      simp only [replaceRuns] at h
      split at h
      · rcases ih h with h | h | h
        · exact .inl h
        · exact .inr (.inl (List.mem_cons_of_mem _ h))
        · rcases List.mem_cons.mp h with rfl | h
          · exact .inr (.inl List.mem_cons_self)
          · exact .inr (.inr h)
      · rcases List.mem_append.mp h with h | h
        · exact (flush h).imp_right .inr
        · rcases List.mem_cons.mp h with rfl | h
          · exact .inr (.inl List.mem_cons_self)
          · rcases ih h with h | h | h
            · exact .inl h
            · exact .inr (.inl (List.mem_cons_of_mem _ h))
            · simp at h

/-- Replacing every run, however short, leaves no other character satisfying `p`. -/
theorem not_mem_replaceRuns_one {p : Char → Bool} {x : Char} :
    ∀ {l run : List Char}, x ∈ replaceRuns p 1 run l → x = '-' ∨ p x = false := by
  intro l
  have flush : ∀ {run : List Char}, x ∈ replaceRuns.flush 1 run → x = '-' := by
    intro run h
    cases run with
    | nil => simp [replaceRuns.flush] at h
    | cons c cs => simpa [replaceRuns.flush] using h
  induction l with
  | nil => intro run h; exact .inl (flush h)
  | cons c cs ih =>
      intro run h
      simp only [replaceRuns] at h
      split at h
      · exact ih h
      · rename_i hpc
        rcases List.mem_append.mp h with h | h
        · exact .inl (flush h)
        · rcases List.mem_cons.mp h with rfl | h
          · exact .inr (by simpa using hpc)
          · exact ih h

/-- A label consists of id characters. -/
theorem isRuleIDChar_of_mem_sanitizeRuleIDLabel {name : String} {x : Char}
    (h : x ∈ sanitizeRuleIDLabel name) : isRuleIDChar x = true := by
  have fallback : x ∈ ruleIDFallbackLabel → isRuleIDChar x = true := by
    intro hx
    have hall : ∀ y ∈ ruleIDFallbackLabel, isRuleIDChar y = true := by decide
    exact hall x hx
  -- Whatever the trims and the cut keep was there after the second replacement.
  have separated : x ∈ replaceRuns (fun c => ruleIDTrimChars.contains c) 2 []
      (replaceRuns (fun c => !isRuleIDChar c) 1 [] (toLower (trimSpace name)).toList) →
      isRuleIDChar x = true := by
    intro hx
    rcases mem_replaceRuns hx with rfl | hx | hx
    · decide
    · rcases not_mem_replaceRuns_one hx with rfl | hx
      · decide
      · simpa using hx
    · simp at hx
  simp only [sanitizeRuleIDLabel] at h
  generalize hl : trim ruleIDTrimChars _ = label at h
  have kept : x ∈ label → isRuleIDChar x = true := by
    intro hx
    exact separated (mem_of_mem_trimList (hl ▸ hx))
  by_cases hnil : label = []
  · rw [if_pos hnil] at h
    exact fallback h
  · rw [if_neg hnil] at h
    by_cases hlong : 64 < label.length
    · simp only [if_pos hlong] at h
      by_cases hcut : trim ruleIDTrimChars (label.take 64) = []
      · rw [if_pos hcut] at h
        exact fallback h
      · rw [if_neg hcut] at h
        exact kept (List.mem_of_mem_take (mem_of_mem_trimList h))
    · simp only [if_neg hlong, if_neg hnil] at h
      exact kept h

/-- A kind label: it starts with a letter and holds id characters. -/
def IsKindLabel (kind : String) : Prop :=
  ∃ c cs, kind.toList = c :: cs ∧ isLowerAlnum c = true ∧ ∀ x ∈ cs, isRuleIDChar x = true

/-- Decimal digits are id characters. -/
theorem isLowerAlnum_of_mem_decimal {n : Nat} {x : Char} (h : x ∈ (decimal n).toList) :
    isLowerAlnum x = true := by
  have hd : x.isDigit = true := by
    have h' : x ∈ Nat.toDigits 10 n := by
      rwa [decimal, show toString n = String.ofList (Nat.toDigits 10 n) from rfl,
        String.toList_ofList] at h
    exact Nat.isDigit_of_mem_toDigits (by decide) (by decide) h'
  simp only [Char.isDigit, ge_iff_le, Bool.and_eq_true, decide_eq_true_eq] at hd
  simp only [isLowerAlnum, Bool.or_eq_true, Bool.and_eq_true, decide_eq_true_eq]
  exact .inr ⟨hd.1, hd.2⟩

theorem ValidRuleID_generatedID {kind name hash : String} (hk : IsKindLabel kind)
    (hh : IsHash12 hash) : ValidRuleID (generatedID kind name hash) = true := by
  obtain ⟨c, cs, hkind, hc, hcs⟩ := hk
  apply ValidRuleID_ofList
  rw [hkind, List.cons_append]
  apply ruleIDValidRE_withRuleIDLimit hc
  intro x hx
  rcases List.mem_append.mp hx with hx | hx
  · exact hcs x hx
  · rcases List.mem_append.mp hx with hx | hx
    · exact isRuleIDChar_of_mem_sanitizeRuleIDLabel hx
    · rcases List.mem_cons.mp hx with rfl | hx
      · decide
      · exact isRuleIDChar_of_isLowerAlnum (hh.2 x hx)

/-- A well-formed id stays well formed under a numbered suffix. -/
theorem ValidRuleID_withRuleIDSuffix {base : String} (h : ValidRuleID base = true) (n : Nat) :
    ValidRuleID (withRuleIDSuffix base n) = true := by
  simp only [ValidRuleID, Bool.and_eq_true] at h
  apply ValidRuleID_ofList
  cases hb : base.toList with
  | nil => simp [hb, ruleIDValidRE] at h
  | cons c cs =>
      have hre := h.2
      simp only [hb, ruleIDValidRE, Bool.and_eq_true, List.all_eq_true] at hre
      rw [List.cons_append]
      apply ruleIDValidRE_withRuleIDLimit hre.1.1
      intro x hx
      rcases List.mem_append.mp hx with hx | hx
      · exact hre.2 x hx
      · rcases List.mem_cons.mp hx with rfl | hx
        · decide
        · exact isRuleIDChar_of_isLowerAlnum (isLowerAlnum_of_mem_decimal hx)

/-! ### One id

An item keeps its id if it is valid and was not met before. Otherwise it gets a new one, with a
number after it if that is taken as well. -/

/-- The counters of one identity report: ids added, normalized and deduplicated
(`RuleIdentityReport`, and a third of `PolicyItemIdentityReport`). -/
structure IdentityReport where
  added : Nat := 0
  normalized : Nat := 0
  deduped : Nat := 0
  deriving DecidableEq, Repr

/-- `Changed`: was any id of the kind added, trimmed or replaced? -/
def IdentityReport.changed (r : IdentityReport) : Bool :=
  decide (0 < r.added) || decide (0 < r.deduped) || decide (0 < r.normalized)

/-- Counters of two stretches of a loop. -/
def IdentityReport.add (a b : IdentityReport) : IdentityReport :=
  ⟨a.added + b.added, a.normalized + b.normalized, a.deduped + b.deduped⟩

/-- The suffix loop: while the current id is taken, try the next suffix. Among more
candidates than ids taken one is free, so `seen.length + 1` rounds are enough. -/
def dedupeLoop (base : String) (seen : List String) : Nat → Nat → String → Nat → String × Nat
  | 0, _, cur, k => (cur, k)
  | fuel + 1, suffix, cur, k =>
      if seen.contains cur then
        dedupeLoop base seen fuel (suffix + 1) (withRuleIDSuffix base suffix) (k + 1)
      else (cur, k)

/-- The first three branches: trim the id, and generate one when it is missing or
malformed. -/
def repairID (generated id : String) : String × IdentityReport :=
  let trimmed := trimSpace id
  if trimmed = "" then (generated, { added := 1 })
  else if !ValidRuleID trimmed then (generated, { normalized := 1 })
  else if trimmed ≠ id then (trimmed, { normalized := 1 })
  else (id, {})

/-- One round of a normalization loop: the id an item ends up with, given the id it
would be generated and the ids already taken. -/
def normalizeID (generated : String) (seen : List String) (id : String) :
    String × IdentityReport :=
  let repaired := repairID generated id
  let fresh :=
    if seen.contains repaired.1 then (generated, repaired.2.add { deduped := 1 })
    else repaired
  let unique := dedupeLoop fresh.1 seen (seen.length + 1) 2 fresh.1 0
  (unique.1, fresh.2.add { deduped := unique.2 })

/-- The suffix loop returns its start, when that is free, or ends on a suffixed id. -/
theorem dedupeLoop_valid {base : String} {seen : List String} (hb : ValidRuleID base = true) :
    ∀ {fuel suffix : Nat} {cur : String} {k : Nat}, ValidRuleID cur = true →
      ValidRuleID (dedupeLoop base seen fuel suffix cur k).1 = true := by
  intro fuel
  induction fuel with
  | zero => intro suffix cur k h; exact h
  | succ fuel ih =>
      intro suffix cur k h
      simp only [dedupeLoop]
      split
      · exact ih (ValidRuleID_withRuleIDSuffix hb suffix)
      · exact h

/-- A free id is left alone by the suffix loop. -/
theorem dedupeLoop_free {base cur : String} {seen : List String} {fuel suffix k : Nat}
    (h : seen.contains cur = false) :
    dedupeLoop base seen (fuel + 1) suffix cur k = (cur, k) := by
  simp only [dedupeLoop, h, Bool.false_eq_true, if_false]

theorem repairID_valid {generated : String} (id : String) (hg : ValidRuleID generated = true) :
    ValidRuleID (repairID generated id).1 = true := by
  unfold repairID
  simp only
  split
  · exact hg
  · split
    · exact hg
    · rename_i hv
      split
      · simpa using hv
      · rename_i htrim
        rw [not_not] at htrim
        simpa [htrim] using hv

/-- A well-formed id needs no repair. -/
theorem repairID_of_valid {generated id : String} (h : ValidRuleID id = true) :
    repairID generated id = (id, {}) := by
  have hv := h
  simp only [ValidRuleID, Bool.and_eq_true, bne_iff_ne, ne_eq, beq_iff_eq] at hv
  obtain ⟨⟨hne, htrim⟩, -⟩ := hv
  simp [repairID, htrim, hne, h]

theorem normalizeID_valid {generated : String} (id : String) (seen : List String)
    (hg : ValidRuleID generated = true) : ValidRuleID (normalizeID generated seen id).1 = true := by
  have hr := repairID_valid id hg
  unfold normalizeID
  simp only
  split
  · exact dedupeLoop_valid hg hg
  · exact dedupeLoop_valid hr hr

/-- Normalizing an id a second time, against the same ids taken, changes nothing. -/
theorem normalizeID_idem {generated id : String} {seen : List String}
    (hg : ValidRuleID generated = true) :
    (normalizeID generated seen (normalizeID generated seen id).1).1 =
      (normalizeID generated seen id).1 := by
  have hv := normalizeID_valid id seen hg
  generalize hid : (normalizeID generated seen id).1 = id' at hv ⊢
  by_cases hfree : seen.contains id' = false
  · simp only [normalizeID, repairID_of_valid hv, hfree, Bool.false_eq_true, if_false,
      dedupeLoop_free hfree]
  · -- The id is taken: the suffix loop was entered, so it started from the generated
    -- id, and the second pass starts it from there again.
    simp only [Bool.not_eq_false] at hfree
    have hsecond : (normalizeID generated seen id').1 =
        (dedupeLoop generated seen (seen.length + 1) 2 generated 0).1 := by
      simp only [normalizeID, repairID_of_valid hv, hfree, if_true]
    by_cases hrep : seen.contains (repairID generated id).1 = false
    · have : id' = (repairID generated id).1 := by
        rw [← hid]
        simp only [normalizeID, hrep, Bool.false_eq_true, if_false, dedupeLoop_free hrep]
      rw [this, hrep] at hfree
      exact absurd hfree Bool.false_ne_true
    · simp only [Bool.not_eq_false] at hrep
      rw [hsecond, ← hid]
      simp only [normalizeID, hrep, if_true]

/-! ### The loops

A loop carries the ids it has met. They are pairwise different and valid throughout, and nothing of
an item changes but its id. -/

/-- What a normalization loop knows about its items. -/
structure ItemKind (α : Type) where
  id : α → String
  withID : α → String → α
  generated : α → Nat → String

/-- Loop state: position, ids taken, counters. -/
structure LoopState where
  index : Nat := 0
  seen : List String := []
  report : IdentityReport := {}

/-- One round: normalize the item's id and mark it as taken. -/
def normalizeStep {α : Type} (K : ItemKind α) (s : LoopState) (a : α) : α × LoopState :=
  let r := normalizeID (K.generated a s.index) s.seen (K.id a)
  (K.withID a r.1, ⟨s.index + 1, r.1 :: s.seen, s.report.add r.2⟩)

/-- A normalization loop from a set of ids already taken. -/
def normalizeItems {α : Type} (K : ItemKind α) (seen : List String) (items : List α) :
    List α × LoopState :=
  mapAccum (normalizeStep K) { seen } items

/-- An item kind behaves like a record with an id field: writing the id changes it and
nothing the generated id depends on, and generated ids are well formed. -/
structure ItemKind.Lawful {α : Type} (K : ItemKind α) : Prop where
  id_withID : ∀ a id, K.id (K.withID a id) = id
  withID_withID : ∀ a id id', K.withID (K.withID a id) id' = K.withID a id'
  generated_withID : ∀ a id i, K.generated (K.withID a id) i = K.generated a i
  generated_valid : ∀ a i, ValidRuleID (K.generated a i) = true

/-- Two loop states that differ at most in their counters. -/
def LoopState.Same (s t : LoopState) : Prop := t.index = s.index ∧ t.seen = s.seen

theorem normalizeItems_idem {α : Type} {K : ItemKind α} (hK : K.Lawful) (seen : List String)
    (items : List α) :
    (normalizeItems K seen (normalizeItems K seen items).1).1 = (normalizeItems K seen items).1 ∧
      (normalizeItems K seen items).2.Same
        (normalizeItems K seen (normalizeItems K seen items).1).2 := by
  apply mapAccum_idem LoopState.Same _ ⟨rfl, rfl⟩
  rintro s t a ⟨hi, hs⟩
  have hid : (normalizeID (K.generated a s.index) s.seen
      (normalizeID (K.generated a s.index) s.seen (K.id a)).1).1 =
      (normalizeID (K.generated a s.index) s.seen (K.id a)).1 :=
    normalizeID_idem (hK.generated_valid a s.index)
  simp only [normalizeStep, LoopState.Same, hK.id_withID, hK.generated_withID, hi, hs,
    hK.withID_withID, hid, and_self]

/-- Normalization changes nothing that does not depend on the id. -/
theorem normalizeItems_map {α γ : Type} {K : ItemKind α} {f : α → γ}
    (hf : ∀ a id, f (K.withID a id) = f a) (seen : List String) (items : List α) :
    (normalizeItems K seen items).1.map f = items.map f :=
  mapAccum_map_eq f f (fun _ _ => hf _ _) items _

/-- Forwarding rules. -/
def ruleKind (H : IdentityHash) : ItemKind Rule :=
  ⟨(·.id), fun r id => { r with id }, generatedRuleID H⟩

/-- Host-input rules. -/
def hostInputKind (H : IdentityHash) : ItemKind HostInputRule :=
  ⟨(·.id), fun r id => { r with id }, generatedHostInputID H⟩

/-- Source translations. -/
def sourceNatKind (H : IdentityHash) : ItemKind SourceNat :=
  ⟨(·.id), fun r id => { r with id }, generatedSourceNatID H⟩

/-- Destination translations. -/
def destinationNatKind (H : IdentityHash) : ItemKind DestinationNat :=
  ⟨(·.id), fun r id => { r with id }, generatedDestinationNatID H⟩

theorem ruleKind_lawful (H : IdentityHash) : (ruleKind H).Lawful where
  id_withID _ _ := rfl
  withID_withID _ _ _ := rfl
  generated_withID _ _ _ := rfl
  generated_valid _ _ := ValidRuleID_generatedID ⟨'r', "ule-".toList, by decide⟩ (H.rule_hash _ _)

theorem hostInputKind_lawful (H : IdentityHash) : (hostInputKind H).Lawful where
  id_withID _ _ := rfl
  withID_withID _ _ _ := rfl
  generated_withID _ _ _ := rfl
  generated_valid _ _ :=
    ValidRuleID_generatedID ⟨'h', "ost-input-".toList, by decide⟩ (H.hostInput_hash _ _)

theorem sourceNatKind_lawful (H : IdentityHash) : (sourceNatKind H).Lawful where
  id_withID _ _ := rfl
  withID_withID _ _ _ := rfl
  generated_withID _ _ _ := rfl
  generated_valid _ _ :=
    ValidRuleID_generatedID ⟨'s', "nat-".toList, by decide⟩ (H.sourceNat_hash _ _)

theorem destinationNatKind_lawful (H : IdentityHash) : (destinationNatKind H).Lawful where
  id_withID _ _ := rfl
  withID_withID _ _ _ := rfl
  generated_withID _ _ _ := rfl
  generated_valid _ _ :=
    ValidRuleID_generatedID ⟨'d', "nat-".toList, by decide⟩ (H.destinationNat_hash _ _)

/-! ### The two passes

Rules have ids of their own. The other three kinds share the ids they have met, in this order. -/

/-- `NormalizeRuleIDs`: the first pass, over the rules. -/
def NormalizeRuleIDs (H : IdentityHash) (p : Phragma.Policy) : Phragma.Policy × IdentityReport :=
  let r := normalizeItems (ruleKind H) [] p.rules
  ({ p with rules := r.1 }, r.2.report)

/-- `PolicyItemIdentityReport`: what the second pass did, for each kind. -/
structure PolicyItemIdentityReport where
  hostInput : IdentityReport := {}
  sourceNat : IdentityReport := {}
  destinationNat : IdentityReport := {}
  deriving DecidableEq, Repr

/-- `Changed`: did it do anything? -/
def PolicyItemIdentityReport.changed (r : PolicyItemIdentityReport) : Bool :=
  r.hostInput.changed || r.sourceNat.changed || r.destinationNat.changed

/-- The host-input part of the item pass, with the ids it has taken. -/
def normalizeHostInput (H : IdentityHash) (p : Phragma.Policy) :
    Option HostInput × LoopState :=
  match p.hostInput with
  | none => (none, {})
  | some hi =>
      let r := normalizeItems (hostInputKind H) [] hi.rules
      (some { hi with rules := r.1 }, r.2)

/-- The translation part of the item pass: sources, then destinations. -/
def normalizeNat (H : IdentityHash) (seen : List String) :
    Option NatRules → Option NatRules × IdentityReport × IdentityReport
  | none => (none, {}, {})
  | some nat =>
      let src := normalizeItems (sourceNatKind H) seen nat.source
      let dst := normalizeItems (destinationNatKind H) src.2.seen nat.destination
      (some { source := src.1, destination := dst.1 }, src.2.report, dst.2.report)

/-- `NormalizePolicyItemIDs`: the second pass, over the rules on traffic to the firewall and the
translations. -/
def NormalizePolicyItemIDs (H : IdentityHash) (p : Phragma.Policy) :
    Phragma.Policy × PolicyItemIdentityReport :=
  let hi := normalizeHostInput H p
  let nat := normalizeNat H hi.2.seen p.nat
  ({ p with hostInput := hi.1, nat := nat.1 },
    { hostInput := hi.2.report, sourceNat := nat.2.1, destinationNat := nat.2.2 })

/-- Both passes in the order every caller runs them (`normalizePolicyIdentities`). -/
def normalizeIdentities (H : IdentityHash) (p : Phragma.Policy) : Phragma.Policy :=
  (NormalizePolicyItemIDs H (NormalizeRuleIDs H p).1).1

theorem normalizeHostInput_idem (H : IdentityHash) (p p' : Phragma.Policy)
    (hp : p'.hostInput = (normalizeHostInput H p).1) :
    (normalizeHostInput H p').1 = (normalizeHostInput H p).1 ∧
      (normalizeHostInput H p).2.Same (normalizeHostInput H p').2 := by
  unfold normalizeHostInput at hp ⊢
  cases hhi : p.hostInput with
  | none =>
      simp only [hhi] at hp
      simp [hp, LoopState.Same]
  | some hi =>
      simp only [hhi] at hp
      obtain ⟨h1, h2⟩ := normalizeItems_idem (hostInputKind_lawful H) [] hi.rules
      simp only [hp, h1]
      exact ⟨trivial, h2⟩

theorem normalizeNat_idem (H : IdentityHash) (seen : List String) (nat : Option NatRules) :
    (normalizeNat H seen (normalizeNat H seen nat).1).1 = (normalizeNat H seen nat).1 := by
  cases nat with
  | none => rfl
  | some n =>
      obtain ⟨h1, h1'⟩ :=
        normalizeItems_idem (sourceNatKind_lawful H) seen n.source
      obtain ⟨h2, -⟩ := normalizeItems_idem (destinationNatKind_lawful H)
        (normalizeItems (sourceNatKind H) seen n.source).2.seen n.destination
      simp only [normalizeNat, h1, h1'.2, h2]

theorem NormalizeRuleIDs_idem (H : IdentityHash) (p : Phragma.Policy) :
    (NormalizeRuleIDs H (NormalizeRuleIDs H p).1).1 = (NormalizeRuleIDs H p).1 := by
  simp only [NormalizeRuleIDs, (normalizeItems_idem (ruleKind_lawful H) _ _).1]

theorem NormalizePolicyItemIDs_idem (H : IdentityHash) (p : Phragma.Policy) :
    (NormalizePolicyItemIDs H (NormalizePolicyItemIDs H p).1).1 =
      (NormalizePolicyItemIDs H p).1 := by
  obtain ⟨h1, h2⟩ := normalizeHostInput_idem H p (NormalizePolicyItemIDs H p).1 rfl
  have h3 := normalizeNat_idem H (normalizeHostInput H p).2.seen p.nat
  simp only [NormalizePolicyItemIDs] at h1 h2 ⊢
  rw [h1, h2.2, h3]

/-- The rule pass changes nothing after both passes. -/
theorem NormalizeRuleIDs_normalizeIdentities (H : IdentityHash) (p : Phragma.Policy) :
    (NormalizeRuleIDs H (normalizeIdentities H p)).1 = normalizeIdentities H p := by
  have h := congrArg Policy.rules (NormalizeRuleIDs_idem H p)
  simp only [NormalizeRuleIDs] at h
  simp only [normalizeIdentities, NormalizePolicyItemIDs, NormalizeRuleIDs, h]

/-- **Normalization is idempotent**: a policy that has been normalized once is handed
on unchanged by every later component that normalizes again. -/
theorem normalizeIdentities_idem (H : IdentityHash) (p : Phragma.Policy) :
    normalizeIdentities H (normalizeIdentities H p) = normalizeIdentities H p := by
  rw [normalizeIdentities, NormalizeRuleIDs_normalizeIdentities]
  exact NormalizePolicyItemIDs_idem H (NormalizeRuleIDs H p).1

/-- The rule pass alone is absorbed by both passes. -/
theorem normalizeIdentities_NormalizeRuleIDs (H : IdentityHash) (p : Phragma.Policy) :
    normalizeIdentities H (NormalizeRuleIDs H p).1 = normalizeIdentities H p := by
  rw [normalizeIdentities, NormalizeRuleIDs_idem, normalizeIdentities]

/-! Normalization changes ids only. -/

theorem normalizeIdentities_rules_map {γ : Type} (H : IdentityHash) (p : Phragma.Policy)
    {f : Rule → γ} (hf : ∀ r id, f { r with id } = f r) :
    (normalizeIdentities H p).rules.map f = p.rules.map f :=
  normalizeItems_map (K := ruleKind H) hf [] p.rules

theorem normalizeIdentities_destination_map {γ : Type} (H : IdentityHash) (p : Phragma.Policy)
    {f : DestinationNat → γ} (hf : ∀ r id, f { r with id } = f r) :
    (normalizeIdentities H p).getNat.destination.map f = p.getNat.destination.map f := by
  simp only [getNat, normalizeIdentities, NormalizePolicyItemIDs, NormalizeRuleIDs]
  cases p.nat with
  | none => rfl
  | some n => exact normalizeItems_map (K := destinationNatKind H) hf _ n.destination

end Phragma.Policy
