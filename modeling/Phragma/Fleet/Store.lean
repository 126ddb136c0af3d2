import Phragma.Go.Json
import Phragma.Lib.Machine
import Phragma.Lib.Allot
import Phragma.Policy.RuleIdentity

/-!
# Phragma.Fleet.Store

The registry of fleet templates, `internal/fleet/store.go`: a JSON file that every operation
reads, and those that change something write anew.

Its templates have pairwise different ids in normal form, and are found under them until they
are deleted. The policy of a template is kept as the JSON that it was given as, but the file is
written with indentation, so what is read back is **another text of the same policy**: it may
be too long for `DecodePolicy` (`decodePolicy_stored`), and the revision, which is a digest of
the text, is no longer that of the template. `templates_survive` is about runs in which the text
stays what it is.

`encoding/json` and `protojson` are parameters with the laws that the store relies on. Of a
record the fields stand here that some function of the store reads.
-/

namespace Phragma.Fleet

open Lib Go Policy

/-! ### Texts

Texts are cut to a size, in bytes, and trimmed before and after. -/

def MaxTemplates : Nat := 100
def MaxApplyResults : Nat := 50
def MaxPolicyJSONBytes : Nat := 2 * 2 ^ 20
def MaxTemplateNameSize : Nat := 120

/-- The first `limit` bytes of a string. A rune that does not fit leaves stray bytes. -/
def cutBytes : Nat → GoString → GoString
  | _, [] => []
  | limit, r :: rs =>
      if r.bytes.length ≤ limit then r :: cutBytes (limit - r.bytes.length) rs
      else (r.bytes.take limit).map .byte

/-- `trimSized`: a text of at most so many bytes. -/
def trimSized (value : GoString) (limit : Nat) : GoString :=
  let value := value.trimSpace
  if value.bytes.length ≤ limit then value else (cutBytes limit value).trimSpace

/-- `strings.Fields`, with the field that is being read, in reverse. -/
def goFields : GoString → GoString → List GoString
  | field, [] => if field = [] then [] else [field.reverse]
  | field, r :: rs =>
      if r.isSpace then
        if field = [] then goFields [] rs else field.reverse :: goFields [] rs
      else goFields (r :: field) rs

/-- `cleanTemplateName`: a name in one line, of at most so many bytes. -/
def cleanTemplateName (value : GoString) : GoString :=
  trimSized ([.char ' '].intercalate (goFields [] value)) MaxTemplateNameSize

/-! ### Template ids

An id is made of the name and of three random bytes. When it is taken, numbers are appended until
one is free. -/

/-- `[a-z0-9_.-]`: the characters of an id. -/
def isSlugChar (c : Char) : Bool := isLowerAlnum c || c == '_' || c == '.' || c == '-'

/-- The separators that are trimmed off a slug. -/
def slugTrimChars : List Char := ['-', '_', '.']

/-- The slug of a name. `strings.ToLower` turns stray bytes to U+FFFD. Past the replacement
every character is ASCII, so lengths in bytes are lengths of the list. -/
def templateSlug (name : GoString) : List Char :=
  let lowered := name.map fun r => toLowerRune r.toChar
  let slug := trim slugTrimChars (replaceRuns (fun c => !isSlugChar c) 1 [] lowered)
  let slug := if slug = [] then "template".toList else slug
  if 48 < slug.length then trim slugTrimChars (slug.take 48) else slug

/-- `randomSuffix(3)`, from the bytes drawn, if there are any. -/
def randomSuffix (raw : Option { raw : List UInt8 // raw.length = 3 }) : List Char :=
  match raw with
  | none => "000000".toList
  | some raw => raw.1.flatMap fun b => hexByte b.toNat

/-- `newTemplateID`: a new id. Without random bytes it ends in a fixed text. -/
def newTemplateID (name : GoString) (raw : Option { raw : List UInt8 // raw.length = 3 }) :
    String :=
  String.ofList ("tmpl-".toList ++ (templateSlug name ++ '-' :: randomSuffix raw))

/-- `templateIDRE`: the form of an id. -/
def templateIDRE (id : List Char) : Bool :=
  match id with
  | 't' :: 'm' :: 'p' :: 'l' :: '-' :: c :: cs =>
      isLowerAlnum c && cs.all isSlugChar && decide (1 ≤ cs.length) && decide (cs.length ≤ 79)
  | _ => false

/-- `NormalizeTemplateID`: an id as ids are stored, or an error. -/
def NormalizeTemplateID (id : String) : Except String String :=
  let clean := trimSpace (toLower id)
  if clean = "" then .error "template id is required"
  else if !templateIDRE clean.toList then .error "invalid template id"
  else .ok clean

/-- A base id, or one of its numbered forms from 2 on. -/
def numberedID (base : String) : Nat → String
  | 0 => base
  | i + 1 => base ++ "-" ++ decimal (i + 2)

/-- The loop of `CreateTemplate` that looks for a free id, from the `i`-th on. -/
def freeID (base : String) (existing : List String) : Nat → Nat → String
  | 0, i => numberedID base i
  | fuel + 1, i =>
      if numberedID base i ∈ existing then freeID base existing fuel (i + 1)
      else numberedID base i

/-! ### The registry

The registry is one file, read and written as a whole by every call, under a lock. Encoding and
decoding are those of a codec. -/

/-- What the store reads of a `TemplateRecord`. -/
structure TemplateRecord where
  id : String
  name : GoString
  scope : GoString
  policy : List UInt8
  revision : String
  deriving DecidableEq

/-- What the store reads of an `ApplyRecord`. -/
structure ApplyRecord where
  templateID : String
  deriving DecidableEq

/-- `Registry`, as it is read from the file. A file that is not there reads as an empty one. -/
structure Registry where
  templates : List TemplateRecord
  applyResults : List ApplyRecord
  deriving DecidableEq

def Registry.empty : Registry := ⟨[], []⟩

/-- `protojson` on policies, and what `encoding/json` does to a raw message that is written with
`MarshalIndent` and read back. -/
structure Codec (π : Type) where
  marshal : π → Except String (List UInt8)
  unmarshal : List UInt8 → Except String π
  reindent : List UInt8 → List UInt8
  sha256 : List UInt8 → List UInt8
  marshal_ne_nil : ∀ {p raw}, marshal p = .ok raw → raw ≠ []
  unmarshal_marshal : ∀ {p raw}, marshal p = .ok raw → unmarshal raw = .ok p
  /-- Another text of the same policy, -/
  reindent_ne_nil : ∀ {p raw}, unmarshal raw = .ok p → raw ≠ [] → reindent raw ≠ []
  unmarshal_reindent : ∀ {p raw}, unmarshal raw = .ok p → unmarshal (reindent raw) = .ok p
  /-- which depends on the policy's tokens only. -/
  reindent_reindent : ∀ {p raw}, unmarshal raw = .ok p → reindent (reindent raw) = reindent raw

section Operations

variable {π : Type} (C : Codec π)

/-- `TemplateRevision`: the digest of what a template is about: its name, the stored bytes of its
policy, and its scope. -/
def TemplateRevision (record : TemplateRecord) : String :=
  let digest := C.sha256 (record.name.bytes ++ 0 :: (record.policy ++ 0 :: record.scope.bytes))
  "sha256:" ++ String.ofList (digest.flatMap fun b => hexByte b.toNat)

/-- `DecodePolicy`: the policy in stored bytes. -/
def DecodePolicy (raw : List UInt8) : Except String π :=
  if raw.length = 0 then .error "policy is required"
  else if MaxPolicyJSONBytes < raw.length then
    .error ("policy JSON exceeds " ++ decimal MaxPolicyJSONBytes ++ " bytes")
  else C.unmarshal raw

/-- A record as it is read back. -/
def Codec.stored (record : TemplateRecord) : TemplateRecord :=
  { record with
    name := jsonString record.name
    scope := jsonString record.scope
    policy := C.reindent record.policy }

/-- `writeRegistry`: what `readRegistry` then reads, if it can be written. -/
def writeRegistry (write : Except String Unit) (registry file : Registry) :
    Except String Unit × Registry :=
  match write with
  | .error err => (.error err, file)
  | .ok () => (.ok (), { registry with templates := registry.templates.map C.stored })

/-- What the store reads of a `CreateTemplateInput`. -/
structure CreateTemplateInput (π : Type) where
  name : GoString
  scope : GoString
  policy : Option π

/-- The scope of a template. -/
def CreateTemplateInput.templateScope (input : CreateTemplateInput π) : GoString :=
  if input.scope.trimSpace = [] then GoString.ofString "local-appliance"
  else input.scope.trimSpace

/-- The record of a template with the text of its policy, before its id is free. -/
def newRecord (input : CreateTemplateInput π) (policyJSON : List UInt8)
    (raw : Option { raw : List UInt8 // raw.length = 3 }) : TemplateRecord :=
  let record : TemplateRecord :=
    { id := newTemplateID (cleanTemplateName input.name) raw
      name := cleanTemplateName input.name
      scope := input.templateScope
      policy := policyJSON
      revision := "" }
  { record with revision := TemplateRevision C record }

/-- `CreateTemplate`, with the bytes it draws and whether the file can be written. -/
def CreateTemplate (input : CreateTemplateInput π)
    (raw : Option { raw : List UInt8 // raw.length = 3 }) (write : Except String Unit)
    (file : Registry) : Except String TemplateRecord × Registry :=
  match input.policy with
  | none => (.error "policy is required", file)
  | some p =>
      if cleanTemplateName input.name = [] then (.error "name is required", file)
      else
        match C.marshal p with
        | .error err => (.error ("marshal policy: " ++ err), file)
        | .ok policyJSON =>
            if MaxPolicyJSONBytes < policyJSON.length then
              (.error ("policy JSON exceeds " ++ decimal MaxPolicyJSONBytes ++ " bytes"), file)
            else if MaxTemplates ≤ file.templates.length then
              (.error "fleet template limit exceeded", file)
            else
              let record := newRecord C input policyJSON raw
              let existing := file.templates.map TemplateRecord.id
              let record := { record with id := freeID record.id existing existing.length 0 }
              let registry := { file with templates := record :: file.templates }
              match writeRegistry C write registry file with
              | (.error err, file) => (.error err, file)
              | (.ok (), file) => (.ok record, file)

/-- `GetTemplate`: the template of an id. -/
def GetTemplate (id : String) (file : Registry) : Except String TemplateRecord :=
  match NormalizeTemplateID id with
  | .error err => .error err
  | .ok id =>
      match file.templates.find? fun record => record.id = id with
      | some record => .ok record
      | none => .error "fleet template not found"

/-- `DeleteTemplate`: the registry without it. -/
def DeleteTemplate (id : String) (write : Except String Unit) (file : Registry) :
    Except String Unit × Registry :=
  match NormalizeTemplateID id with
  | .error err => (.error err, file)
  | .ok id =>
      if file.templates.any fun record => record.id = id then
        let next := file.templates.filter fun record => record.id ≠ id
        writeRegistry C write { file with templates := next } file
      else (.error "fleet template not found", file)

/-- `RecordApplyResult`: one more result in front, of which so many are kept. -/
def RecordApplyResult (templateID : String) (write : Except String Unit) (file : Registry) :
    Except String ApplyRecord × Registry :=
  let templateID := trimSpace (toLower templateID)
  if templateID = "" then (.error "template id is required", file)
  else
    let results := (⟨templateID⟩ :: file.applyResults).take MaxApplyResults
    match writeRegistry C write { file with applyResults := results } file with
    | (.error err, file) => (.error err, file)
    | (.ok (), file) => (.ok ⟨templateID⟩, file)

/-- A call of the store that may change the file. -/
inductive FleetCall (π : Type)
  | create (input : CreateTemplateInput π) (raw : Option { raw : List UInt8 // raw.length = 3 })
      (write : Except String Unit)
  | delete (id : String) (write : Except String Unit)
  | recordApply (templateID : String) (write : Except String Unit)

/-- What a call returns. -/
inductive FleetResult
  | created (record : TemplateRecord)
  | deleted
  | recorded (record : ApplyRecord)
  | failed (err : String)

/-- Run a call. -/
def execFleet : FleetCall π → Registry → FleetResult × Registry
  | .create input raw write, file =>
      match CreateTemplate C input raw write file with
      | (.ok record, file) => (.created record, file)
      | (.error err, file) => (.failed err, file)
  | .delete id write, file =>
      match DeleteTemplate C id write file with
      | (.ok (), file) => (.deleted, file)
      | (.error err, file) => (.failed err, file)
  | .recordApply templateID write, file =>
      match RecordApplyResult C templateID write file with
      | (.ok record, file) => (.recorded record, file)
      | (.error err, file) => (.failed err, file)

end Operations

/-! ### Ids are in normal form

A new id has the form that `NormalizeTemplateID` asks for and is not changed by it, so a template is
found by the id it was given. -/

/-- The text of a template id: what `templateIDRE` accepts, in its parts. -/
structure IDText (id : String) (first : Char) (rest : List Char) : Prop where
  toList : id.toList = "tmpl-".toList ++ first :: rest
  first : isLowerAlnum first = true
  rest : ∀ c ∈ rest, isSlugChar c = true

theorem isSlugChar_of_isLowerAlnum {c : Char} (h : isLowerAlnum c = true) :
    isSlugChar c = true := by
  simp [isSlugChar, h]

theorem isLowerAlnum_of_slugChar {c : Char} (h : isSlugChar c = true)
    (hc : slugTrimChars.contains c = false) : isLowerAlnum c = true := by
  simp only [isSlugChar, Bool.or_eq_true, beq_iff_eq] at h
  rcases h with ((h | rfl) | rfl) | rfl
  · exact h
  all_goals exact absurd hc (by decide)

/-- A trimmed text starts with a character that is not trimmed. -/
theorem trim_eq_cons {cutset l : List Char} {c : Char} {cs : List Char}
    (h : trim cutset l = c :: cs) : cutset.contains c = false := by
  have hpre : trimList (fun c => cutset.contains c) l <+:
      l.dropWhile fun c => cutset.contains c := by
    unfold trimList
    exact List.reverse_suffix.mp (by simpa using List.dropWhile_suffix _)
  rw [show trimList _ l = c :: cs from h] at hpre
  obtain ⟨t, ht⟩ := hpre
  have hhead := List.head?_dropWhile_not (fun c => cutset.contains c) l
  rw [← ht] at hhead
  exact hhead

/-- A slug has at most 48 characters, the first of which is a letter or a digit. -/
theorem templateSlug_text (name : GoString) : ∃ c cs, templateSlug name = c :: cs ∧
    isLowerAlnum c = true ∧ (∀ x ∈ cs, isSlugChar x = true) ∧ cs.length ≤ 47 := by
  unfold templateSlug
  dsimp only
  generalize name.map (fun r => toLowerRune r.toChar) = lowered
  -- the slug before it is cut
  obtain ⟨c, cs, hslug, hc, hcs⟩ : ∃ c cs,
      (if trim slugTrimChars (replaceRuns (fun c => !isSlugChar c) 1 [] lowered) = [] then
        "template".toList
      else trim slugTrimChars (replaceRuns (fun c => !isSlugChar c) 1 [] lowered)) = c :: cs ∧
      isLowerAlnum c = true ∧ ∀ x ∈ cs, isSlugChar x = true := by
    split
    · exact ⟨'t', "emplate".toList, rfl, by decide, by decide⟩
    · next hne =>
        obtain ⟨c, cs, hslug⟩ := List.exists_cons_of_ne_nil hne
        have hall : ∀ x ∈ c :: cs, isSlugChar x = true := by
          intro x hx
          rw [← hslug] at hx
          rcases not_mem_replaceRuns_one (mem_of_mem_trimList hx) with rfl | h
          · decide
          · simpa using h
        exact ⟨c, cs, hslug, isLowerAlnum_of_slugChar (hall c List.mem_cons_self)
          (trim_eq_cons hslug), fun x hx => hall x (List.mem_cons_of_mem _ hx)⟩
  rw [hslug]
  split
  · rw [List.take_succ_cons]
    have hkeep : slugTrimChars.contains c = false := by
      by_contra htrim
      rw [Bool.not_eq_false, List.contains_iff_mem] at htrim
      have hall : ∀ x ∈ slugTrimChars, isLowerAlnum x = false := by decide
      rw [hall c htrim] at hc
      cases hc
    obtain ⟨t, ht, hpre⟩ := trimList_cons (l := cs.take 47) hkeep
    refine ⟨c, t, ht, hc, fun x hx => hcs x (List.mem_of_mem_take (hpre.subset hx)), ?_⟩
    have := hpre.length_le
    rw [List.length_take] at this
    omega
  · next hlen =>
      rw [List.length_cons] at hlen
      exact ⟨c, cs, rfl, hc, hcs, by omega⟩

theorem isSlugChar_randomSuffix (raw : Option { raw : List UInt8 // raw.length = 3 }) :
    (∀ c ∈ randomSuffix raw, isSlugChar c = true) ∧ (randomSuffix raw).length = 6 := by
  cases raw with
  | none => exact ⟨by decide, rfl⟩
  | some raw =>
      obtain ⟨raw, hlen⟩ := raw
      have hdigit : ∀ n < 16, isSlugChar (hexDigit n) = true := by decide
      constructor
      · intro c hc
        obtain ⟨b, -, hc⟩ := List.mem_flatMap.mp hc
        simp only [hexByte, List.mem_cons, List.not_mem_nil, or_false] at hc
        rcases hc with rfl | rfl
        · exact hdigit _ (Nat.mod_lt _ (by decide))
        · exact hdigit _ (Nat.mod_lt _ (by decide))
      · show (raw.flatMap fun b => hexByte b.toNat).length = 6
        rw [List.length_flatMap]
        simp [hexByte, hlen]

/-- A new id is in normal form, with room for a number behind it. -/
theorem newTemplateID_text (name : GoString)
    (raw : Option { raw : List UInt8 // raw.length = 3 }) :
    ∃ c cs, IDText (newTemplateID name raw) c cs ∧ 1 ≤ cs.length ∧ cs.length ≤ 54 := by
  obtain ⟨c, cs, hslug, hc, hcs, hlen⟩ := templateSlug_text name
  obtain ⟨hsuffix, hsix⟩ := isSlugChar_randomSuffix raw
  refine ⟨c, cs ++ '-' :: randomSuffix raw, ⟨?_, hc, ?_⟩, ?_, ?_⟩
  · refine String.toList_ofList.trans ?_
    rw [hslug, List.cons_append]
  · intro x hx
    rcases List.mem_append.mp hx with hx | hx
    · exact hcs x hx
    · rcases List.mem_cons.mp hx with rfl | hx
      · decide
      · exact hsuffix x hx
  · rw [List.length_append, List.length_cons, hsix]
    omega
  · rw [List.length_append, List.length_cons, hsix]
    omega

theorem IDText.numbered {id : String} {c : Char} {cs : List Char} (h : IDText id c cs)
    (hlen : 1 ≤ cs.length ∧ cs.length ≤ 54) {i : Nat} (hi : i ≤ 100) :
    ∃ cs', IDText (numberedID id i) c cs' ∧ 1 ≤ cs'.length ∧ cs'.length ≤ 79 := by
  cases i with
  | zero => exact ⟨cs, h, hlen.1, by omega⟩
  | succ i =>
      have hdigits : (decimal (i + 2)).toList.length ≤ 3 :=
        (length_decimal (by decide)).mpr (by omega)
      refine ⟨cs ++ '-' :: (decimal (i + 2)).toList, ⟨?_, h.first, ?_⟩, ?_, ?_⟩
      · rw [numberedID, String.toList_append, String.toList_append, h.toList]
        simp
      · intro x hx
        rcases List.mem_append.mp hx with hx | hx
        · exact h.rest x hx
        · rcases List.mem_cons.mp hx with rfl | hx
          · decide
          · exact isSlugChar_of_isLowerAlnum (isLowerAlnum_of_mem_decimal hx)
      · rw [List.length_append]
        omega
      · rw [List.length_append, List.length_cons]
        omega

/-- Slugs are in lower case and have no white space. -/
theorem lower_slugChar {c : Char} (h : isSlugChar c = true) :
    toLowerRune c = c ∧ isSpace c = false := by
  simp only [isSlugChar, isLowerAlnum, Bool.or_eq_true, Bool.and_eq_true, decide_eq_true_eq,
    beq_iff_eq] at h
  rcases h with ((hrange | rfl) | rfl) | rfl
  · have hnat : (97 ≤ c.toNat ∧ c.toNat ≤ 122) ∨ (48 ≤ c.toNat ∧ c.toNat ≤ 57) := hrange
    have hupper : ¬ ('A' ≤ c ∧ c ≤ 'Z') := by
      intro h
      have : 65 ≤ c.toNat ∧ c.toNat ≤ 90 := h
      omega
    constructor
    · rw [toLowerRune, if_neg hupper, if_neg (by simp; omega), if_neg (by simp; omega)]
    · simp only [isSpace, Bool.or_eq_false_iff, Bool.and_eq_false_iff, beq_eq_false_iff_ne,
        decide_eq_false_iff_not]
      omega
  all_goals decide

/-- An id in normal form is accepted as it is. -/
theorem normalizeTemplateID_eq {id : String} {c : Char} {cs : List Char} (h : IDText id c cs)
    (hlen : 1 ≤ cs.length ∧ cs.length ≤ 79) : NormalizeTemplateID id = .ok id := by
  have hall : ∀ x ∈ id.toList, isSlugChar x = true := by
    intro x hx
    rw [h.toList] at hx
    rcases List.mem_append.mp hx with hx | hx
    · have htmpl : ∀ x ∈ "tmpl-".toList, isSlugChar x = true := by decide
      exact htmpl x hx
    · rcases List.mem_cons.mp hx with rfl | hx
      · exact isSlugChar_of_isLowerAlnum h.first
      · exact h.rest x hx
  have hlower : toLower id = id := by
    rw [toLower]
    conv_rhs => rw [← String.ofList_toList (s := id)]
    congr 1
    conv_rhs => rw [← List.map_id id.toList]
    exact List.map_congr_left fun x hx => (lower_slugChar (hall x hx)).1
  have htrim : trimSpace id = id := by
    rw [trimSpace, trimList_eq_self fun x hx => (lower_slugChar (hall x hx)).2,
      String.ofList_toList]
  have hne : id ≠ "" := by
    rintro rfl
    cases h.toList
  have hre : templateIDRE id.toList = true := by
    rw [h.toList]
    show (isLowerAlnum c && cs.all isSlugChar && decide (1 ≤ cs.length) &&
      decide (cs.length ≤ 79)) = true
    simp [h.first, List.all_eq_true.mpr h.rest, hlen]
  rw [NormalizeTemplateID, hlower, htrim, if_neg hne, hre]
  rfl

theorem numberedID_inj {base : String} {i j : Nat} (h : numberedID base i = numberedID base j) :
    i = j := by
  have hlist := congrArg String.toList h
  cases i with
  | zero =>
      cases j with
      | zero => rfl
      | succ j => simp [numberedID] at hlist
  | succ i =>
      cases j with
      | zero => simp [numberedID] at hlist
      | succ j =>
          simp only [numberedID, String.toList_append, List.append_cancel_left_eq] at hlist
          have := decimal_inj hlist
          omega

theorem freeID_eq {base : String} {existing : List String} {fuel i : Nat}
    (h : ∃ d ≤ fuel, numberedID base (i + d) ∉ existing) :
    freeID base existing fuel i ∉ existing ∧
      ∃ d ≤ fuel, freeID base existing fuel i = numberedID base (i + d) := by
  induction fuel generalizing i with
  | zero =>
      obtain ⟨d, hd, hfree⟩ := h
      obtain rfl : d = 0 := by omega
      exact ⟨hfree, 0, le_refl _, rfl⟩
  | succ fuel ih =>
      rw [freeID]
      split
      · next htaken =>
          obtain ⟨d, hd, hfree⟩ := h
          cases d with
          | zero => exact (hfree htaken).elim
          | succ d =>
              obtain ⟨hgone, e, he, heq⟩ :=
                ih ⟨d, by omega, by rwa [Nat.add_right_comm, Nat.add_assoc]⟩
              refine ⟨hgone, e + 1, by omega, ?_⟩
              rw [heq, Nat.add_right_comm, Nat.add_assoc]
      · next hfree => exact ⟨hfree, 0, Nat.zero_le _, rfl⟩

/-- The loop ends, with an id that is free. -/
theorem freeID_spec (base : String) (existing : List String) :
    freeID base existing existing.length 0 ∉ existing ∧
      ∃ i ≤ existing.length, freeID base existing existing.length 0 = numberedID base i := by
  obtain ⟨i, hi, hfree⟩ : ∃ i ≤ existing.length, numberedID base i ∉ existing :=
    exists_free fun i j _ _ h => numberedID_inj h
  obtain ⟨hgone, d, hd, heq⟩ := freeID_eq (i := 0) ⟨i, hi, by rwa [Nat.zero_add]⟩
  exact ⟨hgone, d, hd, by rwa [Nat.zero_add] at heq⟩

/-! ### What a call does

A registry is good if its templates are what their creation made of them. Every call keeps this, and
`execFleet_cases` says what else it can do. -/

section Steps

variable {π : Type} {C : Codec π} {file : Registry}

/-- What holds of every registry that the store has written. -/
structure Registry.Good (C : Codec π) (file : Registry) : Prop where
  nodup : (file.templates.map TemplateRecord.id).Nodup
  named : ∀ t ∈ file.templates, NormalizeTemplateID t.id = .ok t.id
  decodes : ∀ t ∈ file.templates, ∃ p, C.unmarshal t.policy = .ok p
  /-- Writing it once more changes nothing. -/
  stored : ∀ t ∈ file.templates, C.stored t = t

theorem good_empty : Registry.empty.Good C :=
  ⟨List.nodup_nil, (fun t ht => by cases ht), (fun t ht => by cases ht), (fun t ht => by cases ht)⟩

/-- The record that a call of `CreateTemplate` makes of a policy. -/
structure Created (C : Codec π) (input : CreateTemplateInput π) (file : Registry) (p : π)
    (t : TemplateRecord) : Prop where
  policy : input.policy = some p
  marshal : C.marshal p = .ok t.policy
  size : t.policy.length ≤ MaxPolicyJSONBytes
  name : t.name = cleanTemplateName input.name
  scope : t.scope = input.templateScope
  revision : t.revision = TemplateRevision C t
  fresh : t.id ∉ file.templates.map TemplateRecord.id
  named : NormalizeTemplateID t.id = .ok t.id

/-- A record that is read back has the revision it was written with. -/
theorem stored_stored {t : TemplateRecord} {p : π} (h : C.unmarshal t.policy = .ok p) :
    C.stored (C.stored t) = C.stored t := by
  simp only [Codec.stored, C.reindent_reindent h, jsonString_eq_self (valid_jsonString _)]

theorem createTemplate_ok {input : CreateTemplateInput π}
    {raw : Option { raw : List UInt8 // raw.length = 3 }} {write : Except String Unit}
    {t : TemplateRecord} {after : Registry}
    (h : CreateTemplate C input raw write file = (.ok t, after)) :
    (∃ p, Created C input file p t) ∧
      after = { file with templates := (t :: file.templates).map C.stored } := by
  unfold CreateTemplate at h
  split at h
  · cases h
  next p hp =>
  split at h
  · cases h
  split at h
  · cases h
  next policyJSON hmarshal =>
  split at h
  · cases h
  next hsize =>
  split at h
  · cases h
  next hroom =>
  dsimp only at h
  unfold writeRegistry at h
  split at h
  · cases h
  next written hwritten =>
  split at hwritten
  · cases hwritten
  cases hwritten
  cases h
  refine ⟨⟨p, hp, ?_, ?_, ?_, ?_, ?_, ?_, ?_⟩, rfl⟩
  · simpa only [newRecord] using hmarshal
  · simpa only [newRecord, not_lt] using hsize
  · simp only [newRecord]
  · simp only [newRecord]
  · simp only [newRecord, TemplateRevision]
  · exact (freeID_spec _ _).1
  · -- at most a hundred names are tried, so the number has room in the id
    obtain ⟨-, i, hi, heq⟩ := freeID_spec (newRecord C input policyJSON raw).id
      (file.templates.map TemplateRecord.id)
    obtain ⟨c, cs, htext, hlen⟩ := newTemplateID_text (cleanTemplateName input.name) raw
    rw [List.length_map] at hi
    have hMax : MaxTemplates = 100 := rfl
    obtain ⟨cs', htext', hlen'⟩ := htext.numbered hlen (show i ≤ 100 by omega)
    dsimp only
    rw [heq]
    exact normalizeTemplateID_eq htext' hlen'

theorem createTemplate_error {input : CreateTemplateInput π}
    {raw : Option { raw : List UInt8 // raw.length = 3 }} {write : Except String Unit}
    {err : String} {after : Registry}
    (h : CreateTemplate C input raw write file = (.error err, after)) : after = file := by
  unfold CreateTemplate at h
  split at h
  · cases h
    rfl
  split at h
  · cases h
    rfl
  split at h
  · cases h
    rfl
  split at h
  · cases h
    rfl
  split at h
  · cases h
    rfl
  cases write with
  | error e =>
      cases h
      rfl
  | ok _ => cases h

/-- **What a call does** to the templates: one is created, one is deleted, or they stay. -/
theorem execFleet_cases (hgood : file.Good C) (call : FleetCall π) :
    (∃ input raw write t p, call = .create input raw write ∧
      (execFleet C call file).1 = .created t ∧ Created C input file p t ∧
      (execFleet C call file).2.templates = C.stored t :: file.templates) ∨
    (∃ given write id, call = .delete given write ∧ NormalizeTemplateID given = .ok id ∧
      (execFleet C call file).1 = .deleted ∧
      (execFleet C call file).2.templates = file.templates.filter fun t => t.id ≠ id) ∨
    (execFleet C call file).2.templates = file.templates ∧
      ∀ t, (execFleet C call file).1 ≠ .created t := by
  -- what a good registry holds is read back as it was written
  have hsame : ∀ l, l ⊆ file.templates → l.map C.stored = l := by
    intro l hl
    conv_rhs => rw [← List.map_id l]
    exact List.map_congr_left fun t ht => hgood.stored t (hl ht)
  cases call with
  | create input raw write =>
      unfold execFleet
      dsimp only
      cases hcreate : CreateTemplate C input raw write file with
      | mk r after =>
          cases r with
          | error err =>
              obtain rfl := createTemplate_error hcreate
              exact .inr (.inr ⟨rfl, fun t h => by cases h⟩)
          | ok t =>
              obtain ⟨⟨p, hp⟩, rfl⟩ := createTemplate_ok hcreate
              refine .inl ⟨input, raw, write, t, p, rfl, rfl, hp, ?_⟩
              simp only [List.map_cons, hsame _ (List.Subset.refl _)]
  | delete given write =>
      unfold execFleet DeleteTemplate writeRegistry
      dsimp only
      cases hid : NormalizeTemplateID given with
      | error err => exact .inr (.inr ⟨rfl, fun t h => by cases h⟩)
      | ok id =>
          dsimp only
          by_cases hany : (file.templates.any fun record => record.id = id) = true
          · rw [if_pos hany]
            cases write with
            | error err => exact .inr (.inr ⟨rfl, fun t h => by cases h⟩)
            | ok _ =>
                exact .inr (.inl ⟨given, .ok (), id, rfl, hid, rfl,
                  hsame _ fun t ht => List.mem_of_mem_filter ht⟩)
          · rw [if_neg hany]
            exact .inr (.inr ⟨rfl, fun t h => by cases h⟩)
  | recordApply templateID write =>
      refine .inr (.inr ?_)
      unfold execFleet RecordApplyResult writeRegistry
      dsimp only
      split_ifs
      · exact ⟨rfl, fun t h => by cases h⟩
      · cases write with
        | error err => exact ⟨rfl, fun t h => by cases h⟩
        | ok _ => exact ⟨hsame _ (List.Subset.refl _), fun t h => by cases h⟩

/-- Every call keeps the registry good. -/
theorem good_step (hgood : file.Good C) (call : FleetCall π) :
    (execFleet C call file).2.Good C := by
  rcases execFleet_cases hgood call with ⟨input, raw, write, t, p, -, -, ht, hafter⟩ |
    ⟨given, write, id, -, -, -, hafter⟩ | ⟨hafter, -⟩
  · have hdecodes := C.unmarshal_marshal ht.marshal
    refine ⟨?_, ?_, ?_, ?_⟩ <;> rw [hafter]
    · exact List.nodup_cons.mpr ⟨ht.fresh, hgood.nodup⟩
    · exact List.forall_mem_cons.mpr ⟨ht.named, hgood.named⟩
    · exact List.forall_mem_cons.mpr ⟨⟨p, C.unmarshal_reindent hdecodes⟩, hgood.decodes⟩
    · exact List.forall_mem_cons.mpr ⟨stored_stored hdecodes, hgood.stored⟩
  · have hsub : ∀ t ∈ file.templates.filter (fun t => t.id ≠ id), t ∈ file.templates :=
      fun t ht => List.mem_of_mem_filter ht
    refine ⟨?_, ?_, ?_, ?_⟩ <;> rw [hafter]
    · exact hgood.nodup.sublist (List.filter_sublist.map _)
    · exact fun t ht => hgood.named t (hsub t ht)
    · exact fun t ht => hgood.decodes t (hsub t ht)
    · exact fun t ht => hgood.stored t (hsub t ht)
  · refine ⟨?_, ?_, ?_, ?_⟩ <;> rw [hafter]
    · exact hgood.nodup
    · exact hgood.named
    · exact hgood.decodes
    · exact hgood.stored

/-- A template is found under its id. -/
theorem getTemplate_eq (hgood : file.Good C) {t : TemplateRecord} (ht : t ∈ file.templates) :
    GetTemplate t.id file = .ok t := by
  have hfind : (file.templates.find? fun record => record.id = t.id) = some t := by
    cases hfound : file.templates.find? fun record => record.id = t.id with
    | none => exact absurd (List.find?_eq_none.mp hfound t ht) (by simp)
    | some u =>
        have hu : u.id = t.id := by simpa using List.find?_some hfound
        exact congrArg some (List.inj_on_of_nodup_map hgood.nodup
          (List.mem_of_find?_eq_some hfound) ht hu)
  rw [GetTemplate, hgood.named t ht]
  dsimp only
  rw [hfind]

/-- **The stored policy** is the one given, unless its text has grown over the limit. -/
theorem decodePolicy_stored {input : CreateTemplateInput π} {p : π} {t : TemplateRecord}
    (ht : Created C input file p t) :
    DecodePolicy C (C.stored t).policy = .ok p ↔
      (C.reindent t.policy).length ≤ MaxPolicyJSONBytes := by
  have hdecodes := C.unmarshal_marshal ht.marshal
  have hne : (C.reindent t.policy).length ≠ 0 := by
    rw [Ne, List.length_eq_zero_iff]
    exact C.reindent_ne_nil hdecodes (C.marshal_ne_nil ht.marshal)
  have hpolicy : (C.stored t).policy = C.reindent t.policy := rfl
  rw [hpolicy, DecodePolicy, if_neg hne]
  by_cases hsize : MaxPolicyJSONBytes < (C.reindent t.policy).length
  · rw [if_pos hsize]
    exact ⟨(fun h => by cases h), fun h => by omega⟩
  · rw [if_neg hsize, C.unmarshal_reindent hdecodes]
    exact ⟨fun _ => by omega, fun _ => rfl⟩

end Steps

/-! ### Runs

A template that a run has created is found by every later read until it is deleted. What is read of
its policy is what was stored if the codec keeps texts. -/

section Runs

variable {π : Type} {C : Codec π} {calls : List (FleetCall π)}

abbrev FleetEvent (π : Type) := Event (FleetCall π) Registry FleetResult

/-- The call deletes the template of the id. -/
def Deletes (ev : FleetEvent π) (id : String) : Prop :=
  ∃ given write, ev.input = .delete given write ∧ NormalizeTemplateID given = .ok id ∧
    ev.output = .deleted

theorem good_event : ∀ ev ∈ history (execFleet C) Registry.empty calls,
    ev.before.Good C ∧ ev.after.Good C :=
  history_invariant (I := Registry.Good C) (C := fun _ => True)
    (fun call _ _ h => good_step h call) (fun _ _ => trivial) good_empty

/-- **A template that was created is returned** as it was stored, until it is deleted. -/
theorem template_returned {pre mid post : List (FleetEvent π)} {a : FleetEvent π}
    (hes : history (execFleet C) Registry.empty calls = pre ++ a :: (mid ++ post))
    {t : TemplateRecord} (hout : a.output = .created t) (hkept : ∀ m ∈ mid, ¬ Deletes m t.id) :
    (∃ input raw write p, a.input = .create input raw write ∧ Created C input a.before p t) ∧
      ∀ m ∈ a :: mid, GetTemplate t.id m.after = .ok (C.stored t) := by
  have hmem : a ∈ history (execFleet C) Registry.empty calls :=
    hes ▸ List.mem_append_right _ List.mem_cons_self
  have hexec := (history_event hmem).2
  have hgood := (good_event a hmem).1
  -- the call has put the template into the registry
  obtain ⟨hcreated, hthere⟩ : (∃ input raw write p, a.input = .create input raw write ∧
      Created C input a.before p t) ∧ C.stored t ∈ a.after.templates := by
    rcases execFleet_cases hgood a.input with ⟨input, raw, write, u, p, hin, hres, hu, hafter⟩ |
      ⟨given, write, id, -, -, hres, -⟩ | ⟨-, hnone⟩
    · rw [hexec, hout] at hres
      cases hres
      rw [hexec] at hafter
      exact ⟨⟨input, raw, write, p, hin, hu⟩, hafter ▸ List.mem_cons_self⟩
    · rw [hexec, hout] at hres
      cases hres
    · rw [hexec, hout] at hnone
      exact (hnone t rfl).elim
  refine ⟨hcreated, ?_⟩
  -- and it stays there
  have hstays : ∀ m ∈ mid, C.stored t ∈ m.after.templates := by
    have hstep : ∀ (call : FleetCall π) (file : Registry),
        ¬ Deletes ⟨call, file, (execFleet C call file).1, (execFleet C call file).2⟩ t.id →
        file.Good C ∧ C.stored t ∈ file.templates →
        (execFleet C call file).2.Good C ∧ C.stored t ∈ (execFleet C call file).2.templates := by
      rintro call file hno ⟨hfile, hin⟩
      refine ⟨good_step hfile call, ?_⟩
      rcases execFleet_cases hfile call with ⟨input, raw, write, u, p, -, -, -, hafter⟩ |
        ⟨given, write, id, hcall, hid, hres, hafter⟩ | ⟨hafter, -⟩
      · rw [hafter]
        exact List.mem_cons_of_mem _ hin
      · rw [hafter]
        refine List.mem_filter.mpr ⟨hin, ?_⟩
        rw [decide_eq_true_eq]
        rintro rfl
        exact hno ⟨given, write, hcall, hid, hres⟩
      · rw [hafter]
        exact hin
    obtain ⟨xs, -, -, hxs, -⟩ := history_split (hes.trans
      (by simp : pre ++ a :: (mid ++ post) = (pre ++ a :: mid) ++ post))
    exact fun m hm => (history_since_after (C := fun ev => ¬ Deletes ev t.id) hxs.symm
      ⟨(good_event a hmem).2, hthere⟩ hstep hkept m hm).2
  intro m hm
  have hm' : m ∈ history (execFleet C) Registry.empty calls := by
    rw [hes]
    refine List.mem_append_right _ ?_
    rw [← List.cons_append]
    exact List.mem_append_left _ hm
  have hin : C.stored t ∈ m.after.templates := by
    rcases List.mem_cons.mp hm with rfl | hm
    · exact hthere
    · exact hstays m hm
  exact getTemplate_eq (good_event m hm').2 hin

/-- **Ids lead to templates.** At any time the ids are different, in normal form, and each finds its
template. -/
def TemplatesNamed (es : List (FleetEvent π)) : Prop :=
  ∀ ev ∈ es, (ev.after.templates.map TemplateRecord.id).Nodup ∧
    ∀ t ∈ ev.after.templates, NormalizeTemplateID t.id = .ok t.id ∧
      GetTemplate t.id ev.after = .ok t

theorem templates_named : TemplatesNamed (history (execFleet C) Registry.empty calls) := by
  intro ev hev
  have hgood := (good_event ev hev).2
  exact ⟨hgood.nodup, fun t ht => ⟨hgood.named t ht, getTemplate_eq hgood ht⟩⟩

/-- **Templates survive storage.** Their ids lead to them; and until it is deleted, the template that
was created is returned with a policy that decodes to the one given, and with the revision that it
has. -/
structure TemplatesSurvive (C : Codec π) (es : List (FleetEvent π)) : Prop where
  named : TemplatesNamed es
  kept : ∀ pre a mid post input raw write t p, es = pre ++ a :: (mid ++ post) →
    a.input = .create input raw write → a.output = .created t → input.policy = some p →
    (∀ m ∈ mid, ¬ Deletes m t.id) → ∀ m ∈ a :: mid, ∃ t', GetTemplate t.id m.after = .ok t' ∧
      DecodePolicy C t'.policy = .ok p ∧ TemplateRevision C t' = t'.revision

/-- What a call stores is the text that it is given: the JSON of the policy is indented as the
file is, and no rune of the name is cut. -/
def FleetCall.KeepsText (C : Codec π) : FleetCall π → Prop
  | .create input _ _ =>
      (∀ p policyJSON, input.policy = some p → C.marshal p = .ok policyJSON →
        C.reindent policyJSON = policyJSON) ∧
      (cleanTemplateName input.name).Valid ∧ input.templateScope.Valid
  | _ => True

/-- In every run ids lead to templates; and in every run whose calls store what they are given,
**templates survive storage**. -/
theorem templates_survive (C : Codec π) (calls : List (FleetCall π)) :
    TemplatesNamed (history (execFleet C) Registry.empty calls) ∧
      ((∀ call ∈ calls, call.KeepsText C) →
        TemplatesSurvive C (history (execFleet C) Registry.empty calls)) := by
  refine ⟨templates_named, fun hcalls => ⟨templates_named, ?_⟩⟩
  intro pre a mid post input raw write t p hes hin hout hp hkept m hm
  obtain ⟨⟨input', raw', write', p', hin', ht⟩, hreturned⟩ := template_returned hes hout hkept
  rw [hin] at hin'
  cases hin'
  obtain rfl : p' = p := Option.some.inj (ht.policy.symm.trans hp)
  have hcall : FleetCall.KeepsText C (.create input raw write) := by
    refine hcalls _ ?_
    rw [← hin]
    exact (history_event (hes ▸ List.mem_append_right _ List.mem_cons_self :
      a ∈ history (execFleet C) Registry.empty calls)).1
  obtain ⟨htext, hname, hscope⟩ := hcall
  have hsame : C.stored t = t := by
    rw [← ht.name] at hname
    rw [← ht.scope] at hscope
    simp only [Codec.stored, htext p' t.policy hp ht.marshal, jsonString_eq_self hname,
      jsonString_eq_self hscope]
  refine ⟨t, by rw [hreturned m hm, hsame], ?_, ht.revision.symm⟩
  have hdecode := (decodePolicy_stored ht).mpr (by
    rw [htext p' t.policy hp ht.marshal]
    exact ht.size)
  rwa [hsame] at hdecode

end Runs

/-- The policies of the example: none, and one zone. -/
inductive SamplePolicy
  | empty
  | lan
  deriving DecidableEq

def ascii (s : String) : List UInt8 := s.toList.map fun c => UInt8.ofNat c.toNat

def emptyText : List UInt8 := ascii "\x7b\x7d"

def lanText : List UInt8 := ascii "\x7b\"zones\":[\x7b\"name\":\"lan\"\x7d]\x7d"

/-- The same where it stands in the file. -/
def lanIndented : List UInt8 :=
  ascii ("\x7b\n        \"zones\": [\n          \x7b\n            \"name\": \"lan\"\n" ++
    "          \x7d\n        ]\n      \x7d")

/-- The text whose digest is the revision of the template below. -/
def sampleDigestText (policy : List UInt8) : List UInt8 :=
  ascii "Branch" ++ 0 :: (policy ++ 0 :: ascii "local-appliance")

/-- SHA-256 on these texts. -/
def sampleSum (text : List UInt8) : List UInt8 :=
  if text = sampleDigestText lanText then
    [84, 252, 107, 36, 194, 189, 151, 160, 88, 23, 65, 63, 120, 64, 235, 178, 10, 204, 182, 220,
      18, 124, 70, 76, 50, 228, 153, 51, 59, 244, 60, 42]
  else if text = sampleDigestText lanIndented then
    [139, 176, 45, 55, 26, 191, 210, 166, 110, 48, 5, 43, 53, 221, 210, 220, 132, 229, 85, 184,
      87, 13, 80, 20, 49, 126, 54, 38, 196, 177, 253, 80]
  else if text = sampleDigestText emptyText then
    [64, 219, 134, 149, 19, 169, 40, 1, 117, 229, 220, 176, 131, 98, 116, 174, 113, 98, 48, 48,
      174, 197, 218, 58, 127, 162, 78, 97, 21, 35, 30, 236]
  else List.replicate 32 0

def sampleUnmarshal (raw : List UInt8) : Except String SamplePolicy :=
  if raw = emptyText then .ok .empty
  else if raw = lanText ∨ raw = lanIndented then .ok .lan
  else .error "proto: syntax error"

theorem sampleUnmarshal_empty : sampleUnmarshal emptyText = .ok .empty := if_pos rfl

theorem sampleUnmarshal_lan : sampleUnmarshal lanText = .ok .lan :=
  (if_neg (by decide +kernel)).trans (if_pos (.inl rfl))

theorem sampleUnmarshal_indented : sampleUnmarshal lanIndented = .ok .lan :=
  (if_neg (by decide +kernel)).trans (if_pos (.inr rfl))

/-- The encoders on these policies. -/
def sampleCodec : Codec SamplePolicy where
  marshal := fun
    | .empty => .ok emptyText
    | .lan => .ok lanText
  unmarshal := sampleUnmarshal
  reindent := fun raw => if raw = lanText then lanIndented else raw
  sha256 := sampleSum
  marshal_ne_nil := by
    intro p raw h
    cases p <;> cases h <;> decide
  unmarshal_marshal := by
    intro p raw h
    cases p <;> cases h
    · exact sampleUnmarshal_empty
    · exact sampleUnmarshal_lan
  reindent_ne_nil := by
    intro p raw h hne
    split_ifs
    · decide
    · exact hne
  unmarshal_reindent := by
    intro p raw h
    split_ifs with hlan
    · rw [hlan, sampleUnmarshal_lan] at h
      cases h
      exact sampleUnmarshal_indented
    · exact h
  reindent_reindent := by
    intro p raw h
    split_ifs <;> rfl

def sampleInput (p : SamplePolicy) : CreateTemplateInput SamplePolicy where
  name := GoString.ofString "Branch"
  scope := []
  policy := some p

theorem templates_survive_empty :
    TemplatesSurvive sampleCodec (history (execFleet sampleCodec) Registry.empty
      [.create (sampleInput .empty) none (.ok ()), .delete "tmpl-branch-000000" (.ok ())]) := by
  refine (templates_survive sampleCodec _).2 ?_
  intro call hcall
  simp only [List.mem_cons, List.not_mem_nil, or_false] at hcall
  rcases hcall with rfl | rfl
  · refine ⟨?_, by decide, by decide⟩
    intro p policyJSON hp hmarshal
    cases hp
    cases hmarshal
    decide
  · trivial

/-- The template with one zone as it is created. -/
def lanTemplate : TemplateRecord where
  id := "tmpl-branch-000000"
  name := GoString.ofString "Branch"
  scope := GoString.ofString "local-appliance"
  policy := lanText
  revision := "sha256:54fc6b24c2bd97a05817413f7840ebb20accb6dc127c464c32e499333bf43c2a"

/-- A template with **one zone**: the digest of what is read back is not its revision. -/
theorem lanTemplate_revision : ¬ TemplatesSurvive sampleCodec
    (history (execFleet sampleCodec) Registry.empty
      [.create (sampleInput .lan) none (.ok ())]) := by
  intro h
  have hcreate : CreateTemplate sampleCodec (sampleInput .lan) none (.ok ()) Registry.empty =
      (.ok lanTemplate, ⟨[sampleCodec.stored lanTemplate], []⟩) := by
    decide +kernel
  have hexec : execFleet sampleCodec (.create (sampleInput .lan) none (.ok ())) Registry.empty =
      (.created lanTemplate, ⟨[sampleCodec.stored lanTemplate], []⟩) := by
    unfold execFleet
    dsimp only
    rw [hcreate]
  obtain ⟨t', hget, -, hrevision⟩ :=
    h.kept [] _ [] [] (sampleInput .lan) none (.ok ()) lanTemplate .lan rfl rfl
      (congrArg Prod.fst hexec) rfl (fun m hm => by cases hm) _ List.mem_cons_self
  have hget' : GetTemplate lanTemplate.id ⟨[sampleCodec.stored lanTemplate], []⟩ =
      .ok (sampleCodec.stored lanTemplate) := by
    decide +kernel
  rw [show _ = _ from congrArg Prod.snd hexec, hget'] at hget
  cases hget
  exact absurd hrevision (by decide +kernel)

end Phragma.Fleet
