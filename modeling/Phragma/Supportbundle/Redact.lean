import Phragma.Go.Text

/-!
# Phragma.Supportbundle.Redact

Redaction of the JSON documents in a support bundle: the tree walk `redactValue`, with its
three classes of object keys (values to hide, lists of paths, command lines), and the scan of
a command line, which hides the argument after a sensitive flag.

The walk is meant to be **noninterfering**: documents that differ only in what is to be hidden
(`Differ`) are redacted to the same text. The scan hides the next argument only if it is a
string, and then takes the one after it for no argument at all, so this holds of a document if
and only if none of its command lines has anything behind an open sensitive flag
(`noninterfering_iff`).

Numbers are an arbitrary type, and `RedactString`, which rewrites a text by regular
expressions, is an arbitrary function. `encoding/json` is a parameter with the law that what
it writes it reads back.
-/

namespace Phragma.Supportbundle

open Phragma.Go

/-! ### Keys

Keys are compared in lower case and without separators. A key is sensitive by a list, or for a word
in it. -/

/-- What hidden values are replaced with. -/
def Redacted : String := "[redacted]"

/-- A rune of `normalizeRedactionKey`: letters in lower case and digits, nothing else. -/
def normalizeRune (r : Char) : Option Char :=
  if ('a' ≤ r ∧ r ≤ 'z') ∨ ('0' ≤ r ∧ r ≤ '9') then some r
  else if 'A' ≤ r ∧ r ≤ 'Z' then some (Char.ofNat (r.toNat + ('a'.toNat - 'A'.toNat)))
  else none

/-- `normalizeRedactionKey`: a key as it is compared. -/
def normalizeRedactionKey (key : String) : String :=
  String.ofList (key.toList.filterMap normalizeRune)

/-- `SensitiveCommandKey`: the keys of command lines. -/
def SensitiveCommandKey (key : String) : Bool :=
  ["command", "nextcommand", "nextcommands"].contains (normalizeRedactionKey key)

/-- `SensitiveDetailListKey`: the keys of lists of paths. -/
def SensitiveDetailListKey (key : String) : Bool :=
  ["alloweddirtypaths", "dirtysourcepaths"].contains (normalizeRedactionKey key)

/-- The normalized keys that `SensitiveKey` lists. -/
def sensitiveKeys : List String :=
  ["authorization", "proxyauthorization", "cookie", "setcookie",
    "token", "accesstoken", "refreshtoken", "idtoken", "sessiontoken",
    "key", "apikey", "apiaccesskey", "accesskey", "clientsecret",
    "password", "passwd", "credential",
    "psk", "pskfile", "privatekey", "privatekeyfile",
    "datadir", "evidencedir", "evidencepath", "artifactpath", "bundlepath",
    "logdir", "outputpath", "sysctlconfigpath",
    "manifestpath", "rollbackpath", "restoredrollbackpath", "sourcepath"]

/-- The words that make any key with one of them sensitive. -/
def sensitiveWords : List String :=
  ["token", "password", "secret", "credential", "privatekey", "apikey", "clientsecret",
    "pskfile", "secretfile"]

/-- `SensitiveKey`: the keys, and names of flags, whose values are to be hidden. -/
def SensitiveKey (key : String) : Bool :=
  sensitiveKeys.contains (normalizeRedactionKey key) ||
    sensitiveWords.any fun word => decide (Contains (normalizeRedactionKey key) word)

/-- `SensitivePathFlag`: the flags whose values are paths. -/
def SensitivePathFlag (key : String) : Bool :=
  ["artifact", "artifactpath", "bundle", "bundlepath", "evidence", "evidencedir", "evidencepath",
    "file", "manifest", "manifestpath", "output", "outputdir", "outputpath", "path", "source",
    "sourcepath"].contains (normalizeRedactionKey key)

/-- A key of a command line is in no other class. -/
theorem SensitiveKey_of_command {key : String} (h : SensitiveCommandKey key = true) :
    SensitiveKey key = false ∧ SensitiveDetailListKey key = false := by
  rw [SensitiveCommandKey, List.contains_iff_mem] at h
  rw [SensitiveKey, SensitiveDetailListKey]
  simp only [List.mem_cons, List.not_mem_nil, or_false] at h
  rcases h with h | h | h <;> rw [h] <;> decide

/-- A key of a list of paths is in no other class. -/
theorem SensitiveKey_of_detailList {key : String} (h : SensitiveDetailListKey key = true) :
    SensitiveKey key = false ∧ SensitiveCommandKey key = false := by
  rw [SensitiveDetailListKey, List.contains_iff_mem] at h
  rw [SensitiveKey, SensitiveCommandKey]
  simp only [List.mem_cons, List.not_mem_nil, or_false] at h
  rcases h with h | h <;> rw [h] <;> decide

/-! ### Command lines

A sensitive flag has its value behind an equals sign or as the next argument. -/

/-- The runes of a flag's name. -/
def isFlagRune (r : Char) : Bool :=
  decide ('a' ≤ r ∧ r ≤ 'z') || decide ('A' ≤ r ∧ r ≤ 'Z') || decide ('0' ≤ r ∧ r ≤ '9') ||
    r == '_' || r == '-'

/-- A command-line flag: its dashes, its name, and what is assigned to it. -/
structure CLIFlag where
  dashes : String
  name : String
  assigned : Option String

/-- `splitCLIFlag` after its dashes. -/
def splitCLIName (dashes : String) (name : List Char) : Option CLIFlag :=
  let before := match cutRune '=' name with
    | some (before, _) => before
    | none => name
  let assigned := (cutRune '=' name).map fun cut => String.ofList cut.2
  if before.isEmpty || !before.all isFlagRune then none
  else some ⟨dashes, String.ofList before, assigned⟩

/-- `splitCLIFlag`: the name of a flag, and its value if it has one. -/
def splitCLIFlag (arg : String) : Option CLIFlag :=
  match arg.toList with
  | '-' :: '-' :: name => splitCLIName "--" name
  | '-' :: name => splitCLIName "-" name
  | _ => none

/-- The flags whose value is hidden. -/
def CLIFlag.sensitive (flag : CLIFlag) : Bool :=
  SensitiveKey flag.name || SensitivePathFlag flag.name

/-- `redactCommandArg`: the argument redacted, and whether it is a flag whose value is the
next argument. -/
def redactCommandArg (redactString : String → String) (arg : String) (forceRedact : Bool) :
    String × Bool :=
  if forceRedact then (Redacted, false)
  else
    match splitCLIFlag arg with
    | none => (redactString arg, false)
    | some flag =>
        if flag.sensitive then
          match flag.assigned with
          | some _ => (flag.dashes ++ flag.name ++ "=" ++ Redacted, false)
          | none => (arg, true)
        else (redactString arg, false)

/-! ### Documents

The walk keeps the structure of a document. What it does with a member depends on the member's
key. -/

/-- A JSON value as `encoding/json` decodes it. The members of an object are listed in the
order in which they are encoded. -/
inductive Json (ν : Type)
  | null
  | bool (b : Bool)
  | num (n : ν)
  | str (s : String)
  | arr (items : List (Json ν))
  | obj (members : List (String × Json ν))

variable {ν : Type}

section Redact

variable (redactString : String → String)

mutual

/-- `redactValue`: a document with its values hidden. -/
def redactValue : Json ν → Json ν
  | .obj members => .obj (redactMembers members)
  | .arr items => .arr (redactItems items)
  | .str s => .str (redactString s)
  | .null => .null
  | .bool b => .bool b
  | .num n => .num n

/-- The loop of `redactValue` over a list. -/
def redactItems : List (Json ν) → List (Json ν)
  | [] => []
  | child :: items => redactValue child :: redactItems items

/-- The loop of `redactValue` over an object. -/
def redactMembers : List (String × Json ν) → List (String × Json ν)
  | [] => []
  | (key, child) :: members =>
      (key, if SensitiveDetailListKey key then redactDetailList child
        else if SensitiveCommandKey key then redactCommandValue child
        else if SensitiveKey key then .str Redacted
        else redactValue child) :: redactMembers members

/-- `redactDetailList`. The cases that it leaves to `redactValue` are written out, since the
recursion is on the value. -/
def redactDetailList : Json ν → Json ν
  | .arr items => .arr (redactDetailItems items)
  | .str _ => .str Redacted
  | .obj members => .obj (redactMembers members)
  | .null => .null
  | .bool b => .bool b
  | .num n => .num n

/-- The loop of `redactDetailList`. -/
def redactDetailItems : List (Json ν) → List (Json ν)
  | [] => []
  | .str _ :: items => .str Redacted :: redactDetailItems items
  | child :: items => redactValue child :: redactDetailItems items

/-- `redactCommandValue`, the cases that it leaves to `redactValue` written out. -/
def redactCommandValue : Json ν → Json ν
  | .arr items => .arr (redactCommandList false items)
  | .obj members => .obj (redactMembers members)
  | .str s => .str (redactString s)
  | .null => .null
  | .bool b => .bool b
  | .num n => .num n

/-- The loop of `redactCommandList`, with `redactNext`. -/
def redactCommandList (redactNext : Bool) : List (Json ν) → List (Json ν)
  | [] => []
  | .str text :: items =>
      .str (redactCommandArg redactString text redactNext).1 ::
        redactCommandList (redactCommandArg redactString text redactNext).2 items
  | item :: items => redactValue item :: redactCommandList false items

end

end Redact

/-- **Induction over a document**: a list from its items, an object from its members. -/
theorem Json.induct {P : Json ν → Prop} (null : P .null) (bool : ∀ b, P (.bool b))
    (num : ∀ n, P (.num n)) (str : ∀ s, P (.str s))
    (arr : ∀ items, (∀ v ∈ items, P v) → P (.arr items))
    (obj : ∀ members, (∀ m ∈ members, P m.2) → P (.obj members)) (v : Json ν) : P v := by
  refine @Json.rec ν P (fun items => ∀ v ∈ items, P v) (fun members => ∀ m ∈ members, P m.2)
    (fun m => P m.2) null bool num str arr obj ?_ ?_ ?_ ?_ (fun _ _ h => h) v
  all_goals simp_all

/-! ### Documents that differ in hidden values only

The relation goes down both documents at once: members of sensitive keys may differ, and so may the
argument behind an open flag. -/

/-- An argument of a command line that is a sensitive flag given without a value. -/
def openFlag : Json ν → Bool
  | .str text =>
      match splitCLIFlag text with
      | some flag => flag.sensitive && flag.assigned.isNone
      | none => false
  | _ => false

mutual

/-- The second document differs from the first only in what is to be hidden. -/
inductive Differ : Json ν → Json ν → Prop
  | same (v : Json ν) : Differ v v
  | arr {vs ws : List (Json ν)} : DifferItems vs ws → Differ (.arr vs) (.arr ws)
  | obj {ms ns : List (String × Json ν)} : DifferMembers ms ns → Differ (.obj ms) (.obj ns)

/-- Lists that differ so item by item. -/
inductive DifferItems : List (Json ν) → List (Json ν) → Prop
  | nil : DifferItems [] []
  | cons {v w : Json ν} {vs ws : List (Json ν)} : Differ v w → DifferItems vs ws →
      DifferItems (v :: vs) (w :: ws)

/-- Lists of paths: any string may stand for a string. -/
inductive DifferPaths : List (Json ν) → List (Json ν) → Prop
  | nil : DifferPaths [] []
  | path {s t : String} {vs ws : List (Json ν)} : DifferPaths vs ws →
      DifferPaths (.str s :: vs) (.str t :: ws)
  | cons {v w : Json ν} {vs ws : List (Json ν)} : Differ v w → DifferPaths vs ws →
      DifferPaths (v :: vs) (w :: ws)

/-- Command lines, of which the flag says whether the argument before was an open sensitive
flag: anything may stand for the argument directly after one. -/
inductive DifferCommand : Bool → List (Json ν) → List (Json ν) → Prop
  | nil {after : Bool} : DifferCommand after [] []
  | value {v w : Json ν} {vs ws : List (Json ν)} : DifferCommand (openFlag v) vs ws →
      DifferCommand true (v :: vs) (w :: ws)
  | cons {after : Bool} {v w : Json ν} {vs ws : List (Json ν)} : Differ v w →
      DifferCommand (openFlag v) vs ws → DifferCommand after (v :: vs) (w :: ws)

/-- Objects: the keys are the same, and anything may stand under a sensitive one. -/
inductive DifferMembers : List (String × Json ν) → List (String × Json ν) → Prop
  | nil : DifferMembers [] []
  | hidden {key : String} {v w : Json ν} {ms ns : List (String × Json ν)} :
      SensitiveKey key = true → DifferMembers ms ns →
      DifferMembers ((key, v) :: ms) ((key, w) :: ns)
  | paths {key : String} {vs ws : List (Json ν)} {ms ns : List (String × Json ν)} :
      SensitiveDetailListKey key = true → DifferPaths vs ws → DifferMembers ms ns →
      DifferMembers ((key, .arr vs) :: ms) ((key, .arr ws) :: ns)
  | command {key : String} {vs ws : List (Json ν)} {ms ns : List (String × Json ν)} :
      SensitiveCommandKey key = true → DifferCommand false vs ws → DifferMembers ms ns →
      DifferMembers ((key, .arr vs) :: ms) ((key, .arr ws) :: ns)
  | cons {key : String} {v w : Json ν} {ms ns : List (String × Json ν)} : Differ v w →
      DifferMembers ms ns → DifferMembers ((key, v) :: ms) ((key, w) :: ns)

end

mutual

/-- In every command line of the document that is redacted as one, nothing follows an open
sensitive flag. What stands under a sensitive key is not looked at. -/
def flagsLast : Json ν → Bool
  | .arr items => flagsLastItems items
  | .obj members => flagsLastMembers members
  | .null | .bool _ | .num _ | .str _ => true

def flagsLastItems : List (Json ν) → Bool
  | [] => true
  | v :: vs => flagsLast v && flagsLastItems vs

def flagsLastMembers : List (String × Json ν) → Bool
  | [] => true
  | (key, v) :: ms =>
      (SensitiveKey key || if SensitiveCommandKey key then flagsLastValue v else flagsLast v) &&
        flagsLastMembers ms

/-- The value of a command key. -/
def flagsLastValue : Json ν → Bool
  | .arr items => flagsLastCommand false items
  | .obj members => flagsLastMembers members
  | .null | .bool _ | .num _ | .str _ => true

/-- A command line, behind an open sensitive flag or not. -/
def flagsLastCommand (after : Bool) : List (Json ν) → Bool
  | [] => true
  | v :: vs => !after && flagsLast v && flagsLastCommand (openFlag v) vs

end

/-! ### Without values after flags, redaction is noninterfering

Two documents in the relation are walked alike. The induction is over the documents, with one case
for each class of keys. -/

section Sound

variable {redactString : String → String}

/-- An argument of a command line, redacted. -/
def redactCommandItem (redactString : String → String) (redactNext : Bool) : Json ν → Json ν
  | .str text => .str (redactCommandArg redactString text redactNext).1
  | item => redactValue redactString item

/-- The scan hides the argument after an open sensitive flag. -/
theorem redactCommandArg_snd (text : String) :
    (redactCommandArg redactString text false).2 = openFlag (.str text : Json ν) := by
  simp only [redactCommandArg, openFlag]
  cases splitCLIFlag text with
  | none => rfl
  | some flag => cases hs : flag.sensitive <;> cases ha : flag.assigned <;> simp [hs, ha]

theorem redactCommandList_cons (v : Json ν) (vs : List (Json ν)) :
    redactCommandList redactString false (v :: vs) = redactCommandItem redactString false v ::
      redactCommandList redactString (openFlag v) vs := by
  cases v with
  | str text => rw [redactCommandList, redactCommandItem, redactCommandArg_snd]
  | _ => rw [redactCommandList, redactCommandItem, openFlag] <;> simp

/-- No hidden value shows in the redacted value, as itself and under the keys of lists of
paths and of command lines. -/
structure Silent (redactString : String → String) (v : Json ν) : Prop where
  value : flagsLast v = true → ∀ {w}, Differ v w →
    redactValue redactString v = redactValue redactString w
  detail : flagsLast v = true → ∀ {w}, Differ v w →
    redactDetailList redactString v = redactDetailList redactString w
  command : flagsLastValue v = true → ∀ {w}, Differ v w →
    redactCommandValue redactString v = redactCommandValue redactString w
  paths : flagsLast v = true → ∀ {vs ws}, v = .arr vs → DifferPaths vs ws →
    redactDetailList redactString v = redactDetailList redactString (.arr ws)
  commandLine : flagsLastValue v = true → ∀ {vs ws}, v = .arr vs → DifferCommand false vs ws →
    redactCommandValue redactString v = redactCommandValue redactString (.arr ws)

theorem redactItems_silent {vs ws : List (Json ν)} (hvs : ∀ v ∈ vs, Silent redactString v)
    (hlast : flagsLastItems vs = true) (h : DifferItems vs ws) :
    redactItems redactString vs = redactItems redactString ws := by
  induction vs generalizing ws with
  | nil => cases h; rfl
  | cons v vs ih =>
      rw [flagsLastItems, Bool.and_eq_true] at hlast
      cases h with
      | cons hv htail =>
          rw [redactItems, redactItems, (hvs v List.mem_cons_self).value hlast.1 hv,
            ih (fun x hx => hvs x (List.mem_cons_of_mem _ hx)) hlast.2 htail]

/-- An item of a list of paths, redacted. -/
def redactDetailItem (redactString : String → String) : Json ν → Json ν
  | .str _ => .str Redacted
  | v => redactValue redactString v

theorem redactDetailItems_cons (v : Json ν) (vs : List (Json ν)) :
    redactDetailItems redactString (v :: vs) =
      redactDetailItem redactString v :: redactDetailItems redactString vs := by
  cases v <;> rw [redactDetailItems, redactDetailItem] <;> simp

theorem redactDetailItem_silent {v w : Json ν} (hv : Silent redactString v)
    (hlast : flagsLast v = true) (h : Differ v w) :
    redactDetailItem redactString v = redactDetailItem redactString w := by
  cases h with
  | same => rfl
  | arr h => exact hv.value hlast (.arr h)
  | obj h => exact hv.value hlast (.obj h)

theorem redactDetailItems_silent {vs ws : List (Json ν)} (hvs : ∀ v ∈ vs, Silent redactString v)
    (hlast : flagsLastItems vs = true) (h : DifferPaths vs ws) :
    redactDetailItems redactString vs = redactDetailItems redactString ws := by
  induction vs generalizing ws with
  | nil => cases h; rfl
  | cons v vs ih =>
      rw [flagsLastItems, Bool.and_eq_true] at hlast
      have hrest : ∀ x ∈ vs, Silent redactString x :=
        fun x hx => hvs x (List.mem_cons_of_mem _ hx)
      cases h with
      | path htail => rw [redactDetailItems, redactDetailItems, ih hrest hlast.2 htail]
      | cons hv htail =>
          rw [redactDetailItems_cons, redactDetailItems_cons, ih hrest hlast.2 htail,
            redactDetailItem_silent (hvs v List.mem_cons_self) hlast.1 hv]

theorem openFlag_eq {v w : Json ν} (h : Differ v w) : openFlag v = openFlag w := by
  cases h <;> rfl

theorem redactCommandItem_silent {v w : Json ν} (hv : Silent redactString v)
    (hlast : flagsLast v = true) (h : Differ v w) :
    redactCommandItem redactString false v = redactCommandItem redactString false w := by
  cases h with
  | same => rfl
  | arr h => exact hv.value hlast (.arr h)
  | obj h => exact hv.value hlast (.obj h)

theorem redactCommandList_silent {after : Bool} {vs ws : List (Json ν)}
    (hvs : ∀ v ∈ vs, Silent redactString v) (hlast : flagsLastCommand after vs = true)
    (h : DifferCommand after vs ws) :
    redactCommandList redactString after vs = redactCommandList redactString after ws := by
  induction vs generalizing after ws with
  | nil => cases h; rfl
  | cons v vs ih =>
      rw [flagsLastCommand, Bool.and_eq_true, Bool.and_eq_true, Bool.not_eq_true'] at hlast
      obtain ⟨⟨rfl, hv⟩, htail⟩ := hlast
      -- no flag is open, so the argument is none that may be anything
      cases h with
      | cons hd htd =>
          rw [redactCommandList_cons, redactCommandList_cons, ← openFlag_eq hd,
            redactCommandItem_silent (hvs v List.mem_cons_self) hv hd,
            ih (fun x hx => hvs x (List.mem_cons_of_mem _ hx)) htail htd]

/-- A list that differs item by item differs so as a list of paths. -/
theorem DifferItems.paths {vs ws : List (Json ν)} (h : DifferItems vs ws) :
    DifferPaths vs ws := by
  induction vs generalizing ws with
  | nil => cases h; exact .nil
  | cons v vs ih =>
      cases h with
      | cons hv htail => exact .cons hv (ih htail)

/-- A list that differs item by item differs so as a command line. -/
theorem DifferItems.command {after : Bool} {vs ws : List (Json ν)} (h : DifferItems vs ws) :
    DifferCommand after vs ws := by
  induction vs generalizing after ws with
  | nil => cases h; exact .nil
  | cons v vs ih =>
      cases h with
      | cons hv htail => exact .cons hv (ih htail)

/-- A member of an object, redacted. -/
def redactMember (redactString : String → String) (key : String) (child : Json ν) : Json ν :=
  if SensitiveDetailListKey key then redactDetailList redactString child
  else if SensitiveCommandKey key then redactCommandValue redactString child
  else if SensitiveKey key then .str Redacted
  else redactValue redactString child

theorem redactMembers_cons (key : String) (child : Json ν) (ms : List (String × Json ν)) :
    redactMembers redactString ((key, child) :: ms) =
      (key, redactMember redactString key child) :: redactMembers redactString ms := rfl

/-- Under a sensitive key nothing of the value is left. -/
theorem redactMember_hidden {key : String} (h : SensitiveKey key = true) (child : Json ν) :
    redactMember redactString key child = .str Redacted := by
  have hdetail : SensitiveDetailListKey key = false := by
    by_contra hd
    rw [(SensitiveKey_of_detailList ((Bool.not_eq_false _).mp hd)).1] at h
    cases h
  have hcommand : SensitiveCommandKey key = false := by
    by_contra hc
    rw [(SensitiveKey_of_command ((Bool.not_eq_false _).mp hc)).1] at h
    cases h
  simp [redactMember, hdetail, hcommand, h]

theorem redactMember_silent {key : String} {v w : Json ν} (hv : Silent redactString v)
    (hlast : (SensitiveKey key ||
      if SensitiveCommandKey key then flagsLastValue v else flagsLast v) = true)
    (h : Differ v w) : redactMember redactString key v = redactMember redactString key w := by
  by_cases hkey : SensitiveKey key = true
  · rw [redactMember_hidden hkey, redactMember_hidden hkey]
  · simp only [hkey, Bool.false_or] at hlast
    by_cases hcommand : SensitiveCommandKey key = true
    · rw [if_pos hcommand] at hlast
      simp [redactMember, hcommand, (SensitiveKey_of_command hcommand).2, hv.command hlast h]
    · rw [if_neg hcommand] at hlast
      rw [redactMember, redactMember, if_neg hcommand, if_neg hcommand, hv.detail hlast h,
        hv.value hlast h]

theorem redactMembers_silent {ms ns : List (String × Json ν)}
    (hms : ∀ m ∈ ms, Silent redactString m.2) (hlast : flagsLastMembers ms = true)
    (h : DifferMembers ms ns) :
    redactMembers redactString ms = redactMembers redactString ns := by
  induction ms generalizing ns with
  | nil => cases h; rfl
  | cons m ms ih =>
      obtain ⟨key, v⟩ := m
      have hv : Silent redactString v := hms (key, v) List.mem_cons_self
      have hrest : ∀ m ∈ ms, Silent redactString m.2 :=
        fun m hm => hms m (List.mem_cons_of_mem _ hm)
      rw [flagsLastMembers, Bool.and_eq_true] at hlast
      cases h with
      | hidden hkey htail =>
          rw [redactMembers_cons, redactMembers_cons, redactMember_hidden hkey,
            redactMember_hidden hkey, ih hrest hlast.2 htail]
      | paths hkey hpaths htail =>
          have hclasses := SensitiveKey_of_detailList hkey
          have hlist := hlast.1
          simp only [hclasses, Bool.false_or, Bool.false_eq_true, if_false] at hlist
          rw [redactMembers_cons, redactMembers_cons, ih hrest hlast.2 htail, redactMember,
            redactMember, if_pos hkey, if_pos hkey, hv.paths hlist rfl hpaths]
      | command hkey hcommand htail =>
          have hclasses := SensitiveKey_of_command hkey
          have hline := hlast.1
          simp only [hclasses, Bool.false_or, hkey, if_true] at hline
          rw [redactMembers_cons, redactMembers_cons, ih hrest hlast.2 htail, redactMember,
            redactMember, if_pos hkey, if_pos hkey, hclasses.2, if_neg Bool.false_ne_true,
            if_neg Bool.false_ne_true, hv.commandLine hline rfl hcommand]
      | cons hd htail =>
          rw [redactMembers_cons, redactMembers_cons, ih hrest hlast.2 htail,
            redactMember_silent hv hlast.1 hd]

/-- A value with no parts has nothing to hide. -/
theorem silent_of_plain {v : Json ν} (hsame : ∀ w, Differ v w → v = w)
    (harr : ∀ vs, v ≠ .arr vs) : Silent redactString v where
  value := fun _ _ h => by rw [hsame _ h]
  detail := fun _ _ h => by rw [hsame _ h]
  command := fun _ _ h => by rw [hsame _ h]
  paths := fun _ _ _ hv => (harr _ hv).elim
  commandLine := fun _ _ _ hv => (harr _ hv).elim

theorem silent_arr {vs : List (Json ν)} (hvs : ∀ v ∈ vs, Silent redactString v) :
    Silent redactString (.arr vs) where
  value := by
    intro hlast w h
    cases h with
    | same => rfl
    | arr h => rw [redactValue, redactValue, redactItems_silent hvs hlast h]
  detail := by
    intro hlast w h
    cases h with
    | same => rfl
    | arr h => rw [redactDetailList, redactDetailList, redactDetailItems_silent hvs hlast h.paths]
  command := by
    intro hlast w h
    cases h with
    | same => rfl
    | arr h =>
        rw [redactCommandValue, redactCommandValue,
          redactCommandList_silent hvs hlast h.command]
  paths := by
    intro hlast _ _ heq h
    cases heq
    rw [redactDetailList, redactDetailList, redactDetailItems_silent hvs hlast h]
  commandLine := by
    intro hlast _ _ heq h
    cases heq
    rw [redactCommandValue, redactCommandValue, redactCommandList_silent hvs hlast h]

theorem silent_obj {ms : List (String × Json ν)} (hms : ∀ m ∈ ms, Silent redactString m.2) :
    Silent redactString (.obj ms) where
  value := by
    intro hlast w h
    cases h with
    | same => rfl
    | obj h => rw [redactValue, redactValue, redactMembers_silent hms hlast h]
  detail := by
    intro hlast w h
    cases h with
    | same => rfl
    | obj h => rw [redactDetailList, redactDetailList, redactMembers_silent hms hlast h]
  command := by
    intro hlast w h
    cases h with
    | same => rfl
    | obj h => rw [redactCommandValue, redactCommandValue, redactMembers_silent hms hlast h]
  paths := by
    intro _ _ _ heq
    cases heq
  commandLine := by
    intro _ _ _ heq
    cases heq

/-- **Redaction is noninterfering** on documents whose command lines end with their open
flags. -/
theorem silent (v : Json ν) : Silent redactString v := by
  induction v using Json.induct with
  | null => exact silent_of_plain (fun w h => by cases h; rfl) (fun _ h => by cases h)
  | bool b => exact silent_of_plain (fun w h => by cases h; rfl) (fun _ h => by cases h)
  | num n => exact silent_of_plain (fun w h => by cases h; rfl) (fun _ h => by cases h)
  | str s => exact silent_of_plain (fun w h => by cases h; rfl) (fun _ h => by cases h)
  | arr items ih => exact silent_arr ih
  | obj members ih => exact silent_obj ih

end Sound

/-! ### A value after a flag shows

The other direction: a document with something behind an open flag that is not hidden has a partner
that differs there alone, and the two are redacted differently. -/

mutual

/-- The members of every object have different keys, in order: what `encoding/json` decodes
to, and encodes. -/
def ordered : Json ν → Bool
  | .arr items => orderedItems items
  | .obj members => decide ((members.map Prod.fst).Pairwise (· < ·)) && orderedMembers members
  | .null | .bool _ | .num _ | .str _ => true

def orderedItems : List (Json ν) → Bool
  | [] => true
  | v :: vs => ordered v && orderedItems vs

def orderedMembers : List (String × Json ν) → Bool
  | [] => true
  | (_, v) :: ms => ordered v && orderedMembers ms

end

section Complete

variable {redactString : String → String}

theorem DifferItems.refl (vs : List (Json ν)) : DifferItems vs vs := by
  induction vs with
  | nil => exact .nil
  | cons v vs ih => exact .cons (.same v) ih

theorem DifferMembers.refl (ms : List (String × Json ν)) : DifferMembers ms ms := by
  induction ms with
  | nil => exact .nil
  | cons m ms ih => exact .cons (.same m.2) ih

/-- If the document has a value behind an open flag, then another one shows: itself, and under
the key of a command line. -/
structure Leaky (redactString : String → String) (v : Json ν) : Prop where
  value : flagsLast v = false → ∃ w, Differ v w ∧ (ordered v = true → ordered w = true) ∧
    redactValue redactString v ≠ redactValue redactString w ∧
    redactDetailList redactString v ≠ redactDetailList redactString w
  command : flagsLastValue v = false →
    ∃ w, (Differ v w ∨ ∃ vs ws, v = .arr vs ∧ w = .arr ws ∧ DifferCommand false vs ws) ∧
      (ordered v = true → ordered w = true) ∧
      redactCommandValue redactString v ≠ redactCommandValue redactString w

/-- Values whose redactions differ are lists or objects, which every loop redacts alike. -/
theorem item_of_ne {v w : Json ν} (h : Differ v w)
    (hne : redactValue redactString v ≠ redactValue redactString w) :
    redactDetailItem redactString v ≠ redactDetailItem redactString w ∧
      redactCommandItem redactString false v ≠ redactCommandItem redactString false w := by
  cases h with
  | same => exact (hne rfl).elim
  | arr _ => exact ⟨hne, hne⟩
  | obj _ => exact ⟨hne, hne⟩

theorem items_leaky {vs : List (Json ν)} (hvs : ∀ v ∈ vs, Leaky redactString v)
    (hlast : flagsLastItems vs = false) :
    ∃ ws, DifferItems vs ws ∧ (orderedItems vs = true → orderedItems ws = true) ∧
      redactItems redactString vs ≠ redactItems redactString ws ∧
      redactDetailItems redactString vs ≠ redactDetailItems redactString ws := by
  induction vs with
  | nil => cases hlast
  | cons v vs ih =>
      rw [flagsLastItems, Bool.and_eq_false_iff] at hlast
      rcases hlast with hv | htail
      · obtain ⟨w, hd, hord, hne, -⟩ := (hvs v List.mem_cons_self).value hv
        refine ⟨w :: vs, .cons hd (.refl vs), ?_, ?_, ?_⟩
        · simp only [orderedItems, Bool.and_eq_true]
          exact fun h => ⟨hord h.1, h.2⟩
        · exact fun h => hne (List.cons.inj h).1
        · rw [redactDetailItems_cons, redactDetailItems_cons]
          exact fun h => (item_of_ne hd hne).1 (List.cons.inj h).1
      · obtain ⟨ws, hd, hord, hne, hdet⟩ :=
          ih (fun x hx => hvs x (List.mem_cons_of_mem _ hx)) htail
        refine ⟨v :: ws, .cons (.same v) hd, ?_, ?_, ?_⟩
        · simp only [orderedItems, Bool.and_eq_true]
          exact fun h => ⟨h.1, hord h.2⟩
        · exact fun h => hne (List.cons.inj h).2
        · rw [redactDetailItems_cons, redactDetailItems_cons]
          exact fun h => hdet (List.cons.inj h).2

/-- Behind an open flag one of the truth values shows. -/
theorem commandList_bool (v : Json ν) (vs : List (Json ν)) :
    ∃ b, redactCommandList redactString true (v :: vs) ≠
      redactCommandList redactString true (.bool b :: vs) := by
  obtain ⟨x, rest, hx⟩ : ∃ x rest, redactCommandList redactString true (v :: vs) = x :: rest := by
    cases v <;> exact ⟨_, _, rfl⟩
  by_cases htrue : x = .bool true
  · refine ⟨false, fun h => ?_⟩
    rw [hx, htrue] at h
    cases (List.cons.inj h).1
  · exact ⟨true, fun h => htrue (List.cons.inj (hx ▸ h)).1⟩

theorem commandList_leaky {after : Bool} {vs : List (Json ν)}
    (hvs : ∀ v ∈ vs, Leaky redactString v) (hlast : flagsLastCommand after vs = false) :
    ∃ ws, DifferCommand after vs ws ∧ (orderedItems vs = true → orderedItems ws = true) ∧
      redactCommandList redactString after vs ≠ redactCommandList redactString after ws := by
  induction vs generalizing after with
  | nil => cases hlast
  | cons v vs ih =>
      cases after with
      | true =>
          obtain ⟨b, hb⟩ := commandList_bool v vs
          refine ⟨.bool b :: vs, .value (DifferItems.refl vs).command, ?_, hb⟩
          simp only [orderedItems, Bool.and_eq_true]
          exact fun h => ⟨rfl, h.2⟩
      | false =>
          rw [flagsLastCommand, Bool.not_false, Bool.true_and, Bool.and_eq_false_iff] at hlast
          rcases hlast with hv | htail
          · obtain ⟨w, hd, hord, hne, -⟩ := (hvs v List.mem_cons_self).value hv
            refine ⟨w :: vs, .cons hd (DifferItems.refl vs).command, ?_, ?_⟩
            · simp only [orderedItems, Bool.and_eq_true]
              exact fun h => ⟨hord h.1, h.2⟩
            · rw [redactCommandList_cons, redactCommandList_cons]
              exact fun h => (item_of_ne hd hne).2 (List.cons.inj h).1
          · obtain ⟨ws, hd, hord, hne⟩ :=
              ih (fun x hx => hvs x (List.mem_cons_of_mem _ hx)) htail
            refine ⟨v :: ws, .cons (.same v) hd, ?_, ?_⟩
            · simp only [orderedItems, Bool.and_eq_true]
              exact fun h => ⟨h.1, hord h.2⟩
            · rw [redactCommandList_cons, redactCommandList_cons]
              exact fun h => hne (List.cons.inj h).2

theorem member_leaky {key : String} {v : Json ν} (hv : Leaky redactString v)
    (hlast : (SensitiveKey key ||
      if SensitiveCommandKey key then flagsLastValue v else flagsLast v) = false)
    (ms : List (String × Json ν)) :
    ∃ w, DifferMembers ((key, v) :: ms) ((key, w) :: ms) ∧
      (ordered v = true → ordered w = true) ∧
      redactMember redactString key v ≠ redactMember redactString key w := by
  rw [Bool.or_eq_false_iff] at hlast
  obtain ⟨hkey, hlast⟩ := hlast
  by_cases hcommand : SensitiveCommandKey key = true
  · rw [if_pos hcommand] at hlast
    obtain ⟨w, hd, hord, hne⟩ := hv.command hlast
    refine ⟨w, ?_, hord, ?_⟩
    · rcases hd with hd | ⟨vs, ws, rfl, rfl, hd⟩
      · exact .cons hd (.refl ms)
      · exact .command hcommand hd (.refl ms)
    · simpa [redactMember, hcommand, (SensitiveKey_of_command hcommand).2] using hne
  · rw [if_neg hcommand] at hlast
    obtain ⟨w, hd, hord, hne, hdet⟩ := hv.value hlast
    refine ⟨w, .cons hd (.refl ms), hord, ?_⟩
    by_cases hpaths : SensitiveDetailListKey key = true
    · simpa [redactMember, hpaths] using hdet
    · simpa [redactMember, hpaths, hcommand, hkey] using hne

theorem members_leaky {ms : List (String × Json ν)} (hms : ∀ m ∈ ms, Leaky redactString m.2)
    (hlast : flagsLastMembers ms = false) :
    ∃ ns, DifferMembers ms ns ∧ ns.map Prod.fst = ms.map Prod.fst ∧
      (orderedMembers ms = true → orderedMembers ns = true) ∧
      redactMembers redactString ms ≠ redactMembers redactString ns := by
  induction ms with
  | nil => cases hlast
  | cons m ms ih =>
      obtain ⟨key, v⟩ := m
      rw [flagsLastMembers, Bool.and_eq_false_iff] at hlast
      rcases hlast with hv | htail
      · obtain ⟨w, hd, hord, hne⟩ := member_leaky (hms (key, v) List.mem_cons_self) hv ms
        refine ⟨(key, w) :: ms, hd, rfl, ?_, ?_⟩
        · simp only [orderedMembers, Bool.and_eq_true]
          exact fun h => ⟨hord h.1, h.2⟩
        · rw [redactMembers_cons, redactMembers_cons]
          exact fun h => hne (Prod.mk.inj (List.cons.inj h).1).2
      · obtain ⟨ns, hd, hkeys, hord, hne⟩ :=
          ih (fun x hx => hms x (List.mem_cons_of_mem _ hx)) htail
        refine ⟨(key, v) :: ns, .cons (.same v) hd, ?_, ?_, ?_⟩
        · rw [List.map_cons, List.map_cons, hkeys]
        · simp only [orderedMembers, Bool.and_eq_true]
          exact fun h => ⟨h.1, hord h.2⟩
        · exact fun h => hne (List.cons.inj h).2

theorem leaky_arr {vs : List (Json ν)} (hvs : ∀ v ∈ vs, Leaky redactString v) :
    Leaky redactString (.arr vs) where
  value := by
    intro hlast
    obtain ⟨ws, hd, hord, hne, hdet⟩ := items_leaky hvs hlast
    exact ⟨.arr ws, .arr hd, hord, fun h => hne (Json.arr.inj h), fun h => hdet (Json.arr.inj h)⟩
  command := by
    intro hlast
    obtain ⟨ws, hd, hord, hne⟩ := commandList_leaky hvs hlast
    exact ⟨.arr ws, .inr ⟨vs, ws, rfl, rfl, hd⟩, hord, fun h => hne (Json.arr.inj h)⟩

theorem leaky_obj {ms : List (String × Json ν)} (hms : ∀ m ∈ ms, Leaky redactString m.2) :
    Leaky redactString (.obj ms) := by
  have key : flagsLastMembers ms = false → ∃ ns, DifferMembers ms ns ∧
      (ordered (.obj ms) = true → ordered (.obj ns) = true) ∧
      redactMembers redactString ms ≠ redactMembers redactString ns := by
    intro hlast
    obtain ⟨ns, hd, hkeys, hord, hne⟩ := members_leaky hms hlast
    refine ⟨ns, hd, ?_, hne⟩
    simp only [ordered, Bool.and_eq_true, hkeys]
    exact fun h => ⟨h.1, hord h.2⟩
  constructor
  · intro hlast
    obtain ⟨ns, hd, hord, hne⟩ := key hlast
    exact ⟨.obj ns, .obj hd, hord, fun h => hne (Json.obj.inj h), fun h => hne (Json.obj.inj h)⟩
  · intro hlast
    obtain ⟨ns, hd, hord, hne⟩ := key hlast
    exact ⟨.obj ns, .inl (.obj hd), hord, fun h => hne (Json.obj.inj h)⟩

/-- **A value behind an open flag shows**, wherever in the document it is. -/
theorem leaky (v : Json ν) : Leaky redactString v := by
  induction v using Json.induct with
  | null => exact ⟨(by cases ·), (by cases ·)⟩
  | bool b => exact ⟨(by cases ·), (by cases ·)⟩
  | num n => exact ⟨(by cases ·), (by cases ·)⟩
  | str s => exact ⟨(by cases ·), (by cases ·)⟩
  | arr items ih => exact leaky_arr ih
  | obj members ih => exact leaky_obj ih

end Complete

/-! ### Texts -/

section Texts

variable {redactString : String → String}

/-- The redactions of a value have its keys in order. -/
structure KeepsOrder (redactString : String → String) (v : Json ν) : Prop where
  value : ordered v = true → ordered (redactValue redactString v) = true
  detail : ordered v = true → ordered (redactDetailList redactString v) = true
  command : ordered v = true → ordered (redactCommandValue redactString v) = true

theorem items_keepOrder {vs : List (Json ν)} (hvs : ∀ v ∈ vs, KeepsOrder redactString v)
    (hord : orderedItems vs = true) :
    orderedItems (redactItems redactString vs) = true ∧
      orderedItems (redactDetailItems redactString vs) = true ∧
      ∀ next, orderedItems (redactCommandList redactString next vs) = true := by
  induction vs with
  | nil => exact ⟨rfl, rfl, fun _ => rfl⟩
  | cons v vs ih =>
      rw [orderedItems, Bool.and_eq_true] at hord
      obtain ⟨hitems, hdetail, hcommand⟩ :=
        ih (fun x hx => hvs x (List.mem_cons_of_mem _ hx)) hord.2
      have hv := (hvs v List.mem_cons_self).value hord.1
      refine ⟨?_, ?_, fun next => ?_⟩
      · rw [redactItems, orderedItems, hv, hitems]
        rfl
      · cases v with
        | str s => rw [redactDetailItems, orderedItems, hdetail]; rfl
        | _ => rw [redactDetailItems, orderedItems, hv, hdetail] <;> simp
      · cases v with
        | str s => rw [redactCommandList, orderedItems, hcommand]; rfl
        | _ => rw [redactCommandList, orderedItems, hv, hcommand] <;> simp

theorem keys_redactMembers (ms : List (String × Json ν)) :
    (redactMembers redactString ms).map Prod.fst = ms.map Prod.fst := by
  induction ms with
  | nil => rfl
  | cons m ms ih => rw [redactMembers, List.map_cons, List.map_cons, ih]

theorem members_keepOrder {ms : List (String × Json ν)}
    (hms : ∀ m ∈ ms, KeepsOrder redactString m.2) (hord : orderedMembers ms = true) :
    orderedMembers (redactMembers redactString ms) = true := by
  induction ms with
  | nil => rfl
  | cons m ms ih =>
      obtain ⟨key, v⟩ := m
      have hv : KeepsOrder redactString v := hms (key, v) List.mem_cons_self
      rw [orderedMembers, Bool.and_eq_true] at hord
      rw [redactMembers_cons, orderedMembers, Bool.and_eq_true]
      refine ⟨?_, ih (fun x hx => hms x (List.mem_cons_of_mem _ hx)) hord.2⟩
      unfold redactMember
      split_ifs
      · exact hv.detail hord.1
      · exact hv.command hord.1
      · rfl
      · exact hv.value hord.1

theorem keepsOrder (v : Json ν) : KeepsOrder redactString v := by
  induction v using Json.induct with
  | null => exact ⟨id, id, id⟩
  | bool b => exact ⟨id, id, id⟩
  | num n => exact ⟨id, id, id⟩
  | str s => exact ⟨fun _ => rfl, fun _ => rfl, fun _ => rfl⟩
  | arr items ih =>
      exact ⟨fun h => (items_keepOrder ih h).1, fun h => (items_keepOrder ih h).2.1,
        fun h => (items_keepOrder ih h).2.2 false⟩
  | obj members ih =>
      have key : ordered (.obj members) = true →
          ordered (.obj (redactMembers redactString members)) = true := by
        simp only [ordered, Bool.and_eq_true, keys_redactMembers]
        exact fun h => ⟨h.1, members_keepOrder ih h.2⟩
      exact ⟨key, key, key⟩

/-- `encoding/json` as the bundle uses it: `ρ` are texts and `ν` is what numbers are decoded
to. What is decoded has its keys in order, and what is encoded is decoded again. -/
structure Encoding (ρ ν : Type) where
  unmarshal : ρ → Option (Json ν)
  marshal : Json ν → ρ
  string : ρ → String
  ordered_unmarshal : ∀ {raw v}, unmarshal raw = some v → ordered v = true
  unmarshal_marshal : ∀ {v}, ordered v = true → unmarshal (marshal v) = some v

-- the laws can be met: take the documents themselves for texts
example : Nonempty (Encoding (Json Nat) Nat) :=
  ⟨{ unmarshal := fun v => if ordered v then some v else none
     marshal := fun v => v
     string := fun _ => ""
     ordered_unmarshal := by
       intro raw v h
       split at h <;> simp_all
     unmarshal_marshal := fun h => if_pos h }⟩

/-- `RedactRawJSON`: a text that does not decode is redacted as a string. -/
def RedactRawJSON {ρ : Type} (E : Encoding ρ ν) (redactString : String → String) (raw : ρ) : ρ :=
  match E.unmarshal raw with
  | none => E.marshal (.str (redactString (E.string raw)))
  | some value => E.marshal (redactValue redactString value)

/-- **Redaction hides what is to be hidden** of a text: every document that differs from it in
hidden values only is redacted to the same text. -/
def Noninterfering {ρ : Type} (E : Encoding ρ ν) (redactString : String → String) (raw : ρ) :
    Prop :=
  ∀ raw' v v', E.unmarshal raw = some v → E.unmarshal raw' = some v' → Differ v v' →
    RedactRawJSON E redactString raw = RedactRawJSON E redactString raw'

theorem marshal_inj {ρ : Type} (E : Encoding ρ ν) {v w : Json ν} (hv : ordered v = true)
    (hw : ordered w = true) (h : E.marshal v = E.marshal w) : v = w := by
  have hdecoded := E.unmarshal_marshal hv
  rw [h, E.unmarshal_marshal hw] at hdecoded
  exact (Option.some.inj hdecoded).symm

/-- **When redaction is noninterfering.** Documents that differ from a given one only in
hidden values are all redacted to the same text if and only if no command line of it has
anything behind an open sensitive flag. -/
theorem noninterfering_iff {ρ : Type} (E : Encoding ρ ν) (redactString : String → String)
    (raw : ρ) :
    Noninterfering E redactString raw ↔
      ∀ v, E.unmarshal raw = some v → flagsLast v = true := by
  constructor
  · intro hsame v hv
    by_contra hlast
    obtain ⟨w, hd, hord, hne, -⟩ := (leaky v).value ((Bool.not_eq_true _).mp hlast)
    have hordered := E.ordered_unmarshal hv
    have hw := E.unmarshal_marshal (hord hordered)
    have heq := hsame (E.marshal w) v w hv hw hd
    rw [RedactRawJSON, RedactRawJSON, hv, hw] at heq
    exact hne (marshal_inj E ((keepsOrder v).value hordered) ((keepsOrder w).value (hord hordered))
      heq)
  · intro hlast raw' v v' hv hv' hd
    rw [RedactRawJSON, RedactRawJSON, hv, hv']
    exact congrArg E.marshal ((silent v).value (hlast v hv) hd)

/-- The status of a command whose token is a number. -/
def tokenCommand (token : Nat) : Json Nat :=
  .obj [("command", .arr [.str "ngfwctl", .str "--token", .num token])]

theorem redactValue_tokenCommand (redactString : String → String) (token : Nat) :
    redactValue redactString (tokenCommand token) =
      .obj [("command", .arr [.str (redactString "ngfwctl"), .str "--token", .num token])] := by
  rfl

/-- A **numeric token shows**: whatever the encoding and the rewriting of strings, documents
that differ in it alone are redacted differently. -/
theorem tokenCommand_shows : ¬ ∃ (ρ : Type) (E : Encoding ρ Nat) (redactString : String → String),
    Noninterfering E redactString (E.marshal (tokenCommand 1)) := by
  rintro ⟨ρ, E, redactString, hsame⟩
  have hd : Differ (tokenCommand 1) (tokenCommand 2) :=
    .obj (.command (by decide) (.cons (.same _) (.cons (.same _) (.value .nil))) .nil)
  have hone : E.unmarshal (E.marshal (tokenCommand 1)) = some (tokenCommand 1) :=
    E.unmarshal_marshal (by decide)
  have htwo : E.unmarshal (E.marshal (tokenCommand 2)) = some (tokenCommand 2) :=
    E.unmarshal_marshal (by decide)
  have heq := hsame _ _ _ hone htwo hd
  rw [RedactRawJSON, RedactRawJSON, hone, htwo] at heq
  have hvalue := marshal_inj E ((keepsOrder _).value (by decide))
    ((keepsOrder _).value (by decide)) heq
  rw [redactValue_tokenCommand, redactValue_tokenCommand] at hvalue
  simp at hvalue

end Texts

end Phragma.Supportbundle
