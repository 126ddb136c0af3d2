import Phragma.Lib.Collect
import Phragma.Go.Lines
import Phragma.Go.Netip
import Phragma.Policy.RuleIdentity

/-!
# Phragma.Policy.Check

What the sections of the policy validator share (`internal/policy/validate.go`): the
patterns texts are checked against, the bounds, and the treatment of named elements.

Almost every loop treats one element alike: check its name, refuse a name seen
before, then look at the rest of it. `named` is that treatment, over whatever state the
loop threads; `checkEach` is the loop that only remembers the names.
-/

namespace Phragma.Policy

open Lib Go

/-! ### Patterns

The regular expressions of the source, each as a test on characters. -/

/-- `[a-z0-9_-]`: the characters of a name. -/
def isNameChar (c : Char) : Bool := isLowerAlnum c || c == '_' || c == '-'

/-- `nameRE`: up to 64 name characters, the first and the last a letter or digit. -/
def nameRE : List Char → Bool
  | [] => false
  | c :: cs =>
      isLowerAlnum c &&
        (cs.isEmpty || (decide (cs.length ≤ 63) && cs.dropLast.all isNameChar &&
          isLowerAlnum (cs.getLastD ' ')))

/-- A letter or digit, then at most `n` characters of a class. -/
def labelRE (cls : Char → Bool) (n : Nat) : List Char → Bool
  | [] => false
  | c :: cs => isLowerAlnum c && decide (cs.length ≤ n) && cs.all cls

/-- `appSignalRE`: a signal of an application. -/
def appSignalRE : List Char → Bool :=
  labelRE (fun c => isNameChar c || c == '.') 127

/-- `tagRE`: a tag of a rule. -/
def tagRE : List Char → Bool := labelRE isRuleIDChar 63

/-- `contextRE`: a user, group, device or label. -/
def contextRE : List Char → Bool :=
  labelRE (fun c => isRuleIDChar c || c == '@' || c == '/') 127

/-- `threatIDRE`: the id of a threat. -/
def threatIDRE : List Char → Bool := labelRE isRuleIDChar 127

/-- `sha256RE`: a digest in hexadecimal. -/
def sha256RE (cs : List Char) : Bool := cs.length == 64 && cs.all fun c => (hexValue c).isSome

/-- A date accepted by `time.Parse("2006-01-02", _)`. -/
def isDate (s : String) : Bool :=
  match s.toList with
  | [y1, y2, y3, y4, '-', m1, m2, '-', d1, d2] =>
      if [y1, y2, y3, y4, m1, m2, d1, d2].all Char.isDigit then
        let digits (l : List Char) : Nat := l.foldl (fun n c => n * 10 + (c.toNat - '0'.toNat)) 0
        let year := digits [y1, y2, y3, y4]
        let month := digits [m1, m2]
        let day := digits [d1, d2]
        let leap := year % 4 == 0 && (year % 100 != 0 || year % 400 == 0)
        let days :=
          if month == 2 then if leap then 29 else 28
          else if [4, 6, 9, 11].contains month then 30
          else 31
        decide (1 ≤ month) && decide (month ≤ 12) && decide (1 ≤ day) && decide (day ≤ days)
      else false
  | _ => false

/-! ### Bounds -/

def maxRuleTags : Nat := 32
def maxRuleSecurityProfiles : Nat := 8
def maxQoSRateKbps : Nat := 100000000
def maxQoSBurstKBytes : Nat := 1048576
def maxZoneProtectionRatePPS : Nat := 10000000
def maxZoneProtectionConnections : Nat := 100000000
def maxRuleContextValues : Nat := 64
def maxWAFRequestBodyKB : Nat := 1024
def minMTU : Nat := 1280
def maxMTU : Nat := 9600

/-! ### Named elements -/

/-- A message when a condition holds. -/
def errIf (b : Bool) (msg : String) : List String := if b then [msg] else []

/-- `checkName`: no message means the name is usable. -/
def checkName (kind name : String) : List String :=
  if name = "" then [kind ++ " with empty name"]
  else if name = Any then [kind ++ " name " ++ quote Any ++ " is reserved"]
  else if !nameRE name.toList then
    [kind ++ " name " ++ quote name ++
      " is invalid (lowercase alphanumeric, '-', '_', max 64 chars)"]
  else []

/-- The frame of a loop over named elements: skip an element whose name is unusable or
was seen before, otherwise run the body. -/
def named {α σ : Type} (kind : String) (name : α → String) (seen : σ → String → Bool)
    (body : σ → α → List String × σ) (s : σ) (a : α) : List String × σ :=
  match checkName kind (name a) with
  | [] =>
      if seen s (name a) then (["duplicate " ++ kind ++ " " ++ quote (name a)], s) else body s a
  | errs => (errs, s)

/-- A quiet round of a named loop: the name is usable and new, and the body was quiet. -/
theorem named_quiet {α σ : Type} {kind : String} {name : α → String} {seen : σ → String → Bool}
    {body : σ → α → List String × σ} {s : σ} {a : α}
    (h : (named kind name seen body s a).1 = []) :
    checkName kind (name a) = [] ∧ seen s (name a) = false ∧ (body s a).1 = [] ∧
      (named kind name seen body s a).2 = (body s a).2 := by
  unfold named at h ⊢
  cases hn : checkName kind (name a) with
  | cons e es => simp [hn] at h
  | nil =>
      cases hs : seen s (name a) with
      | true => simp [hn, hs] at h
      | false => simpa [hn, hs] using h

/-- A name `checkName` accepts. -/
structure UsableName (name : String) : Prop where
  ne_empty : name ≠ ""
  ne_any : name ≠ Any
  pattern : nameRE name.toList = true

theorem usable_of_checkName {kind name : String} (h : checkName kind name = []) :
    UsableName name := by
  unfold checkName at h
  split_ifs at h with hempty hany hpattern
  exact ⟨hempty, hany, by simpa using hpattern⟩

theorem isRuleIDChar_of_isNameChar {c : Char} (h : isNameChar c = true) :
    isRuleIDChar c = true := by
  simp only [isNameChar, Bool.or_eq_true] at h
  simp only [isRuleIDChar, Bool.or_eq_true]
  tauto

theorem isNameChar_of_nameRE {cs : List Char} (h : nameRE cs = true) :
    ∀ c ∈ cs, isNameChar c = true := by
  have hlower : ∀ c, isLowerAlnum c = true → isNameChar c = true := by
    intro c hc
    simp [isNameChar, hc]
  cases cs with
  | nil => simp
  | cons c cs =>
      simp only [nameRE, Bool.and_eq_true, Bool.or_eq_true, List.all_eq_true] at h
      obtain ⟨hc, hrest⟩ := h
      intro d hd
      rcases List.mem_cons.mp hd with rfl | hd
      · exact hlower d hc
      · rcases hrest with hnil | ⟨⟨-, hmid⟩, hlast⟩
        · rw [List.isEmpty_iff.mp hnil] at hd
          cases hd
        · have hne : cs ≠ [] := List.ne_nil_of_mem hd
          rw [← List.dropLast_append_getLast hne] at hd
          rcases List.mem_append.mp hd with hd | hd
          · exact hmid d hd
          · rw [List.mem_singleton.mp hd]
            rw [List.getLastD_eq_getLast?, List.getLast?_eq_some_getLast hne] at hlast
            exact hlower _ hlast

/-- A usable name is a word. -/
theorem UsableName.isWord {name : String} (h : UsableName name) : IsWord name := by
  refine ⟨h.ne_empty, fun c hc => ?_⟩
  exact isSpace_of_isRuleIDChar (isRuleIDChar_of_isNameChar (isNameChar_of_nameRE h.pattern c hc))

/-- A loop over named elements that only remembers the names. -/
def checkEach {α : Type} (kind : String) (name : α → String) (check : α → List String)
    (items : List α) : List String :=
  (collect (named kind name (fun (s : List String) n => s.contains n)
    fun s a => (check a, name a :: s)) [] items).1

end Phragma.Policy
