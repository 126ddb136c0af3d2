import Mathlib

/-!
# Phragma.Go.Strings

The functions of Go's `strings`, `strconv` and `unicode` packages that the control
plane calls on text that is known to be UTF-8 (policy fields, rendered
configuration, error texts). Such text is a Lean `String`; the functions work on
its list of runes, so that they reduce in the kernel.

Strings whose bytes are *not* known to be UTF-8 (the audit log's fields) are byte
sequences, in `Phragma.Go.Json`.
-/

namespace Phragma.Go

/-! Statements about the runes of a text are decided by going through the text, not through all
runes there are. -/

instance (priority := 2000) decidableForallRune (p : Char → Prop) [DecidablePred p]
    (l : List Char) : Decidable (∀ c, c ∈ l → p c) :=
  List.decidableBAll p l

instance (priority := 2000) decidableExistsRune (p : Char → Prop) [DecidablePred p]
    (l : List Char) : Decidable (∃ c, c ∈ l ∧ p c) :=
  List.decidableBEx p l

/-- `unicode.IsSpace`: white space. -/
def isSpace (c : Char) : Bool :=
  let n := c.toNat
  (9 ≤ n && n ≤ 13) || n == 0x20 || n == 0x85 || n == 0xa0 || n == 0x1680 ||
    (0x2000 ≤ n && n ≤ 0x200a) || n == 0x2028 || n == 0x2029 || n == 0x202f ||
    n == 0x205f || n == 0x3000

/-- Drop the elements that satisfy `p` from both ends of a list. -/
def trimList {α : Type} (p : α → Bool) (l : List α) : List α :=
  ((l.dropWhile p).reverse.dropWhile p).reverse

/-- `strings.TrimSpace`: a text without the white space around it. -/
def trimSpace (s : String) : String := String.ofList (trimList isSpace s.toList)

/-- `strings.Trim` with a cutset of single characters. -/
def trim (cutset : List Char) (s : List Char) : List Char :=
  trimList (fun c => cutset.contains c) s

/-- `unicode.ToLower` as far as its callers can see: they compare the result with
ASCII text, so only the letters whose lower case is ASCII matter. Besides `A` to `Z`
these are the Kelvin sign and the dotted capital I. -/
def toLowerRune (c : Char) : Char :=
  if 'A' ≤ c ∧ c ≤ 'Z' then Char.ofNat (c.toNat + 32)
  else if c.toNat == 0x212a then 'k'
  else if c.toNat == 0x130 then 'i'
  else c

/-- `strings.ToLower`: a text in lower case, rune by rune. -/
def toLower (s : String) : String := String.ofList (s.toList.map toLowerRune)

/-- `strings.Contains`: is it a part of the text? -/
def Contains (s sub : String) : Prop := sub.toList <:+: s.toList

instance (s sub : String) : Decidable (Contains s sub) :=
  inferInstanceAs (Decidable (sub.toList <:+: s.toList))

/-- `strings.HasPrefix` on rune lists. -/
def hasPrefixList (s lead : List Char) : Bool := lead.isPrefixOf s

/-- Split a rune list at every occurrence of `c` (`strings.Split` with a one-rune
separator): the parts between separators, never an empty list. -/
def splitOn (c : Char) : List Char → List (List Char)
  | [] => [[]]
  | x :: xs =>
    if x = c then [] :: splitOn c xs
    else
      match splitOn c xs with
      | [] => [[x]]
      | part :: parts => (x :: part) :: parts

/-- A hexadecimal digit, lower case. -/
def hexDigit (n : Nat) : Char :=
  if n < 10 then Char.ofNat (n + '0'.toNat) else Char.ofNat (n - 10 + 'a'.toNat)

/-- The digits of `n` in base 16, most significant first (`%x`), no leading zeros. -/
def hexDigits (n : Nat) : List Char := (Nat.toDigits 16 n)

/-- `%02x`: a byte in two digits. -/
def hexByte (n : Nat) : List Char := [hexDigit (n / 16 % 16), hexDigit (n % 16)]

/-- One rune of `strconv.Quote`. Runes above ASCII are taken to be printable; the
tables of `strconv.IsPrint` are not reproduced. -/
def quoteRune (c : Char) : List Char :=
  if c = '"' then ['\\', '"']
  else if c = '\\' then ['\\', '\\']
  else if c.toNat = 7 then ['\\', 'a']
  else if c.toNat = 8 then ['\\', 'b']
  else if c.toNat = 12 then ['\\', 'f']
  else if c = '\n' then ['\\', 'n']
  else if c = '\r' then ['\\', 'r']
  else if c = '\t' then ['\\', 't']
  else if c.toNat = 11 then ['\\', 'v']
  else if c.toNat < 32 ∨ c.toNat = 127 then '\\' :: 'x' :: hexByte c.toNat
  else [c]

/-- `strconv.Quote`, the `%q` verb. -/
def quote (s : String) : String :=
  String.ofList ('"' :: s.toList.flatMap quoteRune ++ ['"'])

/-- `strings.Join`: texts with a separator between them. -/
def join (parts : List String) (sep : String) : String := sep.intercalate parts

/-- `%d` of an unsigned value. -/
def decimal (n : Nat) : String := toString n

/-- The loop of `strings.Fields`: the current word (reversed) and the rest. -/
def fieldsLoop : List Char → List Char → List String
  | word, [] => if word.isEmpty then [] else [String.ofList word.reverse]
  | word, c :: cs =>
      if isSpace c then
        (if word.isEmpty then [] else [String.ofList word.reverse]) ++ fieldsLoop [] cs
      else fieldsLoop (c :: word) cs

/-- `strings.Fields`: the words of a text. -/
def fields (s : String) : List String := fieldsLoop [] s.toList

/-- The loop of `strings.Replacer.Replace`: `skip` runes still belong to the last match.
At every position the first pair that matches there is taken. -/
def replaceLoop (pairs : List (String × String)) : Nat → List Char → List Char
  | _, [] => []
  | skip + 1, _ :: cs => replaceLoop pairs skip cs
  | 0, c :: cs =>
      match pairs.find? fun p => hasPrefixList (c :: cs) p.1.toList with
      | some (old, new) => new.toList ++ replaceLoop pairs (old.toList.length - 1) cs
      | none => c :: replaceLoop pairs 0 cs

/-- `strings.NewReplacer` of non-empty texts, applied. -/
def replaceAll (pairs : List (String × String)) (s : String) : String :=
  String.ofList (replaceLoop pairs 0 s.toList)

/-- One element of a path, on the reversed elements before it (`filepath.Clean`). -/
def cleanStep (rooted : Bool) (done : List (List Char)) (e : List Char) : List (List Char) :=
  if e = [] ∨ e = ['.'] then done
  else if e = ['.', '.'] then
    match done with
    | [] => if rooted then [] else [e]
    | top :: rest => if top = ['.', '.'] then e :: done else rest
  else e :: done

/-- `filepath.Clean`: a path without empty elements and dots, and with its steps up taken. -/
def cleanPath (s : String) : String :=
  let rooted := s.toList.head? == some '/'
  let parts := ((splitOn '/' s.toList).foldl (cleanStep rooted) []).reverse.map String.ofList
  let body := join parts "/"
  if rooted then "/" ++ body else if body = "" then "." else body

/-- `filepath.Join`: the elements of a path, cleaned. Empty ones are left out. -/
def joinPath (parts : List String) : String :=
  let parts := parts.filter fun p => p != ""
  if parts.isEmpty then "" else cleanPath (join parts "/")

/-! ### Trimming and splitting -/

/-- Nothing is trimmed where nothing satisfies `p`. -/
theorem trimList_eq_self {α : Type} {p : α → Bool} {l : List α} (h : ∀ c ∈ l, p c = false) :
    trimList p l = l := by
  have drop : ∀ k : List α, (∀ c ∈ k, p c = false) → k.dropWhile p = k := by
    intro k hk
    cases k with
    | nil => rfl
    | cons c cs => simp [hk c List.mem_cons_self]
  unfold trimList
  rw [drop l h, drop l.reverse (fun c hc => h c (List.mem_reverse.mp hc)), List.reverse_reverse]

/-- Trimming keeps a first element that does not satisfy `p`, and cuts the rest down
to a shorter prefix of it. -/
theorem trimList_cons {α : Type} {p : α → Bool} {c : α} {l : List α} (hc : p c = false) :
    ∃ t, trimList p (c :: l) = c :: t ∧ t <+: l := by
  unfold trimList
  rw [List.dropWhile_cons_of_neg (by simp [hc]), List.reverse_cons, List.dropWhile_append]
  by_cases hl : (l.reverse.dropWhile p).isEmpty = true
  · exact ⟨[], by simp [hl, hc], List.nil_prefix⟩
  · refine ⟨(l.reverse.dropWhile p).reverse, by simp [hl], ?_⟩
    have hsuf : l.reverse.dropWhile p <:+ l.reverse := List.dropWhile_suffix p
    exact (List.reverse_suffix.mp (by simpa using hsuf))

/-- Trimming adds nothing. -/
theorem mem_of_mem_trimList {α : Type} {p : α → Bool} {c : α} {l : List α}
    (h : c ∈ trimList p l) : c ∈ l := by
  unfold trimList at h
  have h1 := (List.dropWhile_sublist p).mem (List.mem_reverse.mp h)
  exact (List.dropWhile_sublist p).mem (List.mem_reverse.mp h1)

/-- The parts of a split text hold characters of the text. -/
theorem mem_of_mem_splitOn {c x : Char} : ∀ {l part : List Char},
    part ∈ splitOn c l → x ∈ part → x ∈ l := by
  intro l
  induction l with
  | nil => intro part hp hx; simp [splitOn] at hp; simp [hp] at hx
  | cons y ys ih =>
      intro part hp hx
      simp only [splitOn] at hp
      split at hp
      · rcases List.mem_cons.mp hp with rfl | hp
        · simp at hx
        · exact List.mem_cons_of_mem _ (ih hp hx)
      · split at hp
        · simp only [List.mem_singleton] at hp
          simp_all
        · rename_i head rest heq
          rcases List.mem_cons.mp hp with rfl | hp
          · rcases List.mem_cons.mp hx with rfl | hx
            · exact List.mem_cons_self
            · exact List.mem_cons_of_mem _ (ih (heq ▸ List.mem_cons_self) hx)
          · exact List.mem_cons_of_mem _ (ih (heq ▸ List.mem_cons_of_mem _ hp) hx)

/-! ### Digits -/

theorem toList_decimal (n : Nat) : (decimal n).toList = Nat.toDigits 10 n := by
  rw [decimal, Nat.toString_eq_repr, Nat.toList_repr]

theorem isDigit_of_mem_decimal {n : Nat} {c : Char} (h : c ∈ (decimal n).toList) :
    c.isDigit = true := by
  rw [toList_decimal] at h
  exact Nat.isDigit_of_mem_toDigits (by decide) (by decide) h

theorem decimal_ne_nil (n : Nat) : (decimal n).toList ≠ [] := by
  rw [toList_decimal]
  exact List.ne_nil_of_length_pos Nat.length_toDigits_pos

/-- A number below `10 ^ k` has at most `k` digits. -/
theorem length_decimal {n k : Nat} (hk : 0 < k) : (decimal n).toList.length ≤ k ↔ n < 10 ^ k := by
  rw [toList_decimal]
  exact Nat.length_toDigits_le_iff (by decide) hk

/-! ### Concatenation and `Contains` -/

theorem contains_of_append {a b sub : String} (h : Contains a sub) : Contains (a ++ b) sub := by
  unfold Contains at h ⊢
  rw [String.toList_append]
  exact h.trans (List.prefix_append _ _).isInfix

theorem contains_append_right {a b sub : String} (h : Contains b sub) : Contains (a ++ b) sub := by
  unfold Contains at h ⊢
  rw [String.toList_append]
  exact h.trans (List.suffix_append _ _).isInfix

theorem contains_self_append (a b : String) : Contains (a ++ b) a := by
  unfold Contains
  rw [String.toList_append]
  exact (List.prefix_append _ _).isInfix

/-- A substring of a substring is a substring. -/
theorem Contains.trans {a b c : String} (h : Contains b c) (h' : Contains a b) : Contains a c :=
  List.IsInfix.trans h h'

end Phragma.Go
