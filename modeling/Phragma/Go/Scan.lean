import Mathlib.Data.List.DropRight
import Mathlib.Data.List.TakeWhile
import Phragma.Go.Lines

/-!
# Phragma.Go.Scan

Reading a text line by line with `bufio.Scanner`, and the `strings` and `strconv` functions
its callers apply to a line.

A scanner cuts at line ends, drops one carriage return before each, and **stops at the first
line of 64 KiB or more** with an error its caller has to ask for. The lines of a text that
was written line by line are the parts of the lines written (`scanText_unlines`): a written
line that holds line ends is read as several.
-/

namespace Phragma.Go

/-- `bufio.MaxScanTokenSize`: a line with its line end has to fit. -/
def maxScanTokenSize : Nat := 65536

/-- The length of a text in bytes. -/
def byteLen (cs : List Char) : Nat := (cs.map Char.utf8Size).sum

/-- `dropCR`: a line without the carriage return at its end. -/
def dropCR (cs : List Char) : List Char := if cs.getLast? = some '\r' then cs.dropLast else cs

/-- The line of one part between line ends. -/
def scanned (part : List Char) : String := String.ofList (dropCR part)

/-- The parts `bufio.ScanLines` cuts a text into: nothing follows a last line end. -/
def textParts (s : String) : List (List Char) :=
  let parts := splitOn '\n' s.toList
  if parts.getLast? = some [] then parts.dropLast else parts

/-- Does a part fit in the scanner's buffer, together with its line end? -/
def fitsBuffer (part : List Char) : Bool := decide (byteLen part < maxScanTokenSize)

/-- `for sc.Scan() { .. sc.Text() .. }`: the lines read. -/
def scanText (s : String) : List String := ((textParts s).takeWhile fitsBuffer).map scanned

/-- `sc.Err()` after that loop: was a line too long? -/
def scanErr (s : String) : Option String :=
  if (textParts s).all fitsBuffer then none else some "bufio.Scanner: token too long"

/-- `strings.CutPrefix`: the text after `lead`. -/
def cutPrefix (s lead : String) : Option String :=
  if lead.toList.isPrefixOf s.toList then some (String.ofList (s.toList.drop lead.toList.length))
  else none

/-- The value of decimal digits. -/
def digitsValue (cs : List Char) : Option Nat :=
  if cs.isEmpty || !cs.all Char.isDigit then none else some (Nat.ofDigitChars 10 cs 0)

/-- `strconv.Atoi`, in 64 bits. -/
def atoi (s : String) : Option Int :=
  match s.toList with
  | '-' :: cs => (digitsValue cs).bind fun n => if n ≤ 2 ^ 63 then some (-(n : Int)) else none
  | '+' :: cs => (digitsValue cs).bind fun n => if n < 2 ^ 63 then some (n : Int) else none
  | cs => (digitsValue cs).bind fun n => if n < 2 ^ 63 then some (n : Int) else none

/-! ### Scanning what was written line by line -/

/-- The physical lines of a text that is written as one line. -/
def lineParts (l : String) : List (List Char) := splitOn '\n' l.toList

theorem textParts_unlines (ls : List String) : textParts (unlines ls) = ls.flatMap lineParts := by
  have hsplit : ∀ ls : List String,
      splitOn '\n' (unlines ls).toList = ls.flatMap lineParts ++ [[]] := by
    intro ls
    induction ls with
    | nil => rfl
    | cons l ls ih =>
        have hcons : (unlines (l :: ls)).toList = l.toList ++ '\n' :: (unlines ls).toList := by
          simp [unlines, String.toList_join]
        rw [hcons, splitOn_append, ih, List.flatMap_cons, lineParts, List.append_assoc]
  unfold textParts
  simp [hsplit ls]

/-- Without a line that is too long, every written line is read as its parts. -/
theorem scanText_unlines {ls : List String}
    (h : ∀ l ∈ ls, ∀ part ∈ lineParts l, fitsBuffer part = true) :
    scanText (unlines ls) = ls.flatMap fun l => (lineParts l).map scanned := by
  have hall : ∀ part ∈ ls.flatMap lineParts, fitsBuffer part = true := by
    intro part hpart
    obtain ⟨l, hl, hpart⟩ := List.mem_flatMap.mp hpart
    exact h l hl part hpart
  unfold scanText
  rw [textParts_unlines, List.takeWhile_eq_self_iff.mpr hall, List.map_flatMap]

theorem scanErr_unlines {ls : List String} :
    scanErr (unlines ls) = none ↔ ∀ l ∈ ls, ∀ part ∈ lineParts l, fitsBuffer part = true := by
  unfold scanErr
  rw [textParts_unlines]
  constructor
  · intro h l hl part hpart
    split at h
    · next hall => exact List.all_eq_true.mp hall part (List.mem_flatMap.mpr ⟨l, hl, hpart⟩)
    · cases h
  · intro h
    refine if_pos (List.all_eq_true.mpr ?_)
    intro part hpart
    obtain ⟨l, hl, hpart⟩ := List.mem_flatMap.mp hpart
    exact h l hl part hpart

theorem lineParts_of_notMem {l : String} (h : '\n' ∉ l.toList) : lineParts l = [l.toList] :=
  splitOn_of_notMem h

/-- Text before the first line end belongs to the first part. -/
theorem lineParts_append {lead l : String} (h : '\n' ∉ lead.toList) :
    ∃ part parts, lineParts l = part :: parts ∧
      lineParts (lead ++ l) = (lead.toList ++ part) :: parts := by
  have hsplit : ∀ cs : List Char, '\n' ∉ cs → ∀ part parts, splitOn '\n' l.toList = part :: parts →
      splitOn '\n' (cs ++ l.toList) = (cs ++ part) :: parts := by
    intro cs
    induction cs with
    | nil => intro _ part parts hl; exact hl
    | cons c cs ih =>
        intro hcs part parts hl
        obtain ⟨hc, hcs⟩ := not_or.mp (mt List.mem_cons.mpr hcs)
        have htail := ih hcs part parts hl
        simp [splitOn, Ne.symm hc, htail]
  obtain ⟨part, parts, hl⟩ := List.exists_cons_of_ne_nil (splitOn_ne_nil '\n' l.toList)
  refine ⟨part, parts, hl, ?_⟩
  unfold lineParts
  rw [String.toList_append]
  exact hsplit lead.toList h part parts hl

/-! ### Trimmed lines -/

/-- Trimming drops the carriage return anyway. -/
theorem trimList_dropCR (cs : List Char) : trimList isSpace (dropCR cs) = trimList isSpace cs := by
  unfold dropCR
  split
  · next h =>
      obtain ⟨init, rfl⟩ : ∃ init, cs = init ++ ['\r'] := List.getLast?_eq_some_iff.mp h
      have hcr : isSpace '\r' = true := by decide
      rw [List.dropLast_concat]
      unfold trimList
      rw [List.dropWhile_append]
      split
      · next hall =>
          rw [List.isEmpty_iff.mp hall]
          simp [hcr]
      · simp [hcr]
  · rfl

theorem trimSpace_scanned (part : List Char) :
    trimSpace (scanned part) = String.ofList (trimList isSpace part) := by
  rw [trimSpace, scanned, String.toList_ofList, trimList_dropCR]

/-- A visible text at the start of a line survives trimming. -/
theorem prefix_trimList {lead cs : List Char} (hhead : ∀ c, lead.head? = some c → isSpace c = false)
    (hlast : ∀ c, lead.getLast? = some c → isSpace c = false) :
    lead <+: trimList isSpace (lead ++ cs) := by
  cases lead with
  | nil => exact List.nil_prefix
  | cons c rest =>
      have hc : isSpace c = false := hhead c rfl
      have hback : ((c :: rest) ++ cs).reverse.dropWhile isSpace =
          cs.reverse.dropWhile isSpace ++ (c :: rest).reverse := by
        rw [List.reverse_append, List.dropWhile_append]
        split
        · next hall =>
            have hdrop : (c :: rest).reverse.dropWhile isSpace = (c :: rest).reverse :=
              dropWhile_eq_self fun d hd => hlast d (by rw [← List.head?_reverse]; exact hd)
            rw [hdrop, List.isEmpty_iff.mp hall, List.nil_append]
        · rfl
      unfold trimList
      rw [List.cons_append, List.dropWhile_cons_of_neg (by simp [hc]), ← List.cons_append, hback,
        List.reverse_append, List.reverse_reverse]
      exact List.prefix_append _ _

/-- What trimming leaves of a text is a start of what it leaves of a longer one. -/
theorem trimList_prefix_append (cs rest : List Char) :
    trimList isSpace cs <+: trimList isSpace (cs ++ rest) := by
  have hdrop : ∀ l : List Char, trimList isSpace (l.dropWhile isSpace) = trimList isSpace l := by
    intro l
    unfold trimList
    rw [List.dropWhile_idempotent]
  obtain ⟨after, hafter⟩ : ∃ after, cs.dropWhile isSpace = trimList isSpace cs ++ after := by
    refine ⟨((cs.dropWhile isSpace).reverse.takeWhile isSpace).reverse, ?_⟩
    unfold trimList
    rw [← List.reverse_append, List.takeWhile_append_dropWhile, List.reverse_reverse]
  rw [← hdrop (cs ++ rest), List.dropWhile_append]
  split
  · next hall =>
      have hnil : trimList isSpace cs = [] := by
        rw [List.isEmpty_iff.mp hall] at hafter
        exact (List.append_eq_nil_iff.mp hafter.symm).1
      rw [hnil]
      exact List.nil_prefix
  · rw [hafter, List.append_assoc]
    exact prefix_trimList (ends_of_trimList cs).1 (ends_of_trimList cs).2

/-! ### Prefixes and numbers -/

theorem cutPrefix_append (lead rest : String) : cutPrefix (lead ++ rest) lead = some rest := by
  have h : lead.toList.isPrefixOf (lead ++ rest).toList = true := by
    rw [String.toList_append, List.isPrefixOf_iff_prefix]
    exact List.prefix_append _ _
  unfold cutPrefix
  rw [if_pos h, String.toList_append, List.drop_left, String.ofList_toList]

theorem cutPrefix_eq_none {s lead : String} (h : ¬ lead.toList <+: s.toList) :
    cutPrefix s lead = none :=
  if_neg fun hp => h (List.isPrefixOf_iff_prefix.mp hp)

theorem digitsValue_decimal (n : Nat) : digitsValue (decimal n).toList = some n := by
  have hlist : (decimal n).toList = Nat.toDigits 10 n := by
    rw [decimal, Nat.toString_eq_repr, Nat.toList_repr]
  have hne : (decimal n).toList.isEmpty = false := by
    rw [hlist, List.isEmpty_eq_false_iff, ← List.length_pos_iff]
    exact Nat.length_toDigits_pos
  have hdigits : (decimal n).toList.all Char.isDigit = true :=
    List.all_eq_true.mpr fun c hc => isDigit_of_mem_decimal hc
  unfold digitsValue
  rw [hne, hdigits, hlist, Nat.ofDigitChars_ten_toDigits]
  rfl

/-- A number that was written is read. -/
theorem atoi_decimal {n : Nat} (h : n < 2 ^ 63) : atoi (decimal n) = some (n : Int) := by
  have hdigit : ∀ c cs, (decimal n).toList = c :: cs → c.isDigit = true := by
    intro c cs hcs
    exact isDigit_of_mem_decimal (n := n) (by rw [hcs]; exact List.mem_cons_self)
  unfold atoi
  split
  · next cs hcs => cases hdigit _ _ hcs
  · next cs hcs => cases hdigit _ _ hcs
  · rw [digitsValue_decimal, Option.bind_some, if_pos h]

end Phragma.Go
