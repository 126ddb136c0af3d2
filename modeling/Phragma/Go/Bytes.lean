import Phragma.Go.Json
import Phragma.Go.Scan

/-!
# Phragma.Go.Bytes

**Texts of arbitrary bytes**: the runes they decode to, and the lines `bufio.Scanner` reads of
them.

A limit on the bytes read (`io.LimitReader`) cuts a text anywhere. What a scanner reads of the text
that is left are the lines that lie within the limit, and the piece the limit leaves of the next
one (`byteLines_take`), which the scanner returns as a line like the others.
-/

namespace Phragma.Go

/-! ### Runes -/

/-- Is the byte in the range? -/
def inRange (lo hi : Nat) (b : UInt8) : Bool := decide (lo ≤ b.toNat ∧ b.toNat ≤ hi)

/-- The six low bits of a continuation byte. -/
def low6 (b : UInt8) : Nat := b.toNat % 64

/-- The range of the byte after the first byte of a rune of three bytes. -/
def second3 (b : UInt8) : Nat × Nat :=
  if b.toNat = 0xe0 then (0xa0, 0xbf) else if b.toNat = 0xed then (0x80, 0x9f) else (0x80, 0xbf)

/-- The range of the byte after the first byte of a rune of four bytes. -/
def second4 (b : UInt8) : Nat × Nat :=
  if b.toNat = 0xf0 then (0x90, 0xbf) else if b.toNat = 0xf4 then (0x80, 0x8f) else (0x80, 0xbf)

/-- `utf8.DecodeRune` of a text that starts with `b`: the rune, or the byte where there is none,
and how many bytes of the rest belong to it. -/
def decodeRune (b : UInt8) (rest : List UInt8) : Rune × Nat :=
  if b.toNat < 0x80 then (.char (Char.ofNat b.toNat), 0)
  else if inRange 0xc2 0xdf b then
    match rest with
    | b1 :: _ =>
        if inRange 0x80 0xbf b1 then (.char (Char.ofNat (b.toNat % 32 * 64 + low6 b1)), 1)
        else (.byte b, 0)
    | _ => (.byte b, 0)
  else if inRange 0xe0 0xef b then
    match rest with
    | b1 :: b2 :: _ =>
        if inRange (second3 b).1 (second3 b).2 b1 && inRange 0x80 0xbf b2 then
          (.char (Char.ofNat ((b.toNat % 16 * 64 + low6 b1) * 64 + low6 b2)), 2)
        else (.byte b, 0)
    | _ => (.byte b, 0)
  else if inRange 0xf0 0xf4 b then
    match rest with
    | b1 :: b2 :: b3 :: _ =>
        if inRange (second4 b).1 (second4 b).2 b1 && inRange 0x80 0xbf b2 &&
            inRange 0x80 0xbf b3 then
          (.char (Char.ofNat (((b.toNat % 8 * 64 + low6 b1) * 64 + low6 b2) * 64 + low6 b3)), 3)
        else (.byte b, 0)
    | _ => (.byte b, 0)
  else (.byte b, 0)

/-- The string of a byte sequence: `skip` bytes still belong to the last rune. -/
def runesFrom : Nat → List UInt8 → GoString
  | _, [] => []
  | skip + 1, _ :: bs => runesFrom skip bs
  | 0, b :: bs => (decodeRune b bs).1 :: runesFrom (decodeRune b bs).2 bs

/-- The string of a byte sequence. -/
def GoString.ofBytes (bs : List UInt8) : GoString := runesFrom 0 bs

example : GoString.ofBytes [0xe2, 0x80, 0x80, 0xff, 0x41] =
    [.char '\u2000', .byte 0xff, .char 'A'] := by decide

/-- The runes of a string as text, U+FFFD for a byte that is no part of one. -/
def GoString.text (s : GoString) : String := String.ofList (s.map Rune.toChar)

/-! ### Lines -/

/-- The line end. -/
def newline : UInt8 := 10

/-- The lines of a text, `cur` read of the next one: a last line needs no line end, and nothing
follows a last line end. -/
def byteLinesFrom : List UInt8 → List UInt8 → List (List UInt8)
  | cur, [] => if cur = [] then [] else [cur]
  | cur, b :: bs =>
      if b = newline then cur :: byteLinesFrom [] bs else byteLinesFrom (cur ++ [b]) bs

/-- The lines of a text. -/
def byteLines (bs : List UInt8) : List (List UInt8) := byteLinesFrom [] bs

/-- Does a line fit in the scanner's buffer, together with its line end? -/
def fitsScanner (line : List UInt8) : Bool := decide (line.length < maxScanTokenSize)

/-- `dropCR` on bytes. -/
def dropByteCR (line : List UInt8) : List UInt8 :=
  if line.getLast? = some 13 then line.dropLast else line

/-- The lines among `ls` that lie within the first bytes of the text. -/
def linesWithin : Nat → List (List UInt8) → List (List UInt8)
  | 0, _ => []
  | _, [] => []
  | n + 1, l :: ls =>
      if l.length ≤ n then l :: linesWithin (n - l.length) ls
      else if l.length = n + 1 then [l] else []

/-- What the first bytes of the text hold of a line that does not lie within them. -/
def cutPiece : Nat → List (List UInt8) → List UInt8
  | 0, _ => []
  | _, [] => []
  | n + 1, l :: ls =>
      if l.length ≤ n then cutPiece (n - l.length) ls
      else if l.length = n + 1 then [] else l.take (n + 1)

/-- Blank lines before a text. -/
theorem byteLines_replicate_newline (k : Nat) (bs : List UInt8) :
    byteLines (List.replicate k newline ++ bs) = List.replicate k [] ++ byteLines bs := by
  induction k with
  | zero => rfl
  | succ k ih =>
      rw [List.replicate_succ, List.cons_append, byteLines, byteLinesFrom, if_pos rfl]
      exact congrArg ([] :: ·) ih

/-! ### Lines and limits -/

theorem linesWithin_prefix (n : Nat) (ls : List (List UInt8)) : linesWithin n ls <+: ls := by
  induction ls generalizing n with
  | nil => cases n <;> exact List.nil_prefix
  | cons l ls ih =>
      cases n with
      | zero => exact List.nil_prefix
      | succ n =>
          rw [linesWithin]
          split
          · exact (List.prefix_cons_inj l).mpr (ih _)
          · split
            · exact (List.prefix_cons_inj l).mpr List.nil_prefix
            · exact List.nil_prefix

/-- The first line holds what was read of it. -/
theorem byteLinesFrom_head (cur bs : List UInt8) (h : cur ≠ []) :
    ∃ more ls, byteLinesFrom cur bs = (cur ++ more) :: ls := by
  induction bs generalizing cur with
  | nil => exact ⟨[], [], by simp [byteLinesFrom, h]⟩
  | cons b bs ih =>
      rw [byteLinesFrom]
      split
      · exact ⟨[], byteLinesFrom [] bs, by rw [List.append_nil]⟩
      · obtain ⟨more, ls, hls⟩ := ih (cur ++ [b]) (by simp)
        exact ⟨b :: more, ls, by rw [hls]; simp⟩

/-- The lines within a limit, and the piece it leaves of the next one. -/
def limitedLines (n : Nat) (ls : List (List UInt8)) : List (List UInt8) :=
  linesWithin n ls ++ if cutPiece n ls = [] then [] else [cutPiece n ls]

theorem limitedLines_cons {l : List UInt8} {n : Nat} (h : l.length < n) (ls : List (List UInt8)) :
    limitedLines n (l :: ls) = l :: limitedLines (n - l.length - 1) ls := by
  obtain ⟨n, rfl⟩ : ∃ m, n = m + 1 := ⟨n - 1, by omega⟩
  have hle : l.length ≤ n := by omega
  have hrest : n + 1 - l.length - 1 = n - l.length := by omega
  rw [limitedLines, linesWithin, cutPiece, if_pos hle, if_pos hle, hrest, limitedLines,
    List.cons_append]

/-- A limit within the first line leaves the piece it cuts off. -/
theorem limitedLines_short {l : List UInt8} {n : Nat} (h : n ≤ l.length) (ls : List (List UInt8)) :
    limitedLines n (l :: ls) = if l.take n = [] then [] else [l.take n] := by
  cases n with
  | zero => simp [limitedLines, linesWithin, cutPiece]
  | succ n =>
      have hne : l.take (n + 1) ≠ [] := by
        intro hnil
        have hlen := congrArg List.length hnil
        rw [List.length_take_of_le h] at hlen
        cases hlen
      have hlong : ¬ l.length ≤ n := by omega
      rw [limitedLines, linesWithin, cutPiece, if_neg hlong, if_neg hlong, if_neg hne]
      by_cases heq : l.length = n + 1
      · rw [if_pos heq, if_pos heq, List.take_of_length_le (Nat.le_of_eq heq)]
        rfl
      · rw [if_neg heq, if_neg heq, if_neg hne]
        rfl

theorem limitedLines_nil (n : Nat) : limitedLines n [] = [] := by
  cases n <;> rfl

/-- What is read of a text that stops within a line. -/
theorem byteLinesFrom_nil (cur more : List UInt8) (ls : List (List UInt8)) :
    byteLinesFrom cur [] = limitedLines cur.length ((cur ++ more) :: ls) := by
  rw [limitedLines_short (by simp), List.take_left, byteLinesFrom]

theorem byteLinesFrom_take (cur bs : List UInt8) (n : Nat) :
    byteLinesFrom cur (bs.take n) = limitedLines (cur.length + n) (byteLinesFrom cur bs) := by
  induction bs generalizing cur n with
  | nil =>
      rw [List.take_nil, byteLinesFrom]
      split
      · rw [limitedLines_nil]
      · next hne =>
          cases n with
          | zero =>
              have hnil := byteLinesFrom_nil cur [] []
              rw [byteLinesFrom, if_neg hne, List.append_nil] at hnil
              exact hnil
          | succ n => rw [limitedLines_cons (by omega), limitedLines_nil]
  | cons b bs ih =>
      cases n with
      | zero =>
          -- nothing more is read of the line, whether `b` ends it or not
          rw [List.take_zero, byteLinesFrom.eq_2, Nat.add_zero]
          split
          · have hnil := byteLinesFrom_nil cur [] (byteLinesFrom [] bs)
            rwa [List.append_nil] at hnil
          · obtain ⟨more, ls, hls⟩ := byteLinesFrom_head (cur ++ [b]) bs (by simp)
            rw [hls, List.append_assoc]
            exact byteLinesFrom_nil cur _ ls
      | succ n =>
          rw [List.take_succ_cons, byteLinesFrom, byteLinesFrom]
          split
          · rw [limitedLines_cons (by omega), ih]
            congr 2
            simp only [List.length_nil]
            omega
          · rw [ih]
            congr 1
            simp only [List.length_append, List.length_singleton]
            omega

/-- **What is left of a text under a limit**: the lines that lie within it, and the piece it leaves
of the next one. -/
theorem byteLines_take (bs : List UInt8) (n : Nat) :
    byteLines (bs.take n) = limitedLines n (byteLines bs) := by
  rw [byteLines, byteLinesFrom_take]
  simp [byteLines]

end Phragma.Go
