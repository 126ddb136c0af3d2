import Phragma.Go.Strings
import Phragma.Lib.DotSegments

/-!
# Phragma.Go.Url

**URLs as bytes**: `url.Parse`, `path.Clean` and `http.Redirect` on strings that may hold any
bytes.

A parsed path is percent-decoded, so that writing it down and parsing it again cuts it elsewhere: at
a `?` or a `#` that was escaped. `Redirect` parses what it is given and cleans the path before the
first `?`; what does not parse it sends as it is. The authority of a URL is a parameter, of which
only the host is read.
-/

namespace Phragma.Go

open Lib

/-! ### Bytes -/

/-- A string of any bytes. -/
abbrev ByteString := List UInt8

/-- The bytes of an ASCII text. -/
def ascii (s : String) : ByteString := s.toList.map fun c => UInt8.ofNat c.toNat

/-- The byte `/`. -/
def slash : UInt8 := 0x2f
/-- The byte `?`. -/
def questionMark : UInt8 := 0x3f
/-- The byte `#`. -/
def hashSign : UInt8 := 0x23
/-- The byte `%`. -/
def percent : UInt8 := 0x25
/-- The byte `:`. -/
def colon : UInt8 := 0x3a

/-- Is the byte in the range of ASCII characters? -/
def between (lo hi : Char) (b : UInt8) : Bool := decide (lo.toNat ≤ b.toNat ∧ b.toNat ≤ hi.toNat)

/-- A letter. -/
def isLetterByte (b : UInt8) : Bool := between 'a' 'z' b || between 'A' 'Z' b

/-- A digit. -/
def isDigitByte (b : UInt8) : Bool := between '0' '9' b

/-- `strings.Cut` at a byte. -/
def cutByte (c : UInt8) : ByteString → ByteString × ByteString
  | [] => ([], [])
  | b :: bs => if b = c then ([], bs) else ((b :: (cutByte c bs).1), (cutByte c bs).2)

/-- The parts between the slashes. -/
def splitSlash : ByteString → List ByteString
  | [] => [[]]
  | b :: bs =>
      if b = slash then [] :: splitSlash bs
      else
        match splitSlash bs with
        | [] => [[b]]
        | part :: parts => (b :: part) :: parts

/-- Parts with slashes between them. -/
def joinSlash : List ByteString → ByteString
  | [] => []
  | [part] => part
  | part :: parts => part ++ slash :: joinSlash parts

/-! ### Escapes -/

/-- `unhex`, of a hexadecimal digit. -/
def unhex (b : UInt8) : Option Nat :=
  if between '0' '9' b then some (b.toNat - 0x30)
  else if between 'a' 'f' b then some (b.toNat - 0x61 + 10)
  else if between 'A' 'F' b then some (b.toNat - 0x41 + 10)
  else none

/-- The loop of `unescape`: `skip` bytes still belong to the last escape. -/
def unescapeFrom : Nat → ByteString → Option ByteString
  | _, [] => some []
  | skip + 1, _ :: bs => unescapeFrom skip bs
  | 0, b :: bs =>
      if b = percent then
        match bs with
        | b1 :: b2 :: _ =>
            match unhex b1, unhex b2 with
            | some hi, some lo => (unescapeFrom 2 bs).map (UInt8.ofNat (hi * 16 + lo) :: ·)
            | _, _ => none
        | _ => none
      else (unescapeFrom 0 bs).map (b :: ·)

/-- `unescape` of a path or a fragment. -/
def unescapePart (s : ByteString) : Option ByteString := unescapeFrom 0 s

/-- An upper-case hexadecimal digit. -/
def upperHex (n : Nat) : UInt8 := UInt8.ofNat (if n < 10 then 0x30 + n else 0x41 + (n - 10))

/-- The escape of a byte. -/
def escapeByte (b : UInt8) : ByteString :=
  [percent, upperHex (b.toNat / 16), upperHex (b.toNat % 16)]

/-- `shouldEscape`, in a fragment. -/
def shouldEscape (b : UInt8) : Bool :=
  !(isLetterByte b || isDigitByte b || (ascii "-_.~$&+,/:;=?@!()*").contains b)

/-- `escape` of a fragment. -/
def escape (s : ByteString) : ByteString :=
  s.flatMap fun b => if shouldEscape b then escapeByte b else [b]

/-- `validEncoded`, of a fragment. -/
def validEncoded (s : ByteString) : Bool :=
  s.all fun b => (ascii "!$&'()*+,;=:@[]%").contains b || !shouldEscape b

/-! ### Parsing

Fragment, query, scheme, authority and path are cut off one after the other. The authority is parsed
by a parameter: a redirect only asks whether it is empty. -/

/-- `url.URL`, the fields that are read. Of the scheme it is read whether there is one, so that it
stands as it is written. -/
structure URL where
  scheme : ByteString := []
  host : ByteString := []
  path : ByteString := []
  rawQuery : ByteString := []
  fragment : ByteString := []
  rawFragment : ByteString := []
  deriving DecidableEq

/-- `URL.IsAbs`: has it a scheme? -/
def URL.IsAbs (u : URL) : Bool := decide (u.scheme ≠ [])

/-- `URL.EscapedFragment`: the fragment as it was written, if that still means the same. -/
def URL.EscapedFragment (u : URL) : ByteString :=
  if u.rawFragment ≠ [] ∧ validEncoded u.rawFragment = true ∧
      unescapePart u.rawFragment = some u.fragment then u.rawFragment
  else escape u.fragment

/-- The loop of `getScheme`, `read` being the bytes before. -/
def schemeFrom (rawURL : ByteString) : ByteString → ByteString → Option (ByteString × ByteString)
  | _, [] => some ([], rawURL)
  | read, b :: bs =>
      if isLetterByte b then schemeFrom rawURL (read ++ [b]) bs
      else if isDigitByte b || (ascii "+-.").contains b then
        if read = [] then some ([], rawURL) else schemeFrom rawURL (read ++ [b]) bs
      else if b = colon then if read = [] then none else some (read, bs)
      else some ([], rawURL)

/-- `getScheme`: the text before the first colon, if it can be a scheme, and the rest. -/
def getScheme (rawURL : ByteString) : Option (ByteString × ByteString) :=
  schemeFrom rawURL [] rawURL

/-- `stringContainsCTLByte`: has it a control character? -/
def containsCTLByte (s : ByteString) : Bool := s.any fun b => decide (b.toNat < 0x20 ∨ b.toNat = 0x7f)

section Parse

variable (parseAuthority : ByteString → Option ByteString)

/-- The host of a URL and the path after it. -/
def splitAuthority (scheme rest : ByteString) : Option (ByteString × ByteString) :=
  if (scheme ≠ [] ∨ ¬ ascii "///" <+: rest) ∧ ascii "//" <+: rest then
    let authority := (rest.drop 2).takeWhile fun b => b ≠ slash
    (parseAuthority authority).map fun host => (host, (rest.drop 2).dropWhile fun b => b ≠ slash)
  else some ([], rest)

/-- `parse`, of a URL that need not come from a request. -/
def parseURL (rawURL : ByteString) : Option URL :=
  if containsCTLByte rawURL then none
  else if rawURL = ascii "*" then some { path := ascii "*" }
  else do
    let (scheme, rest) ← getScheme rawURL
    let (rest, rawQuery) := cutByte questionMark rest
    if ¬ ascii "/" <+: rest ∧ scheme ≠ [] then some { scheme, rawQuery }
    else if ¬ ascii "/" <+: rest ∧ colon ∈ (cutByte slash rest).1 then none
    else
      let (host, rest) ← splitAuthority parseAuthority scheme rest
      let path ← unescapePart rest
      some { scheme, host, path, rawQuery }

/-- `url.Parse`: the parts of a URL, or nothing for a text that is none. -/
def Parse (rawURL : ByteString) : Option URL := do
  let (u, frag) := cutByte hashSign rawURL
  let url ← parseURL parseAuthority u
  if frag = [] then some url
  else
    let fragment ← unescapePart frag
    some { url with fragment, rawFragment := if frag = escape fragment then [] else frag }

/-! ### Redirects

A redirect to a text without scheme and host is brought into the form of a path. A text that cannot
be parsed is passed on as it is. -/

/-- An element of a path: a name, a step up, or nothing. -/
def pathElement (e : ByteString) : Option (Option ByteString) :=
  if e = [] ∨ e = ascii "." then none else if e = ascii ".." then some none else some (some e)

/-- The names and steps up of a path. -/
def pathElements (p : ByteString) : List (Option ByteString) :=
  (splitSlash p).filterMap pathElement

/-- One element of a path that is not rooted, on the reversed elements before it: a step up from
where nothing is left stays. -/
def climbOrKeep (done : List ByteString) : Option ByteString → List ByteString
  | some e => e :: done
  | none =>
      match done with
      | [] => [ascii ".."]
      | top :: rest => if top = ascii ".." then ascii ".." :: done else rest

/-- `path.Clean`: a path without empty elements and dots, and with its steps up taken. -/
def Clean (p : ByteString) : ByteString :=
  if ascii "/" <+: p then
    slash :: joinSlash ((pathElements p).foldl climb []).reverse
  else
    let body := joinSlash ((pathElements p).foldl climbOrKeep []).reverse
    if body = [] then ascii "." else body

/-- A lower-case hexadecimal digit. -/
def lowerHex (n : Nat) : UInt8 := UInt8.ofNat (if n < 10 then 0x30 + n else 0x61 + (n - 10))

/-- One byte of `hexEscapeNonASCII`. -/
def hexEscapeByte (b : UInt8) : ByteString :=
  if 0x80 ≤ b.toNat then [percent, lowerHex (b.toNat / 16), lowerHex (b.toNat % 16)] else [b]

/-- `hexEscapeNonASCII`: bytes that are not ASCII as escapes. -/
def hexEscapeNonASCII (s : ByteString) : ByteString := s.flatMap hexEscapeByte

/-- The path before the first `?`, cleaned, with its trailing slash. -/
def cleanKeepingSlash (p : ByteString) : ByteString :=
  if ascii "/" <:+ p ∧ ¬ ascii "/" <:+ Clean p then Clean p ++ [slash] else Clean p

/-- What follows the path: the first `?` and the rest. -/
def querySuffix (url : ByteString) : ByteString := url.dropWhile fun b => b ≠ questionMark

/-- The path before the first `?`. -/
def beforeQuery (url : ByteString) : ByteString := url.takeWhile fun b => b ≠ questionMark

/-- The directory of a path, with its slash (`path.Split`). -/
def pathDir (p : ByteString) : ByteString := (p.reverse.dropWhile fun b => b ≠ slash).reverse

/-- The `Location` that `http.Redirect` sets for a request to `oldpath`. -/
def Redirect (oldpath url : ByteString) : ByteString :=
  match Parse parseAuthority url with
  | some u =>
      if u.scheme = [] ∧ u.host = [] then
        let oldpath := if oldpath = [] then ascii "/" else oldpath
        let url := if ascii "/" <+: url then url else pathDir oldpath ++ url
        hexEscapeNonASCII (cleanKeepingSlash (beforeQuery url) ++ querySuffix url)
      else hexEscapeNonASCII url
  | none => hexEscapeNonASCII url

end Parse

/-! ### Elements of a path

What `path.Clean` does is a fold over the elements (`Phragma.Lib.DotSegments`), once the path is
split at its slashes. -/

theorem splitSlash_ne_nil (p : ByteString) : splitSlash p ≠ [] := by
  cases p with
  | nil => simp [splitSlash]
  | cons b bs =>
      simp only [splitSlash]
      split
      · simp
      · split <;> simp

/-- No part holds a slash. -/
theorem slash_notMem_of_mem_splitSlash {p : ByteString} : ∀ part ∈ splitSlash p, slash ∉ part := by
  induction p with
  | nil => intro part hp; simp_all [splitSlash]
  | cons b bs ih =>
      intro part hp
      obtain ⟨head, rest, hparts⟩ := List.exists_cons_of_ne_nil (splitSlash_ne_nil bs)
      rw [hparts] at ih
      by_cases hb : b = slash
      · simp only [splitSlash, hb, if_true, hparts, List.mem_cons] at hp
        rcases hp with rfl | hp
        · exact List.not_mem_nil
        · exact ih part (List.mem_cons.mpr hp)
      · simp only [splitSlash, hb, if_false, hparts, List.mem_cons] at hp
        rcases hp with rfl | hp
        · have hhead := ih head List.mem_cons_self
          simp [hhead, Ne.symm hb]
        · exact ih part (List.mem_cons_of_mem _ hp)

theorem slash_notMem_of_mem_pathElements {p e : ByteString} (h : some e ∈ pathElements p) :
    slash ∉ e := by
  obtain ⟨part, hpart, helement⟩ := List.mem_filterMap.mp h
  unfold pathElement at helement
  split at helement
  · cases helement
  · split at helement
    · cases helement
    · cases helement
      exact slash_notMem_of_mem_splitSlash e hpart

/-- The names on the stack are names of the path. -/
theorem mem_foldl_climb {α : Type} {l : List (Option α)} {s : List α} {a : α}
    (h : a ∈ l.foldl climb s) : a ∈ s ∨ some a ∈ l := by
  induction l generalizing s with
  | nil => exact .inl h
  | cons e l ih =>
      rcases ih h with hs | hl
      · cases e with
        | some b =>
            rcases List.mem_cons.mp hs with rfl | hs
            · exact .inr List.mem_cons_self
            · exact .inl hs
        | none => exact .inl (List.mem_of_mem_tail hs)
      · exact .inr (List.mem_cons_of_mem _ hl)

/-- Up to the first slash, parts with slashes between them are their first part. -/
theorem takeWhile_joinSlash {parts : List ByteString} (h : ∀ part ∈ parts, slash ∉ part)
    {after : ByteString} (hafter : after = [] ∨ after = [slash]) :
    (joinSlash parts ++ after).takeWhile (fun b => b ≠ slash) = parts.headD [] := by
  have hall : ∀ part : ByteString, slash ∉ part → ∀ b ∈ part, decide (b ≠ slash) = true :=
    fun part hpart b hb => decide_eq_true fun heq => hpart (heq ▸ hb)
  have hstop : after.takeWhile (fun b => decide (b ≠ slash)) = [] := by
    rcases hafter with rfl | rfl <;> rfl
  cases parts with
  | nil => exact hstop
  | cons part parts =>
      have hpart := hall part (h part List.mem_cons_self)
      cases parts with
      | nil => rw [joinSlash, List.takeWhile_append_of_pos hpart, hstop]; simp
      | cons next parts =>
          rw [show joinSlash (part :: next :: parts) = part ++ slash :: joinSlash (next :: parts)
            from rfl, List.append_assoc, List.takeWhile_append_of_pos hpart, List.cons_append,
            List.takeWhile_cons_of_neg (by simp), List.append_nil]
          rfl

theorem splitSlash_of_notMem {p : ByteString} (h : slash ∉ p) : splitSlash p = [p] := by
  induction p with
  | nil => rfl
  | cons b bs ih =>
      rw [List.mem_cons, not_or] at h
      rw [splitSlash, if_neg (Ne.symm h.1), ih h.2]

theorem splitSlash_append_slash (p q : ByteString) :
    splitSlash (p ++ slash :: q) = splitSlash p ++ splitSlash q := by
  induction p with
  | nil => rfl
  | cons b bs ih =>
      rw [List.cons_append, splitSlash, splitSlash, ih]
      split
      · rfl
      · obtain ⟨head, rest, hparts⟩ := List.exists_cons_of_ne_nil (splitSlash_ne_nil bs)
        rw [hparts]
        rfl

/-- The elements of a path are those before a slash and those behind it. -/
theorem pathElements_append_slash (p q : ByteString) :
    pathElements (p ++ slash :: q) = pathElements p ++ pathElements q := by
  unfold pathElements
  rw [splitSlash_append_slash, List.filterMap_append]

theorem pathElements_cons_slash (q : ByteString) : pathElements (slash :: q) = pathElements q :=
  pathElements_append_slash [] q

theorem pathElements_of_notMem {p : ByteString} (h : slash ∉ p) :
    pathElements p = (pathElement p).toList := by
  unfold pathElements
  rw [splitSlash_of_notMem h]
  cases hp : pathElement p <;> simp [hp]

/-! ### Local redirects

`/u…` is the start of every return path. Such a text has neither scheme nor host, so the redirect
cleans it if it can be parsed at all. -/

theorem cutByte_cons_of_ne {c b : UInt8} (h : b ≠ c) (bs : ByteString) :
    cutByte c (b :: bs) = (b :: (cutByte c bs).1, (cutByte c bs).2) := by
  rw [cutByte, if_neg h]

theorem splitAuthority_local {parseAuthority : ByteString → Option ByteString} (r : ByteString) :
    splitAuthority parseAuthority [] (slash :: 0x75 :: r) = some ([], slash :: 0x75 :: r) := by
  have hne : ¬ ascii "//" <+: slash :: 0x75 :: r := by
    rintro ⟨rest, hrest⟩
    have hsecond := (List.cons.inj (List.cons.inj hrest).2).1
    exact absurd hsecond (by decide)
  exact if_neg fun hboth => hne hboth.2

theorem parseURL_local {parseAuthority : ByteString → Option ByteString} {r : ByteString} {u : URL}
    (h : parseURL parseAuthority (slash :: 0x75 :: r) = some u) : u.scheme = [] ∧ u.host = [] := by
  have hscheme : getScheme (slash :: 0x75 :: r) = some ([], slash :: 0x75 :: r) := rfl
  have hcut : cutByte questionMark (slash :: 0x75 :: r) =
      (slash :: 0x75 :: (cutByte questionMark r).1, (cutByte questionMark r).2) := by
    rw [cutByte_cons_of_ne (by decide), cutByte_cons_of_ne (by decide)]
  have hrooted : ascii "/" <+: slash :: 0x75 :: (cutByte questionMark r).1 :=
    ⟨_, rfl⟩
  unfold parseURL at h
  split at h
  · cases h
  · split at h
    · next hstar => cases hstar
    · simp only [hscheme, hcut, Option.bind_eq_bind, Option.bind_some, hrooted, not_true_eq_false,
        false_and, if_false, splitAuthority_local] at h
      cases hpath : unescapePart (slash :: 0x75 :: (cutByte questionMark r).1) with
      | none =>
          rw [hpath] at h
          cases h
      | some path =>
          rw [hpath] at h
          cases h
          exact ⟨rfl, rfl⟩

/-- A text that starts with a slash and a `u` has neither scheme nor host. -/
theorem parse_local {parseAuthority : ByteString → Option ByteString} {r : ByteString} {u : URL}
    (h : Parse parseAuthority (slash :: 0x75 :: r) = some u) : u.scheme = [] ∧ u.host = [] := by
  have hcut : cutByte hashSign (slash :: 0x75 :: r) =
      (slash :: 0x75 :: (cutByte hashSign r).1, (cutByte hashSign r).2) := by
    rw [cutByte_cons_of_ne (by decide), cutByte_cons_of_ne (by decide)]
  unfold Parse at h
  simp only [hcut, Option.bind_eq_bind] at h
  obtain ⟨url, hurl, h⟩ := Option.bind_eq_some_iff.mp h
  have hlocal := parseURL_local hurl
  split at h
  · cases h
    exact hlocal
  · obtain ⟨fragment, -, h⟩ := Option.bind_eq_some_iff.mp h
    cases h
    exact hlocal

/-- **A redirect to a local text** cleans the path before the query, if it can be parsed. -/
theorem redirect_local (parseAuthority : ByteString → Option ByteString) (oldpath r : ByteString) :
    Redirect parseAuthority oldpath (slash :: 0x75 :: r) =
      hexEscapeNonASCII (if Parse parseAuthority (slash :: 0x75 :: r) = none then
        slash :: 0x75 :: r
      else cleanKeepingSlash (beforeQuery (slash :: 0x75 :: r)) ++
        querySuffix (slash :: 0x75 :: r)) := by
  unfold Redirect
  cases hparse : Parse parseAuthority (slash :: 0x75 :: r) with
  | none => rw [if_pos rfl]
  | some u =>
      have hrooted : ascii "/" <+: slash :: 0x75 :: r := ⟨_, rfl⟩
      simp only [if_pos (parse_local hparse), if_pos hrooted, reduceCtorEq, if_false]

end Phragma.Go
