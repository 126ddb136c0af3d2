import Phragma.Go.Bytes
import Phragma.Go.Netip

/-!
# Phragma.Intel.Feed

**Reading a feed**: `Fetch` and `Parse` of `internal/intel/fetch.go`, from the response on.

A line is parsed on its own (`parseLine`), but two limits reach across lines. `io.LimitReader` ends
the text within a line, and the piece is parsed as if it were the line; and a line that does not
fit in the scanner's buffer ends the scan with an error, and with it all the lines before. Where
neither happens, what a feed lists is what is returned (`fetch_lineLocal_iff`).
-/

namespace Phragma.Intel

open Go

/-! ### The algorithm -/

/-- `maxFeedBytes`: the bytes of a feed that are read, 32 MiB. -/
def maxFeedBytes : Nat := 32 * 2 ^ 20

/-- Is the character one of those that end an address? -/
def endsAddress (c : Char) : Bool := c == ' ' || c == ';' || c == '\t'

/-- The text of a line up to a trailing comment. -/
def dropComment (line : String) : String :=
  match line.toList.findIdx? endsAddress with
  | none => line
  | some i => if 0 < i then trimSpace (String.ofList (line.toList.take i)) else line

/-- The body of the loop of `Parse`, for one `sc.Text()`: the prefix appended, if there is one. -/
def parseText (text : String) : Option Prefix :=
  let line := trimSpace text
  if line = "" || hasPrefixList line.toList ['#'] || hasPrefixList line.toList [';'] then none
  else
    let line := dropComment line
    match parsePrefix line with
    | some pfx => some pfx
    | none =>
        (parseAddr line).map fun addr =>
          match addr with
          | .v4 a => ⟨.v4 a, 32, Nat.le_refl _, rfl⟩
          | .v6 a _ => ⟨.v6 a "", 128, Nat.le_refl _, rfl⟩

/-- The prefix of a line of the text. The functions that read it do not tell a byte that is no part
of a rune from U+FFFD. -/
def parseLine (line : List UInt8) : Option Prefix :=
  parseText (GoString.ofBytes (dropByteCR line)).text

/-- `Parse`, of a text that is read to its end. -/
def Parse (text : List UInt8) : Except String (List Prefix) :=
  if (byteLines text).all fitsScanner then .ok ((byteLines text).filterMap parseLine)
  else .error "bufio.Scanner: token too long"

/-- The answer to a request for a feed. -/
structure Response where
  statusCode : Nat
  body : List UInt8

/-- `Fetch`, given the outcome of the request. -/
def Fetch (response : Except String Response) : Except String (List Prefix) :=
  match response with
  | .error e => .error ("fetch feed: " ++ e)
  | .ok resp =>
      if resp.statusCode ≠ 200 then .error ("fetch feed: HTTP " ++ decimal resp.statusCode)
      else Parse (resp.body.take maxFeedBytes)

/-- The prefixes a result returns. -/
def returned : Except String (List Prefix) → List Prefix
  | .ok prefixes => prefixes
  | .error _ => []

/-! ### What it is for

One line more or less should change what that line says, and nothing else. -/

/-- **A feed is read line by line.** -/
structure LineLocal (body : List UInt8) (prefixes : List Prefix) : Prop where
  /-- Every prefix is what a line of the body says. -/
  listed : ∀ p ∈ prefixes, ∃ line ∈ byteLines body, parseLine line = some p
  /-- What the lines within the limit say is there, in order. -/
  kept : ((linesWithin maxFeedBytes (byteLines body)).filterMap parseLine).Sublist prefixes

/-- The text under the limit has no line that is too long. -/
def AllFit (body : List UInt8) : Prop :=
  (byteLines (body.take maxFeedBytes)).all fitsScanner = true

/-- What the limit leaves of a line says nothing that no line says. -/
def PieceListed (body : List UInt8) : Prop :=
  ∀ p, parseLine (cutPiece maxFeedBytes (byteLines body)) = some p →
    ∃ line ∈ byteLines body, parseLine line = some p

theorem parseLine_nil : parseLine [] = none := by decide +kernel

/-- A piece that holds nothing lists nothing. -/
theorem filterMap_piece (piece : List UInt8) :
    (if piece = [] then [] else [piece]).filterMap parseLine = (parseLine piece).toList := by
  split
  · next h =>
      subst h
      rw [parseLine_nil, List.filterMap_nil, Option.toList_none]
  · rw [List.filterMap_cons, List.filterMap_nil]
    cases parseLine piece with
    | none => rfl
    | some p => rfl

/-- The prefixes of the lines within a limit and of the piece it leaves. -/
theorem filterMap_byteLines_take (body : List UInt8) (n : Nat) :
    (byteLines (body.take n)).filterMap parseLine =
      (linesWithin n (byteLines body)).filterMap parseLine ++
        (parseLine (cutPiece n (byteLines body))).toList := by
  rw [byteLines_take, limitedLines, List.filterMap_append, filterMap_piece]

/-- A response with status 200, by whether all its lines are read. -/
theorem fetch_cases (body : List UInt8) :
    (AllFit body ∧ returned (Fetch (.ok ⟨200, body⟩)) =
        (linesWithin maxFeedBytes (byteLines body)).filterMap parseLine ++
          (parseLine (cutPiece maxFeedBytes (byteLines body))).toList) ∨
      (¬ AllFit body ∧ returned (Fetch (.ok ⟨200, body⟩)) = []) := by
  have hfetch : Fetch (.ok ⟨200, body⟩) = Parse (body.take maxFeedBytes) := by
    unfold Fetch
    exact if_neg (not_not.mpr rfl)
  rw [hfetch, Parse]
  unfold AllFit
  split
  · next hfit => exact .inl ⟨hfit, filterMap_byteLines_take body maxFeedBytes⟩
  · next hlong => exact .inr ⟨hlong, rfl⟩

/-- **When a feed is read line by line.** For every body of any length, it is exactly when the text
under the limit has no line that is too long and its last piece says nothing that no line says, or
when there is too long a line and nothing was listed before the limit anyway. -/
theorem fetch_lineLocal_iff (body : List UInt8) :
    LineLocal body (returned (Fetch (.ok ⟨200, body⟩))) ↔
      (AllFit body ∧ PieceListed body) ∨
        (¬ AllFit body ∧
          ∀ line ∈ linesWithin maxFeedBytes (byteLines body), parseLine line = none) := by
  rcases fetch_cases body with ⟨hfit, hret⟩ | ⟨hlong, hret⟩
  · have hiff : LineLocal body (returned (Fetch (.ok ⟨200, body⟩))) ↔ PieceListed body := by
      rw [hret]
      constructor
      · intro h p hp
        exact h.listed p (List.mem_append_right _ (Option.mem_toList.mpr hp))
      · intro h
        refine ⟨fun p hp => ?_, List.sublist_append_left _ _⟩
        rcases List.mem_append.mp hp with hp | hp
        · obtain ⟨line, hline, hparse⟩ := List.mem_filterMap.mp hp
          exact ⟨line, List.IsPrefix.mem hline <| linesWithin_prefix _ _, hparse⟩
        · exact h p (Option.mem_toList.mp hp)
    rw [hiff]
    simp [hfit]
  · have hiff : LineLocal body (returned (Fetch (.ok ⟨200, body⟩))) ↔
        ∀ line ∈ linesWithin maxFeedBytes (byteLines body), parseLine line = none := by
      rw [hret]
      constructor
      · intro h
        exact List.filterMap_eq_nil_iff.mp (List.sublist_nil.mp h.kept)
      · intro h
        refine ⟨fun p hp => absurd hp List.not_mem_nil, ?_⟩
        rw [List.filterMap_eq_nil_iff.mpr h]
    rw [hiff]
    simp [hlong]

/-- A feed of blank lines and the network 10.0.0.0/16, whose last digit and line end lie beyond
the limit. -/
def cutFeed : List UInt8 :=
  List.replicate (maxFeedBytes - 10) newline ++
    "10.0.0.0/16\n".toList.flatMap String.utf8EncodeChar

theorem byteLines_cutFeed : byteLines cutFeed =
    List.replicate (maxFeedBytes - 10) [] ++
      ["10.0.0.0/16".toList.flatMap String.utf8EncodeChar] := by
  have hline : byteLines ("10.0.0.0/16\n".toList.flatMap String.utf8EncodeChar) =
      ["10.0.0.0/16".toList.flatMap String.utf8EncodeChar] := by decide +kernel
  rw [cutFeed, byteLines_replicate_newline, hline]

theorem byteLines_take_cutFeed : byteLines (cutFeed.take maxFeedBytes) =
    List.replicate (maxFeedBytes - 10) [] ++
      ["10.0.0.0/1".toList.flatMap String.utf8EncodeChar] := by
  have hrest : maxFeedBytes - (maxFeedBytes - 10) = 10 := by decide
  have hpiece : byteLines (("10.0.0.0/16\n".toList.flatMap String.utf8EncodeChar).take 10) =
      ["10.0.0.0/1".toList.flatMap String.utf8EncodeChar] := by decide +kernel
  rw [cutFeed, List.take_append, List.length_replicate, hrest,
    List.take_of_length_le (by rw [List.length_replicate]; exact Nat.sub_le _ _),
    byteLines_replicate_newline, hpiece]

/-- The network that the piece of the last line reads as: half of all addresses. -/
def halfOfAll : Prefix := ⟨.v4 0x0a000000#32, 1, by decide, rfl⟩

/-- The limit cuts 10.0.0.0/16 to 10.0.0.0/1, and that is returned. -/
theorem fetch_cutFeed : Fetch (.ok ⟨200, cutFeed⟩) = .ok [halfOfAll] ∧
    ¬ LineLocal cutFeed (returned (Fetch (.ok ⟨200, cutFeed⟩))) := by
  have hfetch : Fetch (.ok ⟨200, cutFeed⟩) = .ok [halfOfAll] := by
    have hparse : Fetch (.ok ⟨200, cutFeed⟩) = Parse (cutFeed.take maxFeedBytes) := by
      unfold Fetch
      exact if_neg (not_not.mpr rfl)
    have hblank : ∀ k, (List.replicate k ([] : List UInt8)).all fitsScanner = true := by
      intro k
      simp [fitsScanner, maxScanTokenSize]
    have hnone : ∀ k, (List.replicate k []).filterMap parseLine = [] := by
      intro k
      simp [parseLine_nil]
    rw [hparse, Parse, byteLines_take_cutFeed, List.all_append, hblank, List.filterMap_append,
      hnone]
    decide +kernel
  refine ⟨hfetch, fun hlocal => ?_⟩
  rw [hfetch] at hlocal
  obtain ⟨line, hline, hparse⟩ := hlocal.listed halfOfAll (List.mem_singleton_self _)
  rw [byteLines_cutFeed] at hline
  rcases List.mem_append.mp hline with hline | hline
  · rw [List.eq_of_mem_replicate hline, parseLine_nil] at hparse
    cases hparse
  · rw [List.mem_singleton.mp hline] at hparse
    revert hparse
    decide +kernel

end Phragma.Intel
