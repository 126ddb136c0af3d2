import Phragma.Appid.Observations
import Phragma.Go.Netip
import Phragma.Go.Scan
import Phragma.Lib.Paging

/-!
# Phragma.Conntrack.Session

The live sessions of the kernel, `internal/conntrack/session.go`: what `conntrack -L` prints is
read line by line, and a page of the sessions that match is cut out of it, in its order. Where the
command is missing or refuses, there are no sessions and the state says so.

How the command ends is a parameter.
-/

namespace Phragma.Conntrack

open Lib Go
open Appid (Library)

/-- `Filter`: what a request for sessions asks for. An empty field asks for nothing. -/
structure Filter where
  limit : Int := 0
  offset : Int := 0
  srcIP : String := ""
  srcPort : Nat := 0
  destIP : String := ""
  destPort : Nat := 0
  ip : String := ""
  protocol : String := ""
  port : Nat := 0
  state : String := ""
  query : String := ""

/-- `Session`: one tracked connection, with the addresses of both directions. -/
structure Session where
  family : String := ""
  protocol : String := ""
  state : String := ""
  timeoutSeconds : Nat := 0
  srcIP : String := ""
  srcPort : Nat := 0
  destIP : String := ""
  destPort : Nat := 0
  replySrcIP : String := ""
  replySrcPort : Nat := 0
  replyDestIP : String := ""
  replyDestPort : Nat := 0
  packets : UInt64 := 0
  bytes : UInt64 := 0
  assured : Bool := false
  raw : String := ""
  deriving DecidableEq

/-- `PageInfo`: what is said of a page, so that the next one can be asked for. -/
structure PageInfo where
  nextCursor : String := ""
  hasMore : Bool := false
  totalMatches : Nat := 0

/-- `Result`: a page, and whether the tool could be run at all. -/
structure Result where
  state : String
  detail : String
  sessions : List Session := []
  nextCursor : String := ""
  hasMore : Bool := false
  totalMatches : UInt32 := 0

/-- How the command ends: it is not there, it fails with an output and an error, or it prints. -/
inductive Command
  | missing
  | failed (out err : String)
  | printed (out : String)

/-! ### Lines

A line is a row of words, some of them with a key. The second `src` begins the other direction. -/

/-- `strconv.ParseUint` in base 10: the value, or the largest one with an error. -/
def parseUint (value : String) (bits : Nat) : Option Nat :=
  (digitsValue value.toList).bind fun n => if n < 2 ^ bits then some n else none

/-- `isUint`: is the word a number? -/
def isUint (value : String) : Bool := (parseUint value 64).isSome

/-- `parsePort`: a port, zero for what is none. -/
def parsePort (value : String) : Nat := (parseUint value 32).getD 0

/-- `parseUint64`: a counter, zero for what is none. -/
def parseUint64 (value : String) : UInt64 := UInt64.ofNat ((parseUint value 64).getD 0)

/-- A number of seconds: what is too large for 32 bits is the largest number of them. -/
def parseTimeout (value : String) : Nat := min ((digitsValue value.toList).getD 0) (2 ^ 32 - 1)

/-- One token of a line, on the session so far and whether the tokens are those of the reply. -/
def readToken (s : Session × Bool) (token : String) : Session × Bool :=
  let (s, reply) := s
  if token = "[ASSURED]" then ({ s with assured := true }, reply)
  else
    match cutRune '=' token.toList with
    | none => (s, reply)
    | some (key, value) =>
        let value := String.ofList value
        match String.ofList key with
        | "src" =>
            -- the second source begins the reply
            let reply := reply || s.srcIP != ""
            (if reply then { s with replySrcIP := value } else { s with srcIP := value }, reply)
        | "dst" =>
            (if reply then { s with replyDestIP := value } else { s with destIP := value }, reply)
        | "sport" =>
            (if reply then { s with replySrcPort := parsePort value }
              else { s with srcPort := parsePort value }, reply)
        | "dport" =>
            (if reply then { s with replyDestPort := parsePort value }
              else { s with destPort := parsePort value }, reply)
        | "packets" => ({ s with packets := s.packets + parseUint64 value }, reply)
        | "bytes" => ({ s with bytes := s.bytes + parseUint64 value }, reply)
        | _ => (s, reply)

section Functions

variable (lib : Library)

/-- The session of the fields after the family. -/
def readFields (family line : String) : List String → Option Session
  | [] => none
  | protocol :: rest =>
      -- the number of the protocol
      let rest := match rest with
        | number :: rest' => if isUint number then rest' else rest
        | [] => rest
      let (timeout, rest) := match rest with
        | seconds :: rest' => if isUint seconds then (parseTimeout seconds, rest') else (0, rest)
        | [] => (0, rest)
      let (state, rest) := match rest with
        | state :: rest' =>
            if !state.toList.contains '=' && !hasPrefixList state.toList ['['] then (state, rest')
            else ("", rest)
        | [] => ("", rest)
      let start : Session :=
        { family := family, protocol := lib.toUpper protocol, state := state,
          timeoutSeconds := timeout, raw := line }
      let s := (rest.foldl readToken (start, false)).1
      if s.srcIP = "" ∨ s.destIP = "" then none else some s

/-- `parseLine`: the session of a line, if it has one. -/
def parseLine (line : String) : Option Session :=
  if line = "" ∨ hasPrefixList line.toList "conntrack v".toList then none
  else if (fields line).length < 4 then none
  else
    match fields line with
    | [] => none
    | family :: rest =>
        if family = "ipv4" ∨ family = "ipv6" then readFields lib family line (rest.drop 1)
        else readFields lib "" line (family :: rest)

/-- `containsFold`: a search that ignores case. -/
def containsFold (s substr : String) : Bool :=
  decide (Contains (lib.toLower s) (lib.toLower substr))

/-- `matches`: the tests of a filter. -/
def isMatch (filter : Filter) (s : Session) : Bool :=
  if filter.srcIP ≠ "" ∧ s.srcIP ≠ filter.srcIP then false
  else if filter.srcPort ≠ 0 ∧ s.srcPort ≠ filter.srcPort then false
  else if filter.destIP ≠ "" ∧ s.destIP ≠ filter.destIP then false
  else if filter.destPort ≠ 0 ∧ s.destPort ≠ filter.destPort then false
  else if filter.ip ≠ "" ∧ s.srcIP ≠ filter.ip ∧ s.destIP ≠ filter.ip ∧
      s.replySrcIP ≠ filter.ip ∧ s.replyDestIP ≠ filter.ip then false
  else if filter.protocol ≠ "" ∧ !lib.equalFold s.protocol filter.protocol then false
  else if filter.port ≠ 0 ∧ s.srcPort ≠ filter.port ∧ s.destPort ≠ filter.port ∧
      s.replySrcPort ≠ filter.port ∧ s.replyDestPort ≠ filter.port then false
  else if filter.state ≠ "" ∧ !lib.equalFold s.state filter.state then false
  else if filter.query ≠ "" ∧ !containsFold lib (join [s.family, s.protocol, s.state, s.srcIP,
      s.destIP, s.replySrcIP, s.replyDestIP, s.raw] "\n") filter.query then false
  else true

/-! ### Pages

Pages are cut as those of telemetry are (`Phragma.Lib.Paging`). -/

/-- The sessions that are printed, in their order. -/
def sessions (output : String) : List Session :=
  ((splitOn '\n' output.toList).map fun line => trimSpace (String.ofList line)).filterMap
    (parseLine lib)

/-- There are no more sessions than lines. -/
theorem length_sessions_le (output : String) :
    (sessions lib output).length ≤ output.length + 1 := by
  have hlines : ∀ cs : List Char, (splitOn '\n' cs).length ≤ cs.length + 1 := by
    intro cs
    induction cs with
    | nil => exact le_rfl
    | cons c cs ih =>
        rw [splitOn]
        split
        · simpa using ih
        · obtain ⟨part, parts, hparts⟩ := List.exists_cons_of_ne_nil (splitOn_ne_nil '\n' cs)
          rw [hparts] at ih ⊢
          simp only [List.length_cons] at ih ⊢
          omega
  have hparsed := List.length_filterMap_le (parseLine lib)
    ((splitOn '\n' output.toList).map fun line => trimSpace (String.ofList line))
  rw [List.length_map] at hparsed
  exact hparsed.trans (hlines output.toList)

/-- `ParsePage`: a page of the sessions in the output of the tool. -/
def ParsePage (output : String) (filter : Filter) : List Session × PageInfo :=
  let limit := if filter.limit ≤ 0 then 100 else filter.limit.toNat
  let offset := filter.offset.toNat
  let cut := Paging.cutPage (isMatch lib filter) offset limit (sessions lib output)
  let next := offset + cut.1.length
  (cut.1,
    { totalMatches := cut.2
      hasMore := decide (next < cut.2)
      nextCursor := if next < cut.2 then decimal next else "" })

/-- `List`: the same after the tool was run. A missing tool or missing rights are no error, but a
state that is shown. -/
def List (command : Command) (filter : Filter) : Except String Result :=
  match command with
  | .missing => .ok {
      state := "degraded"
      detail := "conntrack command is missing; install conntrack-tools to inspect live sessions" }
  | .failed out err =>
      let msg := if trimSpace out = "" then err else trimSpace out
      if Contains (lib.toLower msg) "must be root" ∨ Contains (lib.toLower msg) "permission" then
        .ok {
          state := "unavailable"
          detail := "conntrack table cannot be read by this process: " ++ msg }
      else if Contains (lib.toLower msg) "0 flow entries" then
        .ok { state := "ready", detail := "conntrack table is empty" }
      else .error ("list conntrack sessions: " ++ msg)
  | .printed out =>
      let (sessions, page) := ParsePage lib out filter
      .ok {
        state := "ready"
        detail := decimal page.totalMatches ++ " live session(s) matched"
        sessions := sessions
        nextCursor := page.nextCursor
        hasMore := page.hasMore
        totalMatches := UInt32.ofNat page.totalMatches }

/-- A command that prints nothing is refused, or leaves no sessions. -/
theorem list_of_failed (out err : String) :
    (∃ e, ∀ filter, List lib (.failed out err) filter = .error e) ∨
      ∃ result, result.sessions = [] ∧ result.hasMore = false ∧
        ∀ filter, List lib (.failed out err) filter = .ok result := by
  obtain ⟨msg, hmsg⟩ : ∃ msg, (if trimSpace out = "" then err else trimSpace out) = msg :=
    ⟨_, rfl⟩
  by_cases hrefused : Contains (lib.toLower msg) "must be root" ∨
      Contains (lib.toLower msg) "permission"
  · refine .inr ⟨⟨"unavailable", "conntrack table cannot be read by this process: " ++ msg, [], "",
      false, 0⟩, rfl, rfl, fun filter => ?_⟩
    rw [List, hmsg, if_pos hrefused]
  · by_cases hempty : Contains (lib.toLower msg) "0 flow entries"
    · refine .inr ⟨⟨"ready", "conntrack table is empty", [], "", false, 0⟩, rfl, rfl,
        fun filter => ?_⟩
      rw [List, hmsg, if_neg hrefused, if_pos hempty]
    · refine .inl ⟨"list conntrack sessions: " ++ msg, fun filter => ?_⟩
      rw [List, hmsg, if_neg hrefused, if_neg hempty]

end Functions

end Phragma.Conntrack
