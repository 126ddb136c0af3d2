import Phragma.Go.Strings

/-!
# Phragma.Go.Netip

Go's `net/netip`: addresses, prefixes, their text forms and containment.

An address is an IPv4 word or an IPv6 word with a zone. An IPv4-mapped IPv6
address (`::ffff:1.2.3.4`) is an IPv6 address here as it is in Go: `Is4` is false
of it and no IPv4 prefix contains it. A `Prefix` carries the two facts
`netip.ParsePrefix` guarantees, that the length fits the address family and that
there is no zone, so an invalid prefix cannot be built.

The parsers follow the grammar of `ParseAddr` and `ParsePrefix`; they return an
`Option`, since no caller looks at the reason a text was refused.
-/

namespace Phragma.Go

/-- `netip.Addr`: an address of either family. An IPv6 address may have a zone. -/
inductive Addr
  | v4 (a : BitVec 32)
  | v6 (a : BitVec 128) (zone : String)
  deriving DecidableEq, Repr

namespace Addr

/-- `Addr.Is4`: is it an IPv4 address? A mapped one is not. -/
def is4 : Addr → Bool
  | v4 _ => true
  | v6 _ _ => false

/-- `Addr.Is6`, true of IPv4-mapped addresses too. -/
def is6 : Addr → Bool
  | v4 _ => false
  | v6 _ _ => true

/-- `Addr.BitLen`: the bits of an address. -/
def bitLen : Addr → Nat
  | v4 _ => 32
  | v6 _ _ => 128

/-- `Addr.Zone`: the zone, empty for none. -/
def zone : Addr → String
  | v4 _ => ""
  | v6 _ z => z

@[simp] theorem is6_eq_not_is4 (a : Addr) : a.is6 = !a.is4 := by
  cases a <;> rfl

end Addr

/-! ### Text forms

An IPv6 address has many texts. It is printed in one of them, in lower case, with the longest row of
zeros left out. -/

/-- A decimal field of a dotted quad: one to three digits, no leading zero, at most
255. -/
def parseOctet (cs : List Char) : Option Nat :=
  if cs.isEmpty || !cs.all Char.isDigit || decide (3 < cs.length) ||
      (decide (1 < cs.length) && cs.head? == some '0') then none
  else
    let n := cs.foldl (fun n c => n * 10 + (c.toNat - '0'.toNat)) 0
    if n ≤ 255 then some n else none

/-- `netip.parseIPv4`: four octets. -/
def parseIPv4 (cs : List Char) : Option (BitVec 32) :=
  match (splitOn '.' cs).map parseOctet with
  | [some a, some b, some c, some d] =>
      some (BitVec.ofNat 32 (((a * 256 + b) * 256 + c) * 256 + d))
  | _ => none

/-- The value of a hexadecimal digit, either case. -/
def hexValue (c : Char) : Option Nat :=
  if '0' ≤ c ∧ c ≤ '9' then some (c.toNat - '0'.toNat)
  else if 'a' ≤ c ∧ c ≤ 'f' then some (c.toNat - 'a'.toNat + 10)
  else if 'A' ≤ c ∧ c ≤ 'F' then some (c.toNat - 'A'.toNat + 10)
  else none

/-- One group of an IPv6 address: one to four hexadecimal digits. -/
def parseHextet (cs : List Char) : Option Nat :=
  if cs.isEmpty || decide (4 < cs.length) then none
  else cs.foldl (fun n c => n.bind fun n => (hexValue c).map (n * 16 + ·)) (some 0)

/-- The groups between colons; the last one may be a dotted quad when `quad`. -/
def parseGroups (quad : Bool) : List (List Char) → Option (List Nat)
  | [] => some []
  | [g] =>
      if quad && g.contains '.' then
        (parseIPv4 g).map fun a => [a.toNat / 65536, a.toNat % 65536]
      else (parseHextet g).map ([·])
  | g :: gs =>
      match parseHextet g, parseGroups quad gs with
      | some h, some t => some (h :: t)
      | _, _ => none

/-- The text before and after the first `::`. -/
def cutEllipsis : List Char → Option (List Char × List Char)
  | [] => none
  | c :: cs =>
      if c = ':' ∧ cs.head? = some ':' then some ([], cs.tail)
      else (cutEllipsis cs).map fun r => (c :: r.1, r.2)

/-- The groups of one side of an ellipsis; an empty side has none. -/
def parseSide (quad : Bool) (cs : List Char) : Option (List Nat) :=
  if cs.isEmpty then some [] else parseGroups quad (splitOn ':' cs)

/-- The eight groups of an IPv6 address without its zone. -/
def parseIPv6Groups (cs : List Char) : Option (List Nat) :=
  match cutEllipsis cs with
  | none =>
      match parseGroups true (splitOn ':' cs) with
      | some gs => if gs.length = 8 then some gs else none
      | none => none
  | some (left, right) =>
      match parseSide false left, parseSide true right with
      | some l, some r =>
          -- The ellipsis stands for at least one group of zeros.
          if l.length + r.length ≤ 7 then
            some (l ++ List.replicate (8 - (l.length + r.length)) 0 ++ r)
          else none
      | _, _ => none

/-- Cut a rune list at the first occurrence of `c`. -/
def cutRune (c : Char) : List Char → Option (List Char × List Char)
  | [] => none
  | x :: xs => if x = c then some ([], xs) else (cutRune c xs).map fun r => (x :: r.1, r.2)

/-- `netip.parseIPv6`: the groups, and a zone after `%` that must not be empty. -/
def parseIPv6 (cs : List Char) : Option Addr :=
  let word (gs : List Nat) : BitVec 128 := BitVec.ofNat 128 (gs.foldl (fun n g => n * 65536 + g) 0)
  match cutRune '%' cs with
  | none => (parseIPv6Groups cs).map fun gs => .v6 (word gs) ""
  | some (body, zone) =>
      if zone.isEmpty then none
      else (parseIPv6Groups body).map fun gs => .v6 (word gs) (String.ofList zone)

/-- `netip.ParseAddr`: the first of `.`, `:` and `%` in the text decides the form. -/
def parseAddr (s : String) : Option Addr :=
  match s.toList.find? (fun c => c == '.' || c == ':' || c == '%') with
  | some '.' => (parseIPv4 s.toList).map .v4
  | some ':' => parseIPv6 s.toList
  | _ => none

/-- The dotted quad of an IPv4 word. -/
def quadString (n : Nat) : String :=
  join [decimal (n / 16777216 % 256), decimal (n / 65536 % 256), decimal (n / 256 % 256),
    decimal (n % 256)] "."

/-- The eight groups of an IPv6 word, most significant first. -/
def groupsOf (n : Nat) : List Nat :=
  [7, 6, 5, 4, 3, 2, 1, 0].map fun i => n / 65536 ^ i % 65536

/-- The length of the run of zeros a list starts with. -/
def zeroRun : List Nat → Nat
  | 0 :: gs => zeroRun gs + 1
  | _ => 0

/-- Start and length of the first longest run of zero groups, scanning from `i`. -/
def longestZeroRun : Nat → List Nat → Nat × Nat
  | _, [] => (0, 0)
  | i, g :: gs =>
      let rest := longestZeroRun (i + 1) gs
      let here := zeroRun (g :: gs)
      if rest.2 ≤ here ∧ here ≠ 0 then (i, here) else rest

/-- `Addr.appendTo6`: lower-case groups, the first longest run of two or more zero
groups written as `::`. -/
def string6 (n : Nat) : String :=
  let gs := groupsOf n
  let hex (l : List Nat) : String := join (l.map fun g => String.ofList (hexDigits g)) ":"
  let run := longestZeroRun 0 gs
  if run.2 < 2 then hex gs
  else hex (gs.take run.1) ++ "::" ++ hex (gs.drop (run.1 + run.2))

/-- `Addr.String`: the text of an address. -/
def Addr.string : Addr → String
  | .v4 a => quadString a.toNat
  | .v6 a zone =>
      let body :=
        if a.toNat / 2 ^ 32 = 0xffff then "::ffff:" ++ quadString (a.toNat % 2 ^ 32)
        else string6 a.toNat
      if zone = "" then body else body ++ "%" ++ zone

/-! ### Prefixes

A prefix keeps the address that it is given, bits beyond its length among them. It is masked where
the source masks it. -/

/-- `netip.Prefix` as `ParsePrefix` builds it. Host bits are kept. -/
structure Prefix where
  addr : Addr
  bits : Nat
  bits_le : bits ≤ addr.bitLen
  zone_eq : addr.zone = ""
  deriving DecidableEq, Repr

/-- Cut a rune list at the last occurrence of `c`. -/
def cutLastRune (c : Char) : List Char → Option (List Char × List Char)
  | [] => none
  | x :: xs =>
      match cutLastRune c xs with
      | some r => some (x :: r.1, r.2)
      | none => if x = c then some ([], xs) else none

/-- The length field of a prefix: digits, no sign, no leading zero. -/
def parseBits (cs : List Char) : Option Nat :=
  if cs.isEmpty || !cs.all Char.isDigit ||
      (decide (1 < cs.length) && cs.head? == some '0') then none
  else some (cs.foldl (fun n c => n * 10 + (c.toNat - '0'.toNat)) 0)

/-- `netip.ParsePrefix`: an address without a zone, and a length. -/
def parsePrefix (s : String) : Option Prefix :=
  match cutLastRune '/' s.toList with
  | none => none
  | some (a, b) =>
      match parseAddr (String.ofList a), parseBits b with
      | some addr, some bits =>
          if hz : addr.zone = "" then
            if hb : bits ≤ addr.bitLen then some ⟨addr, bits, hb, hz⟩ else none
          else none
      | _, _ => none

namespace Prefix

/-- `Prefix.IsSingleIP`: does it hold one address? -/
def isSingleIP (p : Prefix) : Bool := p.bits == p.addr.bitLen

/-- `Prefix.String`: the prefix in CIDR form. -/
def string (p : Prefix) : String := p.addr.string ++ "/" ++ decimal p.bits

/-- The mask of the first `n` of `w` bits (`netip.mask6`). -/
def mask (w n : Nat) : BitVec w := BitVec.allOnes w <<< (w - n)

/-- `Prefix.Contains`: the address differs from the prefix's nowhere in the first
`bits` bits. A zoned address and one of the other family are never contained. -/
def contains (p : Prefix) (ip : Addr) : Bool :=
  match p.addr, ip with
  | .v4 a, .v4 b => ((b ^^^ a) >>> (32 - p.bits)) == 0
  | .v6 a _, .v6 b zone => zone == "" && ((b ^^^ a) &&& mask 128 p.bits) == 0
  | _, _ => false

/-- Agreement under a mask: the comparison a packet filter makes. -/
def maskedEq {w : Nat} (n : Nat) (a b : BitVec w) : Bool := (a &&& mask w n) == (b &&& mask w n)

/-- Under the full mask, agreement is equality. -/
theorem maskedEq_full {w : Nat} (a b : BitVec w) : maskedEq w a b = decide (a = b) := by
  unfold maskedEq mask
  rw [Nat.sub_self, BitVec.shiftLeft_zero, BitVec.and_allOnes, BitVec.and_allOnes]
  exact beq_eq_decide a b

/-- Bit `i` of a mask of `n` ones. -/
theorem getLsbD_mask {w n i : Nat} :
    (mask w n).getLsbD i = (decide (i < w) && decide (w - n ≤ i)) := by
  simp only [mask, BitVec.getLsbD_shiftLeft, BitVec.getLsbD_allOnes]
  by_cases h1 : i < w
  · by_cases h2 : w - n ≤ i
    · simp [h1, h2]
      omega
    · simp [h1, h2]
  · simp [h1]

/-- Shifting the difference of two words to the right by the host bits leaves zero
exactly when the words agree under the mask. -/
theorem shift_xor_eq_zero {w n : Nat} (a b : BitVec w) :
    (((b ^^^ a) >>> (w - n)) == 0) = maskedEq n b a := by
  rw [maskedEq, Bool.eq_iff_iff, beq_iff_eq, beq_iff_eq]
  constructor
  · intro h
    apply BitVec.eq_of_getLsbD_eq
    intro i hi
    simp only [BitVec.getLsbD_and, getLsbD_mask]
    by_cases hlo : w - n ≤ i
    · have hbit := congrArg (fun v => v.getLsbD (i - (w - n))) h
      simp only [BitVec.getLsbD_ushiftRight, BitVec.getLsbD_xor,
        Nat.add_sub_cancel' hlo, BitVec.getLsbD_zero, BitVec.ofNat_eq_ofNat] at hbit
      have hab : b.getLsbD i = a.getLsbD i := by
        revert hbit
        cases b.getLsbD i <;> cases a.getLsbD i <;> decide
      rw [hab]
    · simp [hlo]
  · intro h
    apply BitVec.eq_of_getLsbD_eq
    intro i hi
    simp only [BitVec.getLsbD_ushiftRight, BitVec.getLsbD_xor, BitVec.getLsbD_zero,
      BitVec.ofNat_eq_ofNat]
    by_cases hw : w - n + i < w
    · have hbit := congrArg (fun v => v.getLsbD (w - n + i)) h
      simp only [BitVec.getLsbD_and, getLsbD_mask, hw, Nat.le_add_right, decide_true,
        Bool.and_self, Bool.and_true] at hbit
      rw [hbit, Bool.xor_self]
    · rw [BitVec.getLsbD_of_ge b _ (by omega), BitVec.getLsbD_of_ge a _ (by omega), Bool.xor_self]

/-- Masking the difference of two words leaves zero exactly when they agree under
the mask. -/
theorem and_xor_eq_zero {w n : Nat} (a b : BitVec w) :
    (((b ^^^ a) &&& mask w n) == 0) = maskedEq n b a := by
  rw [maskedEq, Bool.eq_iff_iff, beq_iff_eq, beq_iff_eq]
  constructor
  · intro h
    apply BitVec.eq_of_getLsbD_eq
    intro i hi
    have hbit := congrArg (fun v => v.getLsbD i) h
    simp only [BitVec.getLsbD_and, BitVec.getLsbD_xor, BitVec.getLsbD_zero,
      BitVec.ofNat_eq_ofNat] at hbit ⊢
    revert hbit
    cases b.getLsbD i <;> cases a.getLsbD i <;> cases (mask w n).getLsbD i <;> decide
  · intro h
    apply BitVec.eq_of_getLsbD_eq
    intro i hi
    have hbit := congrArg (fun v => v.getLsbD i) h
    simp only [BitVec.getLsbD_and, BitVec.getLsbD_xor, BitVec.getLsbD_zero,
      BitVec.ofNat_eq_ofNat] at hbit ⊢
    revert hbit
    cases b.getLsbD i <;> cases a.getLsbD i <;> cases (mask w n).getLsbD i <;> decide

end Prefix

example : parseAddr "10.0.0.1" = some (.v4 0x0a000001#32) := by decide
example : parseAddr "2001:db8::1:0" = some (.v6 0x20010db8000000000000000000010000#128 "") := by
  decide
example : (parsePrefix "10.1.2.3/8").map Prefix.string = some "10.1.2.3/8" := by decide

end Phragma.Go
