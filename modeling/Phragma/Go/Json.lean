import Phragma.Go.Strings

/-!
# Phragma.Go.Json

Go strings with **arbitrary bytes**, and what `encoding/json` makes of them.

A Go string is a byte sequence; ranging over it yields runes, and single bytes where the
bytes are not UTF-8. `GoString` is that view of it. `json.Marshal` writes a byte that is
not UTF-8 as the escape `\ufffd` and the character U+FFFD as it is; `json.Unmarshal` reads
both as U+FFFD. So a string survives the round trip exactly when it is UTF-8
(`jsonString_eq_self`), and the encoded text determines a UTF-8 string
(`scanString_encodeString`).
-/

namespace Phragma.Go

/-! ### Strings of arbitrary bytes

A Go string need not be UTF-8. Here it is a list of runes, among them bytes that are none. -/

/-- One step of ranging over a string: a rune, or a byte that is not part of one. -/
inductive Rune
  | char (c : Char)
  | byte (b : UInt8)
  deriving DecidableEq, Repr

/-- A Go string. -/
abbrev GoString := List Rune

/-- A text that is known to be UTF-8. -/
def GoString.ofString (s : String) : GoString := s.toList.map .char

theorem GoString.ofString_eq_nil {s : String} (h : GoString.ofString s = []) : s = "" := by
  unfold GoString.ofString at h
  exact String.toList_eq_nil_iff.mp (List.map_eq_nil_iff.mp h)

/-- U+FFFD, `utf8.RuneError`. -/
def runeError : Char := '\ufffd'

/-- The rune a range loop yields. -/
def Rune.toChar : Rune → Char
  | .char c => c
  | .byte _ => runeError

/-- `utf8.ValidString`: all of it are characters. -/
def GoString.Valid (s : GoString) : Prop := ∀ r ∈ s, ∃ c, r = .char c

instance (s : GoString) : Decidable s.Valid :=
  decidable_of_iff (∀ r ∈ s, r = .char r.toChar) (by
    refine forall₂_congr fun r _ => ⟨fun h => ⟨_, h⟩, ?_⟩
    rintro ⟨c, rfl⟩
    rfl)

theorem GoString.valid_append {s t : GoString} : GoString.Valid (s ++ t) ↔ s.Valid ∧ t.Valid := by
  unfold GoString.Valid
  simp only [List.mem_append]
  constructor
  · intro h
    exact ⟨fun r hr => h r (.inl hr), fun r hr => h r (.inr hr)⟩
  · rintro ⟨hs, ht⟩ r (hr | hr)
    · exact hs r hr
    · exact ht r hr

theorem GoString.valid_map_char (cs : List Char) : GoString.Valid (cs.map .char) := by
  intro r hr
  obtain ⟨c, -, rfl⟩ := List.mem_map.mp hr
  exact ⟨c, rfl⟩

theorem GoString.valid_ofString (s : String) : (GoString.ofString s).Valid :=
  GoString.valid_map_char s.toList

/-- `unicode.IsSpace` of what a range loop yields. -/
def Rune.isSpace : Rune → Bool
  | .char c => Go.isSpace c
  | .byte _ => false

/-- `strings.TrimSpace`: a string without the white space around it. -/
def GoString.trimSpace (s : GoString) : GoString := trimList Rune.isSpace s

theorem GoString.valid_trimSpace {s : GoString} (h : s.Valid) : s.trimSpace.Valid :=
  fun r hr => h r (mem_of_mem_trimList hr)

/-- The bytes of a rune. -/
def Rune.bytes : Rune → List UInt8
  | .char c => String.utf8EncodeChar c
  | .byte b => [b]

/-- The bytes of a string, by which strings are compared. -/
def GoString.bytes (s : GoString) : List UInt8 := s.flatMap Rune.bytes

/-! ### String literals

What `json.Marshal` writes for a string is read back as the string, except that a stray byte becomes
U+FFFD. -/

/-- Four hexadecimal digits. -/
def hex4 (n : Nat) : List Char :=
  [hexDigit (n / 4096 % 16), hexDigit (n / 256 % 16), hexDigit (n / 16 % 16), hexDigit (n % 16)]

/-- The characters `json.Marshal` writes as `\uXXXX`: control characters without a short
form, the HTML-sensitive ones and the two line separators. -/
def escapesAsHex (c : Char) : Bool :=
  c.toNat < 0x20 || c == '<' || c == '>' || c == '&' || c.toNat == 0x2028 || c.toNat == 0x2029

/-- The short escape of a character, if it has one. -/
def shortEscape (c : Char) : Option Char :=
  if c = '"' then some '"'
  else if c = '\\' then some '\\'
  else if c.toNat = 8 then some 'b'
  else if c.toNat = 12 then some 'f'
  else if c = '\n' then some 'n'
  else if c = '\r' then some 'r'
  else if c = '\t' then some 't'
  else none

/-- One rune inside a string literal. -/
def encodeRune : Rune → List Char
  | .byte _ => '\\' :: 'u' :: hex4 0xfffd
  | .char c =>
      match shortEscape c with
      | some e => ['\\', e]
      | none => if escapesAsHex c then '\\' :: 'u' :: hex4 c.toNat else [c]

/-- The text of a string literal between its quotes, as `json.Marshal` writes it. -/
def encodeString (s : GoString) : List Char := s.flatMap encodeRune

/-- The value of a hexadecimal digit, as far as `hexDigit` writes it. -/
def hexDigitValue (c : Char) : Option Nat :=
  if '0' ≤ c ∧ c ≤ '9' then some (c.toNat - '0'.toNat)
  else if 'a' ≤ c ∧ c ≤ 'f' then some (c.toNat - 'a'.toNat + 10)
  else none

/-- The character a short escape stands for. -/
def unescape (e : Char) : Option Char :=
  if e = '"' then some '"'
  else if e = '\\' then some '\\'
  else if e = '/' then some '/'
  else if e = 'b' then some (Char.ofNat 8)
  else if e = 'f' then some (Char.ofNat 12)
  else if e = 'n' then some '\n'
  else if e = 'r' then some '\r'
  else if e = 't' then some '\t'
  else none

/-- The value of a four-digit escape. -/
def hex4Value (a b c d : Char) : Option Nat :=
  match hexDigitValue a, hexDigitValue b, hexDigitValue c, hexDigitValue d with
  | some a, some b, some c, some d => some (((a * 16 + b) * 16 + c) * 16 + d)
  | _, _, _, _ => none

/-- Read a string literal after its opening quote: its characters, and what follows the
closing quote. `json.Marshal` writes no UTF-16 pair, and none is read here. -/
def scanString : List Char → Option (List Char × List Char)
  | [] => none
  | c :: rest =>
      if c = '"' then some ([], rest)
      else if c = '\\' then
        match rest with
        | [] => none
        | e :: rest =>
            if e = 'u' then
              match rest with
              | h₁ :: h₂ :: h₃ :: h₄ :: rest =>
                  match hex4Value h₁ h₂ h₃ h₄ with
                  | some n => (scanString rest).map fun r => (Char.ofNat n :: r.1, r.2)
                  | none => none
              | _ => none
            else
              match unescape e with
              | some c => (scanString rest).map fun r => (c :: r.1, r.2)
              | none => none
      else if c.toNat < 0x20 then none
      else (scanString rest).map fun r => (c :: r.1, r.2)

theorem hexDigitValue_hexDigit : ∀ n < 16, hexDigitValue (hexDigit n) = some n := by decide

theorem hex4Value_hex4 {n : Nat} (h : n < 65536) :
    hex4Value (hexDigit (n / 4096 % 16)) (hexDigit (n / 256 % 16)) (hexDigit (n / 16 % 16))
      (hexDigit (n % 16)) = some n := by
  unfold hex4Value
  rw [hexDigitValue_hexDigit _ (by omega), hexDigitValue_hexDigit _ (by omega),
    hexDigitValue_hexDigit _ (by omega), hexDigitValue_hexDigit _ (by omega)]
  simp only [Option.some.injEq]
  omega

theorem scanString_quote (rest : List Char) : scanString ('"' :: rest) = some ([], rest) := by
  rw [scanString.eq_def]
  rfl

theorem scanString_short {e c : Char} (hu : e ≠ 'u') (h : unescape e = some c) (t : List Char) :
    scanString ('\\' :: e :: t) = (scanString t).map fun r => (c :: r.1, r.2) := by
  rw [scanString.eq_def]
  simp only [show ¬ ('\\' = '"') by decide, if_false, if_true, hu, h]

theorem scanString_plain {c : Char} (hq : c ≠ '"') (hb : c ≠ '\\') (hge : ¬ c.toNat < 0x20)
    (t : List Char) : scanString (c :: t) = (scanString t).map fun r => (c :: r.1, r.2) := by
  rw [scanString.eq_def]
  simp only [hq, hb, if_false, hge]

/-- A four-digit escape is read as the character it names. -/
theorem scanString_hex4 {n : Nat} (h : n < 65536) (t : List Char) :
    scanString ('\\' :: 'u' :: hex4 n ++ t) =
      (scanString t).map fun r => (Char.ofNat n :: r.1, r.2) := by
  rw [scanString.eq_def]
  simp only [hex4, List.cons_append, List.nil_append, show ¬ ('\\' = '"') by decide, if_false,
    if_true, hex4Value_hex4 h]

/-- A short escape is read as the character it was written for. -/
theorem unescape_shortEscape {c e : Char} (h : shortEscape c = some e) :
    unescape e = some c ∧ e ≠ 'u' := by
  have hnat : ∀ n, c.toNat = n → Char.ofNat n = c := by
    rintro n rfl
    exact Char.ofNat_toNat c
  unfold shortEscape at h
  split_ifs at h with h1 h2 h3 h4 h5 h6 h7 <;> cases h
  · exact ⟨by rw [h1]; rfl, by decide⟩
  · exact ⟨by rw [h2]; rfl, by decide⟩
  · exact ⟨by rw [← hnat _ h3]; rfl, by decide⟩
  · exact ⟨by rw [← hnat _ h4]; rfl, by decide⟩
  · exact ⟨by rw [h5]; rfl, by decide⟩
  · exact ⟨by rw [h6]; rfl, by decide⟩
  · exact ⟨by rw [h7]; rfl, by decide⟩

theorem lt_of_escapesAsHex {c : Char} (h : escapesAsHex c = true) : c.toNat < 65536 := by
  simp only [escapesAsHex, Bool.or_eq_true, decide_eq_true_eq, beq_iff_eq] at h
  rcases h with ((((h | h) | h) | h) | h) | h
  · omega
  · rw [h]; decide
  · rw [h]; decide
  · rw [h]; decide
  · omega
  · omega

/-- Reading undoes writing, one rune at a time. -/
theorem scanString_encodeRune (r : Rune) (t : List Char) :
    scanString (encodeRune r ++ t) = (scanString t).map fun q => (r.toChar :: q.1, q.2) := by
  cases r with
  | byte b => exact scanString_hex4 (by decide) t
  | char c =>
      cases hs : shortEscape c with
      | some e =>
          obtain ⟨hu, hne⟩ := unescape_shortEscape hs
          simp only [encodeRune, hs, List.cons_append, List.nil_append]
          exact scanString_short hne hu t
      | none =>
          cases hx : escapesAsHex c with
          | true =>
              simp only [encodeRune, hs, hx, if_true]
              rw [scanString_hex4 (lt_of_escapesAsHex hx), Char.ofNat_toNat]
              rfl
          | false =>
              have hq : c ≠ '"' ∧ c ≠ '\\' := by
                refine ⟨?_, ?_⟩ <;> rintro rfl <;> simp [shortEscape] at hs
              have hge : ¬ c.toNat < 0x20 := by
                simp only [escapesAsHex, Bool.or_eq_false_iff, decide_eq_false_iff_not] at hx
                exact hx.1.1.1.1.1
              simp only [encodeRune, hs, hx, Bool.false_eq_true, if_false, List.cons_append,
                List.nil_append]
              exact scanString_plain hq.1 hq.2 hge t

/-- **Reading undoes writing**: a literal is read up to its closing quote, with every byte
that is not UTF-8 replaced. -/
theorem scanString_encodeString (s : GoString) (rest : List Char) :
    scanString (encodeString s ++ '"' :: rest) = some (s.map Rune.toChar, rest) := by
  unfold encodeString
  induction s with
  | nil =>
      simp only [List.flatMap_nil, List.nil_append, List.map_nil]
      exact scanString_quote rest
  | cons r s ih =>
      rw [List.flatMap_cons, List.append_assoc, scanString_encodeRune, ih]
      rfl

/-- A string after `json.Marshal` and `json.Unmarshal`. -/
def jsonString (s : GoString) : GoString :=
  match scanString (encodeString s ++ ['"']) with
  | some (cs, _) => cs.map .char
  | none => []

theorem jsonString_eq (s : GoString) : jsonString s = s.map fun r => .char r.toChar := by
  unfold jsonString
  rw [scanString_encodeString]
  simp

/-- UTF-8 strings survive the round trip. -/
theorem jsonString_eq_self {s : GoString} (h : s.Valid) : jsonString s = s := by
  rw [jsonString_eq]
  conv_rhs => rw [← List.map_id s]
  refine List.map_congr_left fun r hr => ?_
  obtain ⟨c, rfl⟩ := h r hr
  rfl

theorem valid_jsonString (s : GoString) : (jsonString s).Valid := by
  rw [jsonString_eq]
  intro r hr
  obtain ⟨r', -, rfl⟩ := List.mem_map.mp hr
  exact ⟨_, rfl⟩

/-- A UTF-8 string is determined by the runes it yields. -/
theorem GoString.map_toChar_inj {s t : GoString} (hs : s.Valid) (ht : t.Valid)
    (h : s.map Rune.toChar = t.map Rune.toChar) : s = t := by
  have hmap : ∀ u : GoString, (u.map fun r => Rune.char r.toChar) = (u.map Rune.toChar).map .char := by
    intro u
    simp
  rw [← jsonString_eq_self hs, ← jsonString_eq_self ht, jsonString_eq, jsonString_eq, hmap, hmap, h]

/-- The text of a UTF-8 literal determines it, and where it ends. -/
theorem encodeString_inj {s t : GoString} {rest rest' : List Char} (hs : s.Valid) (ht : t.Valid)
    (h : encodeString s ++ '"' :: rest = encodeString t ++ '"' :: rest') :
    s = t ∧ rest = rest' := by
  have hscan := congrArg scanString h
  rw [scanString_encodeString, scanString_encodeString] at hscan
  simp only [Option.some.injEq, Prod.mk.injEq] at hscan
  exact ⟨GoString.map_toChar_inj hs ht hscan.1, hscan.2⟩

/-! ### Objects

The members of an object are written one after the other; each is given what follows it,
which is how the text is read back. -/

/-- A member that is a string. -/
def stringMember (name : String) (s : GoString) (rest : List Char) : List Char :=
  '"' :: (name.toList ++ '"' :: ':' :: '"' :: (encodeString s ++ '"' :: rest))

/-- A member that is a number. -/
def natMember (name : String) (n : Nat) (rest : List Char) : List Char :=
  '"' :: (name.toList ++ '"' :: ':' :: ((decimal n).toList ++ rest))

theorem decimal_inj {m n : Nat} (h : (decimal m).toList = (decimal n).toList) : m = n := by
  rw [decimal, decimal, Nat.toString_eq_repr, Nat.toString_eq_repr, Nat.toList_repr,
    Nat.toList_repr] at h
  rw [← @Nat.ofDigitChars_ten_toDigits m, h, Nat.ofDigitChars_ten_toDigits]

/-- Digits end at the comma behind them. -/
theorem takeWhile_decimal (n : Nat) (rest : List Char) :
    ((decimal n).toList ++ ',' :: rest).takeWhile Char.isDigit = (decimal n).toList := by
  rw [List.takeWhile_append_of_pos fun c hc => isDigit_of_mem_decimal hc]
  have : List.takeWhile Char.isDigit (',' :: rest) = [] := rfl
  rw [this, List.append_nil]

theorem stringMember_inj {name : String} {s t : GoString} {rest rest' : List Char}
    (hs : s.Valid) (ht : t.Valid) (h : stringMember name s rest = stringMember name t rest') :
    s = t ∧ rest = rest' := by
  unfold stringMember at h
  have h := List.append_cancel_left (List.cons.inj h).2
  simp only [List.cons.injEq, true_and] at h
  exact encodeString_inj hs ht h

theorem natMember_inj {name : String} {m n : Nat} {rest rest' : List Char}
    (h : natMember name m (',' :: rest) = natMember name n (',' :: rest')) :
    m = n ∧ rest = rest' := by
  unfold natMember at h
  have h := List.append_cancel_left (List.cons.inj h).2
  simp only [List.cons.injEq, true_and] at h
  have hdigits := congrArg (List.takeWhile Char.isDigit) h
  rw [takeWhile_decimal, takeWhile_decimal] at hdigits
  obtain rfl := decimal_inj hdigits
  exact ⟨rfl, (List.cons.inj (List.append_cancel_left h)).2⟩

end Phragma.Go
