import Phragma.Go.Netip

/-!
# Phragma.Go.Text

Text formats of Go's standard library beyond `Phragma.Go.Strings`: `unicode.IsControl`,
`net.SplitHostPort`, `encoding/base64` and `strings.Cut`, with what a cut at a rune gives.

Only the acceptance and the value of a text are modelled, not the reason it was refused.
-/

namespace Phragma.Go

/-- `unicode.IsControl`: control characters. -/
def isControl (c : Char) : Bool :=
  decide (c.toNat < 0x20) || (decide (0x7f ≤ c.toNat) && decide (c.toNat < 0xa0))

/-- `strings.ContainsAny`: has the text one of the characters? -/
def containsAny (s chars : String) : Bool := s.toList.any fun c => chars.toList.contains c

/-- `strings.Cut` at a single rune: the text before it and after it; without one, the whole
text and nothing. -/
def cut (c : Char) (s : String) : String × String :=
  match cutRune c s.toList with
  | none => (s, "")
  | some (before, after) => (String.ofList before, String.ofList after)

/-! ### Cuts -/

theorem cutRune_of_notMem {c : Char} : ∀ {l : List Char}, c ∉ l → cutRune c l = none := by
  intro l
  induction l with
  | nil => intro _; rfl
  | cons x xs ih =>
      intro h
      have hx : x ≠ c := fun hx => h (hx ▸ List.mem_cons_self)
      simp [cutRune, hx, ih fun hc => h (List.mem_cons_of_mem _ hc)]

theorem cutRune_append {c : Char} : ∀ {l : List Char} (rest : List Char), c ∉ l →
    cutRune c (l ++ c :: rest) = some (l, rest) := by
  intro l
  induction l with
  | nil => intro rest _; simp [cutRune]
  | cons x xs ih =>
      intro rest h
      have hx : x ≠ c := fun hx => h (hx ▸ List.mem_cons_self)
      simp [cutRune, hx, ih rest fun hc => h (List.mem_cons_of_mem _ hc)]

/-- What a cut at the first occurrence gives. -/
theorem cutRune_eq_some {c : Char} {l before after : List Char}
    (h : cutRune c l = some (before, after)) : l = before ++ c :: after ∧ c ∉ before := by
  induction l generalizing before after with
  | nil => cases h
  | cons x xs ih =>
      rw [cutRune] at h
      split at h
      · next hx =>
          cases h
          exact ⟨by rw [hx, List.nil_append], List.not_mem_nil⟩
      · next hx =>
          obtain ⟨r, hr, hra⟩ := Option.map_eq_some_iff.mp h
          cases hra
          obtain ⟨rfl, hmem⟩ := ih hr
          refine ⟨rfl, fun hc => ?_⟩
          rcases List.mem_cons.mp hc with rfl | hc
          · exact hx rfl
          · exact hmem hc

theorem notMem_of_cutRune {c : Char} {l : List Char} (h : cutRune c l = none) : c ∉ l := by
  induction l with
  | nil => exact List.not_mem_nil
  | cons x xs ih =>
      rw [cutRune] at h
      split at h
      · cases h
      · next hx =>
          intro hc
          rcases List.mem_cons.mp hc with rfl | hc
          · exact hx rfl
          · exact ih (Option.map_eq_none_iff.mp h) hc

theorem cutLastRune_of_notMem {c : Char} {l : List Char} (h : c ∉ l) : cutLastRune c l = none := by
  induction l with
  | nil => rfl
  | cons x xs ih =>
      rw [cutLastRune, ih fun hc => h (List.mem_cons_of_mem _ hc)]
      exact if_neg fun hx : x = c => h (hx ▸ List.mem_cons_self)

theorem cutLastRune_append {c : Char} {rest : List Char} (l : List Char) (h : c ∉ rest) :
    cutLastRune c (l ++ c :: rest) = some (l, rest) := by
  induction l with
  | nil =>
      rw [List.nil_append, cutLastRune, cutLastRune_of_notMem h]
      exact if_pos rfl
  | cons x xs ih => rw [List.cons_append, cutLastRune, ih]

/-- What a cut at the last occurrence gives. -/
theorem cutLastRune_eq_some {c : Char} {l before after : List Char}
    (h : cutLastRune c l = some (before, after)) : l = before ++ c :: after := by
  induction l generalizing before after with
  | nil => cases h
  | cons x xs ih =>
      rw [cutLastRune] at h
      cases hcut : cutLastRune c xs with
      | none =>
          rw [hcut] at h
          dsimp only at h
          split at h
          · next hx =>
              cases h
              rw [hx, List.nil_append]
          · cases h
      | some r =>
          rw [hcut] at h
          cases h
          rw [ih hcut, List.cons_append]

/-! ### Host and port -/

/-- `net.SplitHostPort`: the port follows the last colon; a host that contains a colon
stands in brackets, which may not occur anywhere else. -/
def splitHostPort (s : String) : Option (String × String) :=
  match cutLastRune ':' s.toList with
  | none => none
  | some (host, port) =>
      match host with
      | '[' :: inner =>
          match cutRune ']' inner with
          | none => none
          | some (name, rest) =>
              if rest.isEmpty && !name.contains '[' && !port.contains '[' && !port.contains ']' then
                some (String.ofList name, String.ofList port)
              else none
      | _ =>
          if host.contains ':' || host.contains '[' || host.contains ']' || port.contains '[' ||
              port.contains ']' then none
          else some (String.ofList host, String.ofList port)

/-! ### Base64 -/

/-- The value of a digit of the standard base64 alphabet. -/
def base64Value (c : Char) : Option Nat :=
  if 'A' ≤ c ∧ c ≤ 'Z' then some (c.toNat - 'A'.toNat)
  else if 'a' ≤ c ∧ c ≤ 'z' then some (c.toNat - 'a'.toNat + 26)
  else if '0' ≤ c ∧ c ≤ '9' then some (c.toNat - '0'.toNat + 52)
  else if c = '+' then some 62
  else if c = '/' then some 63
  else none

/-- The bytes of a base64 text without line breaks: groups of four digits, the last one
padded. Left-over bits of a padded group are not looked at. -/
def base64Groups : List Char → Option (List Nat)
  | [] => some []
  | [a, b, '=', '='] => do
      let a ← base64Value a
      let b ← base64Value b
      pure [a * 4 + b / 16]
  | [a, b, c, '='] => do
      let a ← base64Value a
      let b ← base64Value b
      let c ← base64Value c
      pure [a * 4 + b / 16, b % 16 * 16 + c / 4]
  | a :: b :: c :: d :: rest => do
      let a ← base64Value a
      let b ← base64Value b
      let c ← base64Value c
      let d ← base64Value d
      let bytes ← base64Groups rest
      pure ([a * 4 + b / 16, b % 16 * 16 + c / 4, c % 4 * 64 + d] ++ bytes)
  | _ => none

/-- A line break, skipped by the base64 decoder. -/
def isLineBreak (c : Char) : Bool := c == '\r' || c == '\n'

/-- `base64.StdEncoding.DecodeString`: the bytes of a text in base64. Line breaks are skipped. -/
def base64Decode (s : String) : Option (List Nat) :=
  base64Groups (s.toList.filter fun c => !isLineBreak c)

example : base64Decode "aGk=\r\n" = some [104, 105] := by decide
example : splitHostPort "[2001:db8::1]:51820" = some ("2001:db8::1", "51820") := by decide

end Phragma.Go
