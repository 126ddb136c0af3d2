import Phragma.Go.Strings
import Mathlib.Data.List.DropRight

/-!
# Phragma.Go.Time

Instants as the control plane stores them: in UTC, without a monotonic reading, with
nanosecond resolution and within the years that `Time.MarshalJSON` accepts.

`format` is `Time.Format(time.RFC3339Nano)`: fixed-width fields, then the fraction of a
second without its trailing zeros. It is injective (`format_inj`), so a text that embeds a
formatted time determines the instant down to the nanosecond.
-/

namespace Phragma.Go

/-! ### Fixed-width numbers -/

/-- The last `w` decimal digits of `n`, highest first. -/
def pad : Nat → Nat → List Char
  | 0, _ => []
  | w + 1, n => hexDigit (n / 10 ^ w % 10) :: pad w n

@[simp] theorem length_pad (w n : Nat) : (pad w n).length = w := by
  induction w with
  | zero => rfl
  | succ w ih => simp [pad, ih]

theorem hexDigit_inj : ∀ a < 10, ∀ b < 10, hexDigit a = hexDigit b → a = b := by decide

theorem pad_mod_inj {w m n : Nat} (h : pad w m = pad w n) : m % 10 ^ w = n % 10 ^ w := by
  induction w with
  | zero => simp [Nat.mod_one]
  | succ w ih =>
      simp only [pad, List.cons.injEq] at h
      have hd := hexDigit_inj _ (Nat.mod_lt _ (by decide)) _ (Nat.mod_lt _ (by decide)) h.1
      rw [Nat.pow_succ, Nat.mod_mul, Nat.mod_mul, ih h.2, hd]

theorem pad_inj {w m n : Nat} (hm : m < 10 ^ w) (hn : n < 10 ^ w) (h : pad w m = pad w n) :
    m = n := by
  have := pad_mod_inj h
  rwa [Nat.mod_eq_of_lt hm, Nat.mod_eq_of_lt hn] at this

/-! ### Fractions -/

/-- The digits of a fraction without the zeros at its end. -/
def trimZeros (l : List Char) : List Char := l.rdropWhile (· == '0')

/-- What was cut off is a run of zeros. -/
theorem trimZeros_append (l : List Char) :
    trimZeros l ++ List.replicate (l.length - (trimZeros l).length) '0' = l := by
  induction l using List.reverseRecOn with
  | nil => rfl
  | append_singleton l c ih =>
      unfold trimZeros at ih ⊢
      rw [List.rdropWhile_concat]
      split_ifs with hc
      · have hle : (List.rdropWhile (· == '0') l).length ≤ l.length :=
          (List.rdropWhile_prefix _ l).length_le
        rw [List.length_append, List.length_singleton, Nat.sub_add_comm hle,
          List.replicate_succ', ← List.append_assoc, ih]
        simp only [beq_iff_eq] at hc
        rw [hc]
      · simp

theorem trimZeros_inj {l m : List Char} (hlen : l.length = m.length)
    (h : trimZeros l = trimZeros m) : l = m := by
  rw [← trimZeros_append l, ← trimZeros_append m, h, hlen]

/-- The fraction of a second, with its point. -/
def fraction (ns : Nat) : List Char := if ns = 0 then [] else '.' :: trimZeros (pad 9 ns)

theorem fraction_inj {m n : Nat} (hm : m < 10 ^ 9) (hn : n < 10 ^ 9)
    (h : fraction m = fraction n) : m = n := by
  unfold fraction at h
  split_ifs at h with h1 h2
  · rw [h1, h2]
  · exact pad_inj hm hn (trimZeros_inj (by simp) (List.cons.inj h).2)

/-! ### Instants -/

/-- The length of a month. -/
def daysIn (year month : Nat) : Nat :=
  if month = 2 then
    if year % 4 = 0 ∧ (year % 100 ≠ 0 ∨ year % 400 = 0) then 29 else 28
  else if month = 4 ∨ month = 6 ∨ month = 9 ∨ month = 11 then 30
  else 31

/-- A date and time of day in UTC. -/
structure Time where
  year : Nat
  month : Nat
  day : Nat
  hour : Nat
  minute : Nat
  second : Nat
  nanosecond : Nat
  date : year ≤ 9999 ∧ 1 ≤ month ∧ month ≤ 12 ∧ 1 ≤ day ∧ day ≤ daysIn year month
  clock : hour < 24 ∧ minute < 60 ∧ second < 60 ∧ nanosecond < 10 ^ 9
  deriving DecidableEq

namespace Time

/-- The zero `time.Time`. -/
def zero : Time := ⟨1, 1, 1, 0, 0, 0, 0, by decide, by decide⟩

/-- `Time.IsZero`: the time that stands for none. -/
def isZero (t : Time) : Bool := t == zero

/-- `Time.Format(time.RFC3339Nano)`: a time as it is stored. -/
def format (t : Time) : List Char :=
  pad 4 t.year ++ '-' :: (pad 2 t.month ++ '-' :: (pad 2 t.day ++ 'T' :: (pad 2 t.hour ++
    ':' :: (pad 2 t.minute ++ ':' :: (pad 2 t.second ++ (fraction t.nanosecond ++ ['Z']))))))

theorem day_le (t : Time) : t.day ≤ 31 := by
  have h := t.date.2.2.2.2
  unfold daysIn at h
  split_ifs at h <;> omega

theorem pad_field {w m n : Nat} {c : Char} {l r : List Char} (hm : m < 10 ^ w)
    (hn : n < 10 ^ w) (h : pad w m ++ c :: l = pad w n ++ c :: r) : m = n ∧ l = r := by
  obtain ⟨h1, h2⟩ := List.append_inj h (by simp)
  exact ⟨pad_inj hm hn h1, (List.cons.inj h2).2⟩

/-- **A formatted time determines the instant.** -/
theorem format_inj {t u : Time} (h : t.format = u.format) : t = u := by
  obtain ⟨hty, -, htm, -, -⟩ := t.date
  obtain ⟨huy, -, hum, -, -⟩ := u.date
  obtain ⟨hth, hti, hts, htn⟩ := t.clock
  obtain ⟨huh, hui, hus, hun⟩ := u.clock
  have htd := t.day_le
  have hud := u.day_le
  unfold format at h
  obtain ⟨hyear, h⟩ := pad_field (by omega) (by omega) h
  obtain ⟨hmonth, h⟩ := pad_field (by omega) (by omega) h
  obtain ⟨hday, h⟩ := pad_field (by omega) (by omega) h
  obtain ⟨hhour, h⟩ := pad_field (by omega) (by omega) h
  obtain ⟨hminute, h⟩ := pad_field (by omega) (by omega) h
  obtain ⟨hsecond, h⟩ := List.append_inj h (by simp)
  have hsecond := pad_inj (by omega) (by omega) hsecond
  have hns := fraction_inj htn hun (List.append_cancel_right h)
  cases t
  cases u
  simp_all

end Time

end Phragma.Go
