import Mathlib.Order.Bounds.Basic
import Mathlib.Order.MinMax
import Mathlib.Data.List.Basic

/-!
# Phragma.Lib.Subsequence

**Longest common subsequences** of two lists, by the recurrence that compares the two heads:
equal heads belong to a longest common subsequence, and of two different heads one can be left
out.

The recurrence is `lcs`; that it computes a maximum over all common subsequences is
`isGreatest_lcs`.
-/

namespace Phragma.Lib

variable {α : Type*}

/-- A subsequence of both lists. -/
def Common (a b c : List α) : Prop := c.Sublist a ∧ c.Sublist b

/-- The lengths of the common subsequences. -/
def commonLengths (a b : List α) : Set Nat := {n | ∃ c, Common a b c ∧ c.length = n}

variable [DecidableEq α]

/-- The length of a longest common subsequence, by the recurrence on the heads. -/
def lcs : List α → List α → Nat
  | [], _ => 0
  | _, [] => 0
  | x :: a, y :: b => if x = y then lcs a b + 1 else max (lcs a (y :: b)) (lcs (x :: a) b)
  termination_by a b => a.length + b.length

@[simp] theorem lcs_nil_left (b : List α) : lcs [] b = 0 := by
  rw [lcs]

@[simp] theorem lcs_nil_right (a : List α) : lcs a [] = 0 := by
  cases a <;> rw [lcs]
  simp

theorem lcs_cons_same (x : α) (a b : List α) : lcs (x :: a) (x :: b) = lcs a b + 1 := by
  rw [lcs, if_pos rfl]

theorem lcs_cons_of_ne {x y : α} (h : x ≠ y) (a b : List α) :
    lcs (x :: a) (y :: b) = max (lcs a (y :: b)) (lcs (x :: a) b) := by
  rw [lcs, if_neg h]

/-- No common subsequence is longer. -/
theorem length_le_lcs {a b c : List α} (h : Common a b c) : c.length ≤ lcs a b := by
  induction a, b using lcs.induct generalizing c with
  | case1 b => simp [List.sublist_nil.mp h.1]
  | case2 a _ => simp [List.sublist_nil.mp h.2]
  | case3 x a b ih =>
      rw [lcs_cons_same]
      cases c with
      | nil => simp
      | cons z c =>
          -- without its head it is common to the tails, whatever its head is matched with
          have htail := ih ⟨h.1.tail, h.2.tail⟩
          simpa using htail
  | case4 x a y b hne ihx ihy =>
      rw [lcs_cons_of_ne hne]
      obtain ⟨ha, hb⟩ := h
      cases ha with
      | cons _ ha => exact le_max_of_le_left (ihx ⟨ha, hb⟩)
      | cons_cons _ ha =>
          cases hb with
          | cons _ hb => exact le_max_of_le_right (ihy ⟨ha.cons_cons x, hb⟩)
          | cons_cons _ hb => exact absurd rfl hne

/-- The recurrence computes **the length of a longest common subsequence** as soon as it is the
length of one. -/
theorem isGreatest_lcs {a b c : List α} (h : Common a b c) (hlen : c.length = lcs a b) :
    IsGreatest (commonLengths a b) c.length := by
  refine ⟨⟨c, h, rfl⟩, ?_⟩
  rintro n ⟨d, hd, rfl⟩
  exact hlen ▸ length_le_lcs hd

end Phragma.Lib
