import Mathlib.Data.List.Basic
import Mathlib.Tactic.Common

/-!
# Phragma.Lib.DotSegments

**Removing dot segments.** The elements of a path are names and steps up. Going through them, a
name is put on a stack and a step up takes the last name off it; at the root there is nothing to
take off.

The first name of the path that is left is the bottom of the stack. It is a name that everything
before it cancels out and that no step up after it reaches (`getLast?_foldl_climb`); the names above
it are those that are left of the elements after it (`foldl_climb_of_opens`).
-/

namespace Phragma.Lib

variable {α : Type}

/-- One element, `none` being a step up, on the stack of the names so far. -/
def climb (done : List α) : Option α → List α
  | some a => a :: done
  | none => done.tail

/-- No part of the path from its start has more than `d` steps up more than names. -/
def StaysAbove : Nat → List (Option α) → Prop
  | _, [] => True
  | d, some _ :: l => StaysAbove (d + 1) l
  | d, none :: l => 0 < d ∧ StaysAbove (d - 1) l

instance decidableStaysAbove : ∀ (d : Nat) (l : List (Option α)), Decidable (StaysAbove d l)
  | _, [] => .isTrue trivial
  | d, some _ :: l => decidableStaysAbove (d + 1) l
  | d, none :: l =>
      have := decidableStaysAbove (d - 1) l
      inferInstanceAs (Decidable (0 < d ∧ StaysAbove (d - 1) l))

/-- The path is some elements that cancel out, the name, and the elements `after`, which never step
above it. -/
def Opens (a : α) (after l : List (Option α)) : Prop :=
  ∃ before, l = before ++ some a :: after ∧ before.foldl climb [] = [] ∧ StaysAbove 0 after

/-- The path opens with the name. -/
def StartsAt (a : α) (l : List (Option α)) : Prop := ∃ after, Opens a after l

/-- **The bottom of the stack** is what was there, if the path stays above it, or the name the path
starts at. -/
theorem getLast?_foldl_climb (s : List α) (l : List (Option α)) (x : α) :
    (l.foldl climb s).getLast? = some x ↔
      (s.getLast? = some x ∧ StaysAbove (s.length - 1) l) ∨
        ∃ before after, l = before ++ some x :: after ∧ before.foldl climb s = [] ∧
          StaysAbove 0 after := by
  induction l generalizing s with
  | nil => simp [StaysAbove]
  | cons e l ih =>
      -- the element is the name itself, or belongs to what is before it
      have hsplit : (∃ before after, e :: l = before ++ some x :: after ∧
            before.foldl climb s = [] ∧ StaysAbove 0 after) ↔
          (e = some x ∧ s = [] ∧ StaysAbove 0 l) ∨
            ∃ before after, l = before ++ some x :: after ∧ before.foldl climb (climb s e) = [] ∧
              StaysAbove 0 after := by
        constructor
        · rintro ⟨before, after, heq, hcancel, hafter⟩
          cases before with
          | nil =>
              obtain ⟨rfl, rfl⟩ := List.cons.inj heq
              exact .inl ⟨rfl, hcancel, hafter⟩
          | cons f before =>
              obtain ⟨rfl, rfl⟩ := List.cons.inj heq
              exact .inr ⟨before, after, rfl, hcancel, hafter⟩
        · rintro (⟨rfl, rfl, hafter⟩ | ⟨before, after, rfl, hcancel, hafter⟩)
          · exact ⟨[], l, rfl, rfl, hafter⟩
          · exact ⟨e :: before, after, rfl, hcancel, hafter⟩
      rw [List.foldl_cons, ih, hsplit, ← or_assoc]
      refine or_congr_left ?_
      cases e with
      | some a =>
          cases s with
          | nil => simp [climb, StaysAbove]
          | cons b s => simp [climb, StaysAbove]
      | none =>
          cases s with
          | nil => simp [climb]
          | cons b s =>
              cases s with
              | nil => simp [climb, StaysAbove]
              | cons c s => simp [climb, StaysAbove]

/-- **The first name that is left** is the name the path starts at. -/
theorem getLast?_climb_iff (l : List (Option α)) (x : α) :
    (l.foldl climb []).getLast? = some x ↔ StartsAt x l := by
  rw [getLast?_foldl_climb, StartsAt, exists_comm]
  simp [Opens]

/-- What lies under the stack stays there, if the path stays above it. -/
theorem foldl_climb_append {s : List α} {l : List (Option α)} (h : StaysAbove s.length l)
    (base : List α) : l.foldl climb (s ++ base) = l.foldl climb s ++ base := by
  induction l generalizing s with
  | nil => rfl
  | cons e l ih =>
      cases e with
      | some a => exact ih (s := a :: s) h
      | none =>
          obtain ⟨hpos, h⟩ := h
          cases s with
          | nil => exact absurd hpos (Nat.lt_irrefl 0)
          | cons b s => exact ih h

/-- **The names that are left** are the one the path opens with, and those of what is after it. -/
theorem foldl_climb_of_opens {a : α} {after l : List (Option α)} (h : Opens a after l) :
    l.foldl climb [] = after.foldl climb [] ++ [a] := by
  obtain ⟨before, rfl, hcancel, hafter⟩ := h
  rw [List.foldl_append, hcancel, List.foldl_cons]
  exact foldl_climb_append (s := []) hafter [a]

theorem foldl_climb_map {β : Type} (f : α → β) (l : List (Option α)) (s : List α) :
    (l.map (Option.map f)).foldl climb (s.map f) = (l.foldl climb s).map f := by
  induction l generalizing s with
  | nil => rfl
  | cons e l ih =>
      cases e with
      | some a => exact ih (a :: s)
      | none =>
          rw [List.map_cons, List.foldl_cons, List.foldl_cons, ← ih]
          cases s <;> rfl

end Phragma.Lib
