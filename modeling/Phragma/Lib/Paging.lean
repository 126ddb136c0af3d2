import Mathlib.Data.List.Induction
import Mathlib.Tactic.Common

/-!
# Phragma.Lib.Paging

**Lists read in pages.** A scan counts the records that match, leaves out as many as the cursor
says and keeps at most `limit` (`cutPage`). A client follows the cursor of each page until there
is no more (`follow`).

When every call gives the page at its cursor, and a cursor for the record after it, the pages that
are followed from the start are all matching records in their order, each once
(`follow_of_pagesOf`).
-/

namespace Phragma.Lib.Paging

/-! ### One page -/

/-- One record of the scan, on the records kept and the number of matches. -/
def cutStep {α : Type} (isMatch : α → Bool) (offset limit : Nat) (s : List α × Nat) (r : α) :
    List α × Nat :=
  if !isMatch r then s
  else if s.2 + 1 ≤ offset then (s.1, s.2 + 1)
  else if s.1.length = limit then (s.1, s.2 + 1)
  else (s.1 ++ [r], s.2 + 1)

/-- The records kept of a scan, and the number of matches. -/
def cutPage {α : Type} (isMatch : α → Bool) (offset limit : Nat) (records : List α) :
    List α × Nat :=
  records.foldl (cutStep isMatch offset limit) ([], 0)

section Cut

variable {α : Type} {isMatch : α → Bool} {offset limit : Nat}

/-- What is kept of `n` matches. -/
def kept (offset limit : Nat) (l : List α) : List α := (l.drop offset).take limit

/-- One more match is kept when it lies on the page. -/
theorem kept_concat (l : List α) (r : α) : kept offset limit (l ++ [r]) =
    if l.length + 1 ≤ offset then kept offset limit l
    else if (kept offset limit l).length = limit then kept offset limit l
    else kept offset limit l ++ [r] := by
  unfold kept
  split
  · next hbefore =>
      rw [List.drop_eq_nil_of_le (by simpa using hbefore), List.drop_eq_nil_of_le (by omega)]
  · next hbefore =>
      rw [List.drop_append_of_le_length (by omega)]
      have hlen : ((l.drop offset).take limit).length = min limit (l.length - offset) := by simp
      rw [hlen]
      split
      · next hfull =>
          rw [List.take_append_of_le_length (by rw [List.length_drop]; omega)]
      · next hroom =>
          have hall : (l.drop offset).length < limit := by rw [List.length_drop]; omega
          rw [List.take_of_length_le (by simp; omega), List.take_of_length_le (by omega)]

/-- **The scan cuts the page** out of the matching records, and counts them. -/
theorem cutPage_eq (records : List α) : cutPage isMatch offset limit records =
    (kept offset limit (records.filter isMatch), (records.filter isMatch).length) := by
  induction records using List.reverseRecOn with
  | nil => simp [cutPage, kept]
  | append_singleton records r ih =>
      unfold cutPage at ih ⊢
      rw [List.foldl_append, ih, List.foldl_cons, List.foldl_nil, cutStep, List.filter_append]
      cases hr : isMatch r with
      | false => simp [hr]
      | true =>
          have hsingle : [r].filter isMatch = [r] := by simp [hr]
          rw [hsingle, kept_concat, List.length_append, List.length_singleton]
          simp only [Bool.not_true, Bool.false_eq_true, if_false]
          split_ifs <;> rfl

end Cut

/-! ### Following the cursor -/

/-- A page of records, with the cursor of the next one. -/
structure Page (α γ : Type) where
  records : List α
  nextCursor : γ
  hasMore : Bool

/-- Follow the cursor from page to page and collect the records, with so many calls at most. -/
def follow {α γ ε : Type} (call : γ → Except ε (Page α γ)) : Nat → γ → Option (Except ε (List α))
  | 0, _ => none
  | calls + 1, cursor =>
      match call cursor with
      | .error err => some (.error err)
      | .ok page =>
          if page.hasMore then
            (follow call calls page.nextCursor).map fun rest => rest.map (page.records ++ ·)
          else some (.ok page.records)

/-- The calls give the pages of `all`, where a cursor stands for an offset. -/
structure PagesOf {α γ ε : Type} (all : List α) (limit : Nat) (stands : γ → Nat → Prop)
    (call : γ → Except ε (Page α γ)) : Prop where
  positive : 0 < limit
  /-- The page at an offset, with a cursor for the end of the page where there is more. -/
  page : ∀ cursor offset, stands cursor offset → offset ≤ all.length →
    ∃ page, call cursor = .ok page ∧ page.records = kept offset limit all ∧
      (page.hasMore = true ↔ offset + page.records.length < all.length) ∧
      (page.hasMore = true → stands page.nextCursor (offset + page.records.length))

/-- **All records, each once**: from an offset the followed pages are what is left, and so many
calls are enough. -/
theorem follow_of_pagesOf {α γ ε : Type} {all : List α} {limit : Nat} {stands : γ → Nat → Prop}
    {call : γ → Except ε (Page α γ)} (h : PagesOf all limit stands call) {cursor : γ} {offset : Nat}
    (hcursor : stands cursor offset) (hoffset : offset ≤ all.length) {calls : Nat}
    (hcalls : all.length - offset < calls) :
    follow call calls cursor = some (.ok (all.drop offset)) := by
  induction calls generalizing cursor offset with
  | zero => omega
  | succ calls ih =>
      obtain ⟨page, hcall, hrecords, hmore, hnext⟩ := h.page cursor offset hcursor hoffset
      rw [follow, hcall]
      dsimp only
      have hlen : page.records.length = min limit (all.length - offset) := by
        rw [hrecords, kept, List.length_take, List.length_drop]
      have hsplit : all.drop offset =
          page.records ++ all.drop (offset + page.records.length) := by
        have hmin : (all.drop offset).take (min limit (all.length - offset)) = page.records := by
          rw [hrecords, kept, List.take_eq_take_iff, List.length_drop]
          omega
        rw [hlen, ← List.drop_drop, ← hmin, List.take_append_drop]
      cases hm : page.hasMore with
      | true =>
          have hlt := hmore.mp hm
          -- the page is not empty, so fewer records are left
          have hpos := h.positive
          rw [if_pos rfl, ih (hnext hm) (by omega) (by omega), hsplit]
          rfl
      | false =>
          have hend : ¬ offset + page.records.length < all.length := fun hlt => by
            rw [hmore.mpr hlt] at hm
            cases hm
          rw [if_neg Bool.false_ne_true, hsplit, List.drop_eq_nil_of_le (by omega), List.append_nil]

end Phragma.Lib.Paging
