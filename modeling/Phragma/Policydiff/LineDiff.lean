import Mathlib.Data.List.Infix
import Phragma.Lib.Subsequence

/-!
# Phragma.Policydiff.LineDiff

The **policy diff**: `lineDiff` of `internal/policydiff/diff.go` on the lines of two policy
snapshots.

The table `dp` is filled from its last row to its first, each row from its right end, as the two
loops of the source do; `dp[i][j]` is the length of a longest common subsequence of what is left
of the two texts at line `i` and line `j` (`cell_table`). The walk then reads the two texts from
the top and looks at the table where two lines differ.

The output is an edit script (`lineDiff_script`), and its context lines are as many as any edit
script can have (`lineDiff_correct`).
-/

namespace Phragma.Policydiff

open Phragma.Lib

/-! ### Diff lines -/

/-- `PolicyDiffLineType`, without the unspecified value that no diff line has. -/
inductive PolicyDiffLineType
  | context
  | add
  | delete
  deriving DecidableEq, Repr

/-- `PolicyDiffLine`: a line of a diff: kept, removed or added. -/
structure PolicyDiffLine where
  type : PolicyDiffLineType
  text : String
  deriving DecidableEq, Repr

/-- `diffLine`: a line with its type. -/
def diffLine (t : PolicyDiffLineType) (text : String) : PolicyDiffLine := ⟨t, text⟩

/-- The texts of the lines of the given types, in order. -/
def textsOf (types : List PolicyDiffLineType) (lines : List PolicyDiffLine) : List String :=
  (lines.filter fun l => l.type ∈ types).map PolicyDiffLine.text

@[simp] theorem textsOf_nil (types : List PolicyDiffLineType) : textsOf types [] = [] := rfl

theorem textsOf_cons (types : List PolicyDiffLineType) (t : PolicyDiffLineType) (text : String)
    (lines : List PolicyDiffLine) : textsOf types (diffLine t text :: lines) =
      if t ∈ types then text :: textsOf types lines else textsOf types lines := by
  unfold textsOf diffLine
  rw [List.filter_cons]
  split <;> simp_all

/-- Only context lines belong to both texts. -/
theorem common_of_texts (lines : List PolicyDiffLine) :
    Common (textsOf [.context, .delete] lines) (textsOf [.context, .add] lines)
      (textsOf [.context] lines) := by
  induction lines with
  | nil => exact ⟨List.Sublist.refl _, List.Sublist.refl _⟩
  | cons l lines ih =>
      obtain ⟨t, text⟩ := l
      obtain ⟨hold, hnew⟩ := ih
      rw [show (⟨t, text⟩ : PolicyDiffLine) = diffLine t text from rfl]
      cases t with
      | context => exact ⟨by simpa [textsOf_cons] using hold, by simpa [textsOf_cons] using hnew⟩
      | add => exact ⟨by simpa [textsOf_cons] using hold, by simpa [textsOf_cons] using hnew.cons _⟩
      | delete =>
          exact ⟨by simpa [textsOf_cons] using hold.cons _, by simpa [textsOf_cons] using hnew⟩

/-! ### The table

The longest common subsequences of all pairs of suffixes, row by row from the end. -/

/-- One row of the table from column `j` on, filled from its right end: `b` is the new text from
line `j` on and `below` the row under it from column `j` on. -/
def fillRow (x : String) : List String → List Nat → List Nat
  | [], _ => [0]
  | y :: b, below =>
      let row := fillRow x b below.tail
      let down := below.headD 0
      let right := row.headD 0
      (if x = y then below.tail.headD 0 + 1 else if right ≤ down then down else right) :: row

/-- The rows of the table from row `i` on, filled from the last one: `a` is the old text from
line `i` on. -/
def table : List String → List String → List (List Nat)
  | [], b => [List.replicate (b.length + 1) 0]
  | x :: a, b =>
      let rows := table a b
      fillRow x b (rows.headD []) :: rows

/-- `dp[i][j]`: a cell of the table. -/
def cell (dp : List (List Nat)) (i j : Nat) : Nat := (dp.getD i []).getD j 0

/-! ### The walk

From the start of both texts: equal lines are kept, and otherwise the line goes whose suffix has the
longer common subsequence. -/

/-- The three loops after the table: both texts, and then what is left of each. `a` and `b` are
the texts from line `i` and line `j` on. -/
def walk (dp : List (List Nat)) : Nat → Nat → List String → List String → List PolicyDiffLine
  | i, j, x :: a, y :: b =>
      if x = y then diffLine .context x :: walk dp (i + 1) (j + 1) a b
      else if cell dp i (j + 1) ≤ cell dp (i + 1) j then
        diffLine .delete x :: walk dp (i + 1) j a (y :: b)
      else diffLine .add y :: walk dp i (j + 1) (x :: a) b
  | _, _, a, b => a.map (diffLine .delete) ++ b.map (diffLine .add)
  termination_by _ _ a b => a.length + b.length

/-- `lineDiff`: the diff of two texts in lines. -/
def lineDiff (a b : List String) : List PolicyDiffLine := walk (table a b) 0 0 a b

/-! ### What the table holds

A cell is the length of a longest common subsequence of the two suffixes. The recursion of the table
is that of the lengths. -/

/-- The row of a text over all ends of the other one. -/
def lcsRow (a : List String) : List String → List Nat
  | [] => [0]
  | y :: b => lcs a (y :: b) :: lcsRow a b

theorem lcsRow_headD (a b : List String) : (lcsRow a b).headD 0 = lcs a b := by
  cases b <;> simp [lcsRow]

theorem lcsRow_getD (a b : List String) (j : Nat) : (lcsRow a b).getD j 0 = lcs a (b.drop j) := by
  induction b generalizing j with
  | nil => cases j <;> simp [lcsRow]
  | cons y b ih =>
      cases j with
      | zero => simp [lcsRow]
      | succ j => simpa [lcsRow] using ih j

/-- A row over the row of the rest of the text is the row of the text: **the recurrence of the
table is the recurrence of `lcs`**. -/
theorem fillRow_lcsRow (x : String) (a b : List String) :
    fillRow x b (lcsRow a b) = lcsRow (x :: a) b := by
  induction b with
  | nil => simp [fillRow, lcsRow]
  | cons y b ih =>
      have htail : (lcsRow a (y :: b)).tail = lcsRow a b := rfl
      have hhead : (lcsRow a (y :: b)).headD 0 = lcs a (y :: b) := rfl
      simp only [fillRow, htail, hhead, ih, lcsRow_headD]
      rw [show lcsRow (x :: a) (y :: b) = lcs (x :: a) (y :: b) :: lcsRow (x :: a) b from rfl]
      congr 1
      by_cases hxy : x = y
      · subst hxy
        rw [if_pos rfl, lcs_cons_same]
      · rw [if_neg hxy, lcs_cons_of_ne hxy]
        split
        · next hle => exact (max_eq_left hle).symm
        · next hlt => exact (max_eq_right (by omega)).symm

/-- The table is made of the rows of the ends of the old text. -/
theorem table_eq (a b : List String) : table a b = a.tails.map fun a' => lcsRow a' b := by
  induction a with
  | nil =>
      have hzero : ∀ b : List String, lcsRow [] b = List.replicate (b.length + 1) 0 := by
        intro b
        induction b with
        | nil => rfl
        | cons y b ih => simp [lcsRow, ih, List.replicate_succ]
      simp [table, hzero]
  | cons x a ih =>
      have hhead : (table a b).headD [] = lcsRow a b := by
        rw [ih]
        cases a <;> rfl
      rw [table]
      simp only [hhead, fillRow_lcsRow]
      rw [ih, List.tails, List.map_cons]

/-- **`dp[i][j]` is the length of a longest common subsequence** of the texts from line `i` and
from line `j` on. -/
theorem cell_table {a b : List String} {i : Nat} (hi : i ≤ a.length) (j : Nat) :
    cell (table a b) i j = lcs (a.drop i) (b.drop j) := by
  have hrow : (table a b).getD i [] = lcsRow (a.drop i) b := by
    rw [table_eq, List.getD_eq_getElem?_getD, List.getElem?_map,
      List.getElem?_eq_getElem (by simpa using Nat.lt_succ_of_le hi), List.getElem_tails]
    rfl
  rw [cell, hrow, lcsRow_getD]

/-! ### The edit script

What is kept and removed is the old text, what is kept and added the new one, and no script with
fewer changes does the same. -/

/-- Deletions of all of `a` followed by additions of all of `b`. -/
theorem textsOf_drained (types : List PolicyDiffLineType) (a b : List String) :
    textsOf types (a.map (diffLine .delete) ++ b.map (diffLine .add)) =
      (if .delete ∈ types then a else []) ++ (if .add ∈ types then b else []) := by
  have hmap : ∀ (t : PolicyDiffLineType) (l : List String),
      textsOf types (l.map (diffLine t)) = if t ∈ types then l else [] := by
    intro t l
    induction l with
    | nil => simp
    | cons x l ih =>
        rw [List.map_cons, textsOf_cons, ih]
        split <;> rfl
  rw [← hmap, ← hmap]
  simp [textsOf]

theorem nil_of_not_cons {a b : List String}
    (h : ∀ x a' y b', a = x :: a' → b = y :: b' → False) : a = [] ∨ b = [] := by
  cases a with
  | nil => exact .inl rfl
  | cons x a =>
      cases b with
      | nil => exact .inr rfl
      | cons y b => exact (h x a y b rfl rfl).elim

theorem walk_drained (dp : List (List Nat)) (i j : Nat) {a b : List String} (h : a = [] ∨ b = []) :
    walk dp i j a b = a.map (diffLine .delete) ++ b.map (diffLine .add) := by
  rcases h with rfl | rfl
  · rw [walk]
    simp
  · cases a with
    | nil => simp [walk]
    | cons x a =>
        rw [walk]
        simp

/-- Equal texts are kept line by line. -/
theorem walk_same (dp : List (List Nat)) (i j : Nat) (a : List String) :
    walk dp i j a a = a.map (diffLine .context) := by
  induction a generalizing i j with
  | nil => simp [walk]
  | cons x a ih => rw [walk, if_pos rfl, ih, List.map_cons]

/-- Whatever the table holds, **the walk writes an edit script**: what it keeps and deletes is the
old text, what it keeps and adds the new one. -/
theorem walk_script (dp : List (List Nat)) (i j : Nat) (a b : List String) :
    textsOf [.context, .delete] (walk dp i j a b) = a ∧
      textsOf [.context, .add] (walk dp i j a b) = b := by
  induction i, j, a, b using walk.induct dp with
  | case1 i j a y b ih =>
      rw [walk, if_pos rfl, textsOf_cons, textsOf_cons]
      simp [ih]
  | case2 i j x a y b hne hle ih =>
      rw [walk, if_neg hne, if_pos hle, textsOf_cons, textsOf_cons]
      simp [ih]
  | case3 i j x a y b hne hlt ih =>
      rw [walk, if_neg hne, if_neg hlt, textsOf_cons, textsOf_cons]
      simp [ih]
  | case4 i j a b hnot =>
      rw [walk_drained dp i j (nil_of_not_cons hnot), textsOf_drained, textsOf_drained]
      simp

theorem drop_succ {l : List String} {i : Nat} {x : String} {xs : List String}
    (h : l.drop i = x :: xs) : i < l.length ∧ l.drop (i + 1) = xs := by
  constructor
  · by_contra hge
    rw [List.drop_eq_nil_of_le (by omega)] at h
    cases h
  · rw [← List.tail_drop, h, List.tail_cons]

/-- With the table of both texts, **the walk keeps as many lines as the table promises**: where two
lines differ it goes to the larger neighbour. -/
theorem walk_context {a b : List String} (i j : Nat) (xs ys : List String) (ha : a.drop i = xs)
    (hb : b.drop j = ys) :
    (textsOf [.context] (walk (table a b) i j xs ys)).length = lcs xs ys := by
  induction i, j, xs, ys using walk.induct (table a b) with
  | case1 i j xs y ys ih =>
      rw [walk, if_pos rfl, textsOf_cons, if_pos (by decide), List.length_cons, lcs_cons_same,
        ih (drop_succ ha).2 (drop_succ hb).2]
  | case2 i j x xs y ys hne hle ih =>
      obtain ⟨hi, hxs⟩ := drop_succ ha
      obtain ⟨-, hys⟩ := drop_succ hb
      have hlcs := lcs_cons_of_ne hne xs ys
      rw [cell_table (by omega), cell_table (by omega), hxs, hys, ha, hb] at hle
      rw [walk, if_neg hne, if_pos (by rwa [cell_table, cell_table, hxs, hys, ha, hb] <;> omega),
        textsOf_cons, if_neg (by decide), ih hxs hb, hlcs, max_eq_left hle]
  | case3 i j x xs y ys hne hlt ih =>
      obtain ⟨hi, hxs⟩ := drop_succ ha
      obtain ⟨-, hys⟩ := drop_succ hb
      have hlcs := lcs_cons_of_ne hne xs ys
      have hle := hlt
      rw [cell_table (by omega), cell_table (by omega), hxs, hys, ha, hb] at hle
      rw [walk, if_neg hne, if_neg hlt, textsOf_cons, if_neg (by decide), ih ha hys, hlcs,
        max_eq_right (by omega)]
  | case4 i j xs ys hnot =>
      have hnil := nil_of_not_cons hnot
      rw [walk_drained _ i j hnil, textsOf_drained]
      rcases hnil with rfl | rfl <;> simp

/-- **The policy diff is a correct and minimal edit script.** The context and the deleted lines are
the old text, the context and the added lines the new one, and no common subsequence of the two
texts is longer than the context lines. -/
theorem lineDiff_correct (a b : List String) :
    textsOf [.context, .delete] (lineDiff a b) = a ∧ textsOf [.context, .add] (lineDiff a b) = b ∧
      IsGreatest (commonLengths a b) (textsOf [.context] (lineDiff a b)).length ∧
      (a = b → ∀ l ∈ lineDiff a b, l.type = .context) := by
  obtain ⟨hold, hnew⟩ := walk_script (table a b) 0 0 a b
  have hlen := walk_context (a := a) (b := b) 0 0 a b rfl rfl
  have hcommon := common_of_texts (lineDiff a b)
  rw [lineDiff, hold, hnew] at hcommon
  refine ⟨hold, hnew, isGreatest_lcs hcommon hlen, ?_⟩
  rintro rfl l hl
  rw [lineDiff, walk_same] at hl
  obtain ⟨x, -, rfl⟩ := List.mem_map.mp hl
  rfl

end Phragma.Policydiff
