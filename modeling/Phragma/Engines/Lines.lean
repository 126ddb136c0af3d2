import Phragma.Go.Lines
import Phragma.Renderers.Plain

/-!
# Phragma.Engines.Lines

How the engines read their artifacts: `lines` (`internal/engines/routes.go`) cuts a text at
its line ends, trims every line and drops the blank ones.

What a renderer wrote line by line is read line by line (`lines_unlines`), and whatever is
read is trimmed and holds no line end (`mem_lines`), whoever wrote it.
-/

namespace Phragma.Engines

open Go Renderers

/-- One part between line ends: the trimmed line, unless it is blank. -/
def lineOf (part : List Char) : List String :=
  let line := trimSpace (String.ofList part)
  if line = "" then [] else [line]

/-- `lines`: the lines that the engines look at, trimmed, without blank ones. -/
def lines (data : String) : List String := (splitOn '\n' data.toList).flatMap lineOf

theorem lines_append (a b : String) : lines (a ++ "\n" ++ b) = lines a ++ lines b := by
  have htoList : "\n".toList = ['\n'] := rfl
  unfold lines
  rw [String.toList_append, String.toList_append, htoList, List.append_assoc, List.singleton_append,
    splitOn_append, List.flatMap_append]

theorem lines_empty : lines "" = [] := by decide

/-- **Lines are read one by one.** -/
theorem lines_unlines : ∀ ls : List String, lines (unlines ls) = ls.flatMap lines := by
  intro ls
  induction ls with
  | nil => exact lines_empty
  | cons l ls ih =>
      have hcons : unlines (l :: ls) = l ++ "\n" ++ unlines ls := by
        rw [← String.toList_inj]
        simp [unlines, String.toList_join]
      rw [hcons, lines_append, ih, List.flatMap_cons]

/-- A text without line ends is one line. -/
theorem lines_of_notMem {s : String} (h : '\n' ∉ s.toList) (hblank : trimSpace s ≠ "") :
    lines s = [trimSpace s] := by
  unfold lines
  rw [splitOn_of_notMem h]
  simp [lineOf, hblank]

/-- What is read is a trimmed text without line ends. -/
theorem mem_lines {s l : String} (h : l ∈ lines s) :
    l ≠ "" ∧ trimSpace l = l ∧ '\n' ∉ l.toList := by
  obtain ⟨part, hpart, hl⟩ := List.mem_flatMap.mp h
  unfold lineOf at hl
  simp only at hl
  split at hl
  · cases hl
  · next hne =>
      obtain rfl := List.mem_singleton.mp hl
      refine ⟨hne, trimSpace_trimSpace _, ?_⟩
      intro hmem
      rw [trimSpace_toList, String.toList_ofList] at hmem
      exact notMem_of_mem_splitOn hpart (mem_of_mem_trimList hmem)

/-- A blank text has no lines. -/
theorem lines_of_blank {s : String} (h : trimSpace s = "") : lines s = [] := by
  have hspace : ∀ c ∈ s.toList, isSpace c = true := by
    refine trimList_eq_nil ?_
    rw [← trimSpace_toList, h]
    rfl
  unfold lines
  rw [List.flatMap_eq_nil_iff]
  intro part hpart
  unfold lineOf
  dsimp only
  rw [if_pos]
  rw [← String.toList_inj, trimSpace_toList, String.toList_ofList]
  rcases trimList_cases (p := isSpace) part with hnil | ⟨c, t, hc, -, hmem⟩
  · exact hnil
  · cases hc.symm.trans (hspace c (mem_of_mem_splitOn hpart hmem))

/-- A line of the renderer that is trimmed and holds no line end is read as it is. -/
theorem lines_eq_self {l : String} (hend : '\n' ∉ l.toList)
    (hhead : ∀ c, l.toList.head? = some c → isSpace c = false)
    (hlast : ∀ c, l.toList.getLast? = some c → isSpace c = false) (hne : l ≠ "") :
    lines l = [l] := by
  have htrim : trimSpace l = l := by
    rw [← String.toList_inj, trimSpace_toList]
    exact trimList_eq_self_of_ends hhead hlast
  rw [lines_of_notMem hend (by rw [htrim]; exact hne), htrim]

/-- Words on a line keep it one line. -/
theorem notMem_lineEnd {w : String} (h : IsWord w) : '\n' ∉ w.toList := by
  intro hmem
  have hspace := h.2 _ hmem
  cases hspace

/-- The last character of a text that ends in a word. -/
theorem getLast?_append_word {a w : String} (h : IsWord w) :
    ∀ c, (a ++ w).toList.getLast? = some c → isSpace c = false := by
  intro c hc
  have hne : w.toList ≠ [] := by simpa using h.1
  rw [String.toList_append, List.getLast?_append_of_ne_nil _ hne] at hc
  exact h.2 c (List.mem_of_getLast? hc)

/-- Words with spaces between them are one line. -/
theorem lines_join {ws : List String} (hne : ws ≠ []) (h : ∀ w ∈ ws, IsWord w) :
    lines (join ws " ") = [join ws " "] := by
  -- by induction on the words: no line ends within, and the ends are no blanks
  have hends : ∀ ws : List String, ws ≠ [] → (∀ w ∈ ws, IsWord w) →
      '\n' ∉ (join ws " ").toList ∧ join ws " " ≠ "" ∧
        (∀ c, (join ws " ").toList.head? = some c → isSpace c = false) ∧
        ∀ c, (join ws " ").toList.getLast? = some c → isSpace c = false := by
    intro ws
    induction ws with
    | nil =>
        intro hne
        exact (hne rfl).elim
    | cons w ws ih =>
        intro _ h
        have hw := h w List.mem_cons_self
        cases ws with
        | nil =>
            have hjoin : join [w] " " = w := rfl
            rw [hjoin]
            exact ⟨notMem_lineEnd hw, hw.1, fun c hc => hw.2 c (List.mem_of_head? hc),
              fun c hc => hw.2 c (List.mem_of_getLast? hc)⟩
        | cons v ws =>
            obtain ⟨hend, hempty, -, hlast⟩ :=
              ih (List.cons_ne_nil _ _) fun u hu => h u (List.mem_cons_of_mem _ hu)
            have hjoin : join (w :: v :: ws) " " = w ++ " " ++ join (v :: ws) " " := by
              unfold join
              rw [String.intercalate_cons_cons]
            have hlist : (join (w :: v :: ws) " ").toList =
                w.toList ++ ' ' :: (join (v :: ws) " ").toList := by
              rw [hjoin]
              simp
            obtain ⟨c, cs, hc⟩ := List.exists_cons_of_ne_nil (l := w.toList) (by simpa using hw.1)
            refine ⟨?_, ?_, ?_, ?_⟩
            · rw [hlist]
              simp [notMem_lineEnd hw, hend]
            · intro hnil
              rw [hnil] at hlist
              rw [hc] at hlist
              cases hlist
            · intro d hd
              rw [hlist, hc] at hd
              cases hd
              exact hw.2 c (by rw [hc]; exact List.mem_cons_self)
            · intro d hd
              have hne : (join (v :: ws) " ").toList ≠ [] := by simpa using hempty
              rw [hlist, List.append_cons, List.getLast?_append_of_ne_nil _ hne] at hd
              exact hlast d hd
  obtain ⟨hend, hempty, hhead, hlast⟩ := hends ws hne h
  exact lines_eq_self hend hhead hlast hempty

/-- The line every artifact starts with. -/
theorem lines_generatedBy : lines generatedBy = [generatedBy] := by decide

/-- A text that starts with a visible character has a line that does. -/
theorem exists_line_head {s : String} {c : Char} (hc : isSpace c = false)
    (hs : s.toList.head? = some c) : ∃ l ∈ lines s, l.toList.head? = some c := by
  obtain ⟨cs, hcs⟩ : ∃ cs, s.toList = c :: cs := by
    cases hl : s.toList with
    | nil => simp [hl] at hs
    | cons d ds =>
        rw [hl, List.head?_cons, Option.some.injEq] at hs
        exact ⟨ds, by rw [hs]⟩
  have hne : c ≠ '\n' := by
    rintro rfl
    cases hc
  obtain ⟨part, parts, hparts⟩ := List.exists_cons_of_ne_nil (splitOn_ne_nil '\n' cs)
  obtain ⟨t, ht, -⟩ := trimList_cons (l := part) hc
  have htrim : (trimSpace (String.ofList (c :: part))).toList = c :: t := by
    rw [trimSpace_toList, String.toList_ofList, ht]
  refine ⟨trimSpace (String.ofList (c :: part)), ?_, by rw [htrim]; rfl⟩
  refine List.mem_flatMap.mpr ⟨c :: part, ?_, ?_⟩
  · rw [hcs]
    simp [splitOn, hne, hparts]
  · have hnonempty : trimSpace (String.ofList (c :: part)) ≠ "" := by
      intro hnil
      rw [hnil] at htrim
      cases htrim
    simp only [lineOf, hnonempty, if_false, List.mem_singleton]

theorem head_append {a b : String} {c : Char} (h : a.toList.head? = some c) :
    (a ++ b).toList.head? = some c := by
  rw [String.toList_append, List.head?_append, h, Option.some_or]

end Phragma.Engines
