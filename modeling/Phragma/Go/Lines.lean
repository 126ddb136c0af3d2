import Mathlib.Data.List.TakeWhile
import Phragma.Go.Strings

/-!
# Phragma.Go.Lines

Text as **lines of words**: how `strings.Split` at line ends, `strings.TrimSpace` and
`strings.Fields` take apart what was written line by line and word by word.

A text is cut where its separators are, so the facts come in two halves: a text that holds
no separator is kept whole, and a separator between two texts splits the result in two.
-/

namespace Phragma.Go

/-- Lines with their line ends. -/
def unlines (ls : List String) : String := String.join (ls.map fun l => l ++ "\n")

theorem unlines_append (ls ms : List String) : unlines (ls ++ ms) = unlines ls ++ unlines ms := by
  rw [← String.toList_inj]
  simp [unlines, String.toList_join]

/-! ### Splitting -/

theorem splitOn_ne_nil (c : Char) (l : List Char) : splitOn c l ≠ [] := by
  cases l with
  | nil => simp [splitOn]
  | cons x xs =>
      simp only [splitOn]
      split
      · simp
      · split <;> simp

/-- A separator between two texts splits the parts in two. -/
theorem splitOn_append (c : Char) (a b : List Char) :
    splitOn c (a ++ c :: b) = splitOn c a ++ splitOn c b := by
  induction a with
  | nil => simp [splitOn]
  | cons x xs ih =>
      simp only [List.cons_append, splitOn]
      split
      · rw [ih, List.cons_append]
      · rw [ih]
        obtain ⟨part, parts, hparts⟩ := List.exists_cons_of_ne_nil (splitOn_ne_nil c xs)
        simp [hparts]

/-- Without a separator there is one part. -/
theorem splitOn_of_notMem {c : Char} {l : List Char} (h : c ∉ l) : splitOn c l = [l] := by
  induction l with
  | nil => rfl
  | cons x xs ih =>
      have hx : x ≠ c := fun hx => h (hx ▸ List.mem_cons_self)
      simp [splitOn, hx, ih fun hc => h (List.mem_cons_of_mem _ hc)]

/-- No part holds the separator. -/
theorem notMem_of_mem_splitOn {c : Char} : ∀ {l part : List Char}, part ∈ splitOn c l →
    c ∉ part := by
  intro l
  induction l with
  | nil => intro part hp; simp_all [splitOn]
  | cons x xs ih =>
      intro part hp
      obtain ⟨head, rest, hparts⟩ := List.exists_cons_of_ne_nil (splitOn_ne_nil c xs)
      rw [hparts] at ih
      by_cases hx : x = c
      · simp only [splitOn, hx, if_true, hparts, List.mem_cons] at hp
        rcases hp with rfl | hp
        · exact List.not_mem_nil
        · exact ih (List.mem_cons.mpr hp)
      · simp only [splitOn, hx, if_false, hparts, List.mem_cons] at hp
        rcases hp with rfl | hp
        · have hhead := ih List.mem_cons_self
          simp [hhead, Ne.symm hx]
        · exact ih (List.mem_cons_of_mem _ hp)

/-! ### Trimming

What is trimmed is at the ends, so a text with nothing to trim in front and behind is itself. -/

section Trim

variable {α : Type} {p : α → Bool}

theorem dropWhile_eq_self {l : List α} (h : ∀ c, l.head? = some c → p c = false) :
    l.dropWhile p = l := by
  cases l with
  | nil => rfl
  | cons c l => exact List.dropWhile_cons_of_neg (by simp [h c rfl])

/-- Nothing is trimmed where neither end satisfies `p`. -/
theorem trimList_eq_self_of_ends {l : List α} (hhead : ∀ c, l.head? = some c → p c = false)
    (hlast : ∀ c, l.getLast? = some c → p c = false) : trimList p l = l := by
  have hrev : l.reverse.dropWhile p = l.reverse :=
    dropWhile_eq_self fun c hc => hlast c (by rw [← List.head?_reverse]; exact hc)
  unfold trimList
  rw [dropWhile_eq_self hhead, hrev, List.reverse_reverse]

/-- A text that is not trimmed away starts with the first element that does not satisfy
`p`. -/
theorem trimList_cases (l : List α) :
    trimList p l = [] ∨ ∃ c t, p c = false ∧ trimList p l = c :: t ∧ c ∈ l := by
  have hdrop := List.head?_dropWhile_not p l
  cases hl : l.dropWhile p with
  | nil =>
      left
      simp [trimList, hl]
  | cons c rest =>
      right
      rw [hl] at hdrop
      obtain ⟨t, ht, -⟩ := trimList_cons (l := rest) hdrop
      refine ⟨c, t, hdrop, ?_, ?_⟩
      · rw [← ht]
        unfold trimList
        rw [hl, dropWhile_eq_self (l := c :: rest) (fun d hd => by cases hd; exact hdrop)]
      · exact (List.dropWhile_sublist p).mem (hl ▸ List.mem_cons_self)

theorem mem_dropWhile_of_not {l : List α} {c : α} (h : c ∈ l) (hc : p c = false) :
    c ∈ l.dropWhile p := by
  rw [← List.takeWhile_append_dropWhile (p := p) (l := l), List.mem_append] at h
  refine h.resolve_left fun htake => ?_
  rw [List.mem_takeWhile_imp htake] at hc
  cases hc

/-- What does not satisfy `p` stays. -/
theorem mem_trimList {l : List α} {c : α} (h : c ∈ l) (hc : p c = false) : c ∈ trimList p l :=
  List.mem_reverse.mpr
    (mem_dropWhile_of_not (List.mem_reverse.mpr (mem_dropWhile_of_not h hc)) hc)

/-- Only what satisfies `p` is trimmed away. -/
theorem trimList_eq_nil {l : List α} (h : trimList p l = []) : ∀ c ∈ l, p c = true := by
  have hdrop := List.head?_dropWhile_not p l
  cases hl : l.dropWhile p with
  | nil => exact List.dropWhile_eq_nil_iff.mp hl
  | cons c rest =>
      rw [hl] at hdrop
      have hc : p c = false := hdrop
      obtain ⟨t, ht, -⟩ := trimList_cons (l := rest) hc
      unfold trimList at h ht
      rw [hl] at h
      rw [List.dropWhile_cons_of_neg (by simp [hc]), h] at ht
      cases ht

/-- Neither end of a trimmed text satisfies `p`. -/
theorem ends_of_trimList (l : List α) :
    (∀ c, (trimList p l).head? = some c → p c = false) ∧
      ∀ c, (trimList p l).getLast? = some c → p c = false := by
  constructor
  · intro c hc
    rcases trimList_cases (p := p) l with hnil | ⟨d, t, hd, ht, -⟩
    · rw [hnil] at hc
      cases hc
    · rw [ht] at hc
      cases hc
      exact hd
  · intro c hc
    unfold trimList at hc
    rw [List.getLast?_reverse] at hc
    have hdrop := List.head?_dropWhile_not p (l.dropWhile p).reverse
    rw [hc] at hdrop
    exact hdrop

end Trim

theorem trimSpace_toList (s : String) : (trimSpace s).toList = trimList isSpace s.toList := by
  simp [trimSpace]

/-- Trimming once is enough. -/
theorem trimSpace_trimSpace (s : String) : trimSpace (trimSpace s) = trimSpace s := by
  rw [← String.toList_inj, trimSpace_toList, trimSpace_toList]
  exact trimList_eq_self_of_ends (ends_of_trimList _).1 (ends_of_trimList _).2

/-- A text without white space is not trimmed. -/
theorem trimSpace_eq_self {s : String} (h : ∀ c ∈ s.toList, isSpace c = false) :
    trimSpace s = s := by
  rw [← String.toList_inj, trimSpace_toList, trimList_eq_self h]

/-! ### Words -/

/-- A non-empty text without white space. -/
def IsWord (s : String) : Prop := s ≠ "" ∧ ∀ c ∈ s.toList, isSpace c = false

instance (s : String) : Decidable (IsWord s) := inferInstanceAs (Decidable (_ ∧ _))

/-- The fields are words. -/
theorem isWord_of_mem_fieldsLoop : ∀ (l word : List Char), (∀ c ∈ word, isSpace c = false) →
    ∀ f ∈ fieldsLoop word l, IsWord f := by
  have hword : ∀ word : List Char, (∀ c ∈ word, isSpace c = false) →
      ∀ f ∈ (if word.isEmpty then [] else [String.ofList word.reverse]), IsWord f := by
    intro word hw f hf
    cases word with
    | nil => simp at hf
    | cons c word =>
        simp only [List.isEmpty_cons, Bool.false_eq_true, if_false, List.mem_singleton] at hf
        subst hf
        constructor
        · intro hnil
          simpa using congrArg String.toList hnil
        · intro d hd
          exact hw d (by simpa [or_comm] using hd)
  intro l
  induction l with
  | nil => exact hword
  | cons c l ih =>
      intro word hw f hf
      simp only [fieldsLoop] at hf
      split at hf
      · rcases List.mem_append.mp hf with hf | hf
        · exact hword word hw f hf
        · exact ih [] (by simp) f hf
      · next hc =>
          refine ih (c :: word) ?_ f hf
          intro d hd
          rcases List.mem_cons.mp hd with rfl | hd
          · exact Bool.eq_false_iff.mpr hc
          · exact hw d hd

theorem isWord_of_mem_fields {s f : String} (h : f ∈ fields s) : IsWord f :=
  isWord_of_mem_fieldsLoop s.toList [] (by simp) f h

/-- Characters of a word are gathered. -/
theorem fieldsLoop_append : ∀ (w word rest : List Char), (∀ c ∈ w, isSpace c = false) →
    fieldsLoop word (w ++ rest) = fieldsLoop (w.reverse ++ word) rest := by
  intro w
  induction w with
  | nil => intro word rest _; rfl
  | cons c w ih =>
      intro word rest h
      have hc : isSpace c = false := h c List.mem_cons_self
      simp only [List.cons_append, fieldsLoop, hc, Bool.false_eq_true, if_false]
      rw [ih _ _ fun d hd => h d (List.mem_cons_of_mem _ hd)]
      simp

/-- The word being read is the start of the first field. -/
theorem fieldsLoop_head : ∀ (l word : List Char), word ≠ [] →
    ∃ f, (fieldsLoop word l).head? = some f ∧ word.reverse <+: f.toList := by
  intro l
  induction l with
  | nil =>
      intro word hne
      exact ⟨String.ofList word.reverse, by simp [fieldsLoop, hne], by simp⟩
  | cons c l ih =>
      intro word hne
      cases hc : isSpace c with
      | true => exact ⟨String.ofList word.reverse, by simp [fieldsLoop, hc, hne], by simp⟩
      | false =>
          obtain ⟨f, hf, hprefix⟩ := ih (c :: word) (List.cons_ne_nil _ _)
          refine ⟨f, by simp [fieldsLoop, hc, hf], ?_⟩
          rw [List.reverse_cons] at hprefix
          exact (List.prefix_append _ _).trans hprefix

/-- The first field starts where the text does. -/
theorem fields_head {s : String} {c : Char} (hc : isSpace c = false)
    (hs : s.toList.head? = some c) : ∃ f, (fields s).head? = some f ∧ f.toList.head? = some c := by
  unfold fields
  cases hl : s.toList with
  | nil => simp [hl] at hs
  | cons d l =>
      rw [hl, List.head?_cons, Option.some.injEq] at hs
      subst hs
      obtain ⟨f, hf, t, ht⟩ := fieldsLoop_head l [d] (List.cons_ne_nil _ _)
      refine ⟨f, by simp [fieldsLoop, hc, hf], ?_⟩
      rw [← ht]
      rfl

/-- A word that a space follows is the first field. -/
theorem fields_cons {w rest : String} (h : IsWord w) : fields (w ++ " " ++ rest) = w :: fields rest := by
  unfold fields
  rw [String.toList_append, String.toList_append, List.append_assoc, fieldsLoop_append _ _ _ h.2]
  have hne : w.toList ≠ [] := by simpa using h.1
  have hspace : isSpace ' ' = true := by decide
  have htoList : " ".toList = [' '] := rfl
  simp [htoList, fieldsLoop, hspace, hne]

/-- A word alone is the only field. -/
theorem fields_word {w : String} (h : IsWord w) : fields w = [w] := by
  unfold fields
  have hloop := fieldsLoop_append w.toList [] [] h.2
  rw [List.append_nil] at hloop
  have hne : w.toList ≠ [] := by simpa using h.1
  rw [hloop]
  simp [fieldsLoop, hne]

/-- Words with spaces between them are the fields. -/
theorem fields_join : ∀ {ws : List String}, (∀ w ∈ ws, IsWord w) → fields (join ws " ") = ws := by
  intro ws
  induction ws with
  | nil =>
      intro _
      rfl
  | cons w ws ih =>
      intro h
      have hw := h w List.mem_cons_self
      have hrest := ih fun v hv => h v (List.mem_cons_of_mem _ hv)
      cases ws with
      | nil => exact fields_word hw
      | cons v ws =>
          unfold join at hrest ⊢
          rw [String.intercalate_cons_cons, fields_cons hw, hrest]

/-- The visible ASCII characters are no white space. -/
theorem isSpace_of_visible {c : Char} (hlo : 0x21 ≤ c.toNat) (hhi : c.toNat < 0x7f) :
    isSpace c = false := by
  unfold isSpace
  simp only [Bool.or_eq_false_iff, Bool.and_eq_false_iff, beq_eq_false_iff_ne,
    decide_eq_false_iff_not]
  omega

theorem visible_of_isDigit {c : Char} (h : c.isDigit = true) :
    0x21 ≤ c.toNat ∧ c.toNat < 0x7f := by
  rw [Char.isDigit_iff_toNat, show '0'.toNat = 48 from rfl, show '9'.toNat = 57 from rfl] at h
  omega

/-- Digits make a word. -/
theorem isWord_decimal (n : Nat) : IsWord (decimal n) := by
  constructor
  · intro hnil
    have hpos := Nat.length_toDigits_pos (b := 10) (n := n)
    have hlist : (decimal n).toList = Nat.toDigits 10 n := by
      rw [decimal, Nat.toString_eq_repr, Nat.toList_repr]
    rw [hnil] at hlist
    rw [← hlist] at hpos
    simp at hpos
  · intro c hc
    obtain ⟨hlo, hhi⟩ := visible_of_isDigit (isDigit_of_mem_decimal hc)
    exact isSpace_of_visible hlo hhi

end Phragma.Go
