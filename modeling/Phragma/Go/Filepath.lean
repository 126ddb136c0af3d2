import Phragma.Go.AddrText

/-!
# Phragma.Go.Filepath

**Paths as strings and where they lead**, without symbolic links: `path/filepath` on Unix.

`Clean` works on the text of a path, the system walks it element by element. Both come to the same
place (`resolve_cleanPath`), so a path that is joined and cleaned leads below its base
(`resolve_joinPath`). A cleaned relative path that neither is `.` nor begins with `..` is a list of
names (`names_of_cleanPath`).
-/

namespace Phragma.Go

/-! ### Walking

Where a path leads: its elements taken one by one from where one stands. -/

/-- One element of a path, on the reversed names before it. The root is its own parent. -/
def walkStep (done : List String) (e : List Char) : List String :=
  if e = [] ∨ e = ['.'] then done
  else if e = ['.', '.'] then done.tail
  else String.ofList e :: done

/-- Walk the elements of a path from a directory. -/
def walk (start : List String) (elems : List (List Char)) : List String :=
  (elems.foldl walkStep start.reverse).reverse

/-- `filepath.IsAbs`: does the path start at the root? -/
def isAbs (s : String) : Bool := s.toList.head? == some '/'

/-- Where a path leads from the working directory. -/
def resolve (cwd : List String) (s : String) : List String :=
  walk (if isAbs s then [] else cwd) (splitOn '/' s.toList)

/-- `filepath.Dir`: the path without its last element. -/
def dirPath (s : String) : String :=
  cleanPath (String.ofList (s.toList.reverse.dropWhile fun c => c ≠ '/').reverse)

/-- The elements of a clean path. -/
def cleanElems (s : String) : List String :=
  ((splitOn '/' s.toList).filter fun e => e ≠ [] ∧ e ≠ ['.']).map String.ofList

/-- Drop the names that two paths have in common. -/
def dropCommon : List String → List String → List String × List String
  | a :: as, b :: bs => if a = b then dropCommon as bs else (a :: as, b :: bs)
  | as, bs => (as, bs)

/-- `filepath.Rel`: the way from one path to another, as far as the texts tell it. -/
def relPath (base target : String) : Option String :=
  let base := cleanPath base
  let target := cleanPath target
  if isAbs base ≠ isAbs target then none
  else
    match dropCommon (cleanElems base) (cleanElems target) with
    | ([], []) => some "."
    | (up, down) =>
        if up.head? = some ".." then none
        else some (join (up.map (fun _ => "..") ++ down) "/")

theorem walk_nil (start : List String) : walk start [] = start := List.reverse_reverse start

theorem walk_append (start : List String) (as bs : List (List Char)) :
    walk start (as ++ bs) = walk (walk start as) bs := by
  simp [walk, List.foldl_append]

/-- A name. -/
def IsName (e : List Char) : Prop := e ≠ [] ∧ e ≠ ['.'] ∧ e ≠ ['.', '.']

theorem walk_names {elems : List (List Char)} (h : ∀ e ∈ elems, IsName e) (start : List String) :
    walk start elems = start ++ elems.map String.ofList := by
  induction elems generalizing start with
  | nil => rw [walk_nil, List.map_nil, List.append_nil]
  | cons e elems ih =>
      have he := h e List.mem_cons_self
      have hstep : walk start [e] = start ++ [String.ofList e] := by
        simp [walk, walkStep, he.1, he.2.1, he.2.2]
      rw [← List.singleton_append, walk_append, hstep,
        ih fun f hf => h f (List.mem_cons_of_mem _ hf), List.append_assoc]
      rfl

/-! ### Cleaning

Cleaning and walking are folds over the same elements with different steps. The induction compares
them element by element, after the steps up that cleaning must keep. -/

/-- The elements that cleaning keeps. -/
def cleaned (rooted : Bool) (elems : List (List Char)) : List (List Char) :=
  (elems.foldl (cleanStep rooted) []).reverse

/-- What the stack of `cleanStep` holds: steps up, and names above them. -/
def Stacked (done : List (List Char)) : Prop :=
  ∃ names k, done = names ++ List.replicate k ['.', '.'] ∧ ∀ e ∈ names, IsName e

theorem stacked_nil : Stacked [] := ⟨[], 0, rfl, nofun⟩

theorem Stacked.proper {done : List (List Char)} (h : Stacked done) {e : List Char}
    (he : e ∈ done) : e ≠ [] ∧ e ≠ ['.'] := by
  obtain ⟨names, k, rfl, hnames⟩ := h
  rcases List.mem_append.mp he with he | he
  · exact ⟨(hnames e he).1, (hnames e he).2.1⟩
  · rw [List.eq_of_mem_replicate he]
    decide

theorem stacked_cleanStep {rooted : Bool} {done : List (List Char)} (h : Stacked done)
    (e : List Char) : Stacked (cleanStep rooted done e) := by
  unfold cleanStep
  split
  · exact h
  · next hkeep =>
      rw [not_or] at hkeep
      obtain ⟨names, k, rfl, hnames⟩ := h
      split
      · next hup =>
          subst hup
          cases names with
          | cons top names =>
              -- a step up takes the last name back
              dsimp only [List.cons_append]
              rw [if_neg (hnames top List.mem_cons_self).2.2]
              exact ⟨names, k, rfl, fun e he => hnames e (List.mem_cons_of_mem _ he)⟩
          | nil =>
              cases k with
              | zero =>
                  cases rooted with
                  | true => exact stacked_nil
                  | false => exact ⟨[], 1, rfl, nofun⟩
              | succ k =>
                  rw [List.nil_append, List.replicate_succ]
                  dsimp only
                  rw [if_pos rfl]
                  exact ⟨[], k + 2, rfl, nofun⟩
      · next hname =>
          exact ⟨e :: names, k, rfl, List.forall_mem_cons.mpr ⟨⟨hkeep.1, hkeep.2, hname⟩, hnames⟩⟩

theorem stacked_foldl {rooted : Bool} (elems : List (List Char)) {done : List (List Char)}
    (h : Stacked done) : Stacked (elems.foldl (cleanStep rooted) done) := by
  induction elems generalizing done with
  | nil => exact h
  | cons e elems ih => exact ih (stacked_cleanStep h e)

/-- **Walking what is cleaned** leads to the same place. -/
theorem walk_cleaned {rooted : Bool} {start : List String} (hstart : rooted = true → start = [])
    (elems : List (List Char)) : walk start (cleaned rooted elems) = walk start elems := by
  induction elems using List.reverseRecOn with
  | nil => rfl
  | append_singleton elems e ih =>
      have hstacked : Stacked (elems.foldl (cleanStep rooted) []) :=
        stacked_foldl elems stacked_nil
      rw [walk_append, ← ih]
      unfold cleaned
      rw [List.foldl_append, List.foldl_cons, List.foldl_nil]
      generalize elems.foldl (cleanStep rooted) [] = done at hstacked
      unfold cleanStep
      split
      · next hskip => simp [walk, walkStep, hskip]
      · next hkeep =>
          split
          · next hup =>
              subst hup
              -- a step up takes the last name away, or stays
              cases done with
              | nil =>
                  cases rooted with
                  -- at the root it goes nowhere
                  | true =>
                      rw [hstart rfl]
                      rfl
                  | false =>
                      rw [List.reverse_nil, walk_nil]
                      rfl
              | cons top rest =>
                  dsimp only
                  split
                  · rw [List.reverse_cons, walk_append]
                  · -- a name that is entered and left again
                    next htop =>
                      have hproper := hstacked.proper List.mem_cons_self
                      have hname : ∀ e ∈ [top], IsName e := by
                        rintro e he
                        rw [List.mem_singleton.mp he]
                        exact ⟨hproper.1, hproper.2, htop⟩
                      rw [List.reverse_cons, walk_append, walk_names hname]
                      simp [walk, walkStep]
          · next hname => rw [List.reverse_cons, walk_append]

/-- The elements of a path. -/
def elements (s : String) : List (List Char) := cleaned (isAbs s) (splitOn '/' s.toList)

theorem slash_notMem_splitOn {c : Char} :
    ∀ {l part : List Char}, part ∈ splitOn c l → c ∉ part := by
  intro l
  induction l with
  | nil =>
      intro part h
      rw [List.mem_singleton.mp h]
      exact List.not_mem_nil
  | cons x xs ih =>
      intro part h
      rw [splitOn] at h
      split at h
      · rcases List.mem_cons.mp h with rfl | h
        · exact List.not_mem_nil
        · exact ih h
      · next hx =>
          cases hs : splitOn c xs with
          | nil => exact absurd hs (splitOn_ne_nil c xs)
          | cons p ps =>
              rw [hs] at h ih
              rcases List.mem_cons.mp h with rfl | h
              · rw [List.mem_cons, not_or]
                exact ⟨fun heq => hx heq.symm, ih List.mem_cons_self⟩
              · exact ih (List.mem_cons_of_mem _ h)

theorem mem_cleanSteps {rooted : Bool} {e : List Char} : ∀ {es done : List (List Char)},
    e ∈ es.foldl (cleanStep rooted) done → e ∈ done ∨ e ∈ es := by
  intro es
  induction es with
  | nil => intro done h; exact .inl h
  | cons x es ih =>
      intro done h
      rw [List.foldl_cons] at h
      rcases ih h with h | h
      · -- one element adds itself, drops one, or does nothing
        have hstep : e = x ∨ e ∈ done := by
          unfold cleanStep at h
          by_cases hskip : x = [] ∨ x = ['.']
          · rw [if_pos hskip] at h
            exact .inr h
          · rw [if_neg hskip] at h
            by_cases hup : x = ['.', '.']
            · rw [if_pos hup] at h
              cases done with
              | nil =>
                  cases rooted with
                  | true => cases h
                  | false => exact .inl (List.mem_singleton.mp h)
              | cons top rest =>
                  simp only at h
                  split at h
                  · exact List.mem_cons.mp h
                  · exact .inr (List.mem_cons_of_mem _ h)
            · rw [if_neg hup] at h
              exact List.mem_cons.mp h
        rcases hstep with rfl | hstep
        · exact .inr List.mem_cons_self
        · exact .inl hstep
      · exact .inr (List.mem_cons_of_mem _ h)

theorem slash_notMem_elements {s : String} {e : List Char} (h : e ∈ elements s) : '/' ∉ e := by
  rcases mem_cleanSteps (List.mem_reverse.mp h) with hmem | hmem
  · cases hmem
  · exact slash_notMem_splitOn hmem

theorem toList_join_slash (elems : List (List Char)) :
    (join (elems.map String.ofList) "/").toList = ['/'].intercalate elems := by
  rw [join, String.toList_intercalate, List.map_map]
  have hmap : String.toList ∘ String.ofList = id := funext fun _ => String.toList_ofList
  rw [hmap, List.map_id]
  rfl

theorem splitOn_join {elems : List (List Char)} (hne : elems ≠ []) (h : ∀ e ∈ elems, '/' ∉ e) :
    splitOn '/' (join (elems.map String.ofList) "/").toList = elems := by
  rw [toList_join_slash, splitOn_intercalate hne h]

theorem cleanPath_eq (s : String) : cleanPath s =
    if isAbs s then "/" ++ join ((elements s).map String.ofList) "/"
    else if join ((elements s).map String.ofList) "/" = "" then "."
    else join ((elements s).map String.ofList) "/" := rfl

theorem stacked_elements (s : String) : Stacked (elements s).reverse := by
  unfold elements cleaned
  rw [List.reverse_reverse]
  exact stacked_foldl _ stacked_nil

/-- The elements of a path: steps up, then names. -/
theorem elements_cases (s : String) : ∃ k names,
    elements s = List.replicate k ['.', '.'] ++ names ∧ ∀ e ∈ names, IsName e := by
  obtain ⟨names, k, hel, hnames⟩ := stacked_elements s
  refine ⟨k, names.reverse, ?_, fun e he => hnames e (List.mem_reverse.mp he)⟩
  rw [← List.reverse_reverse (elements s), hel, List.reverse_append, List.reverse_replicate]

/-- Elements that are joined begin with the first one. -/
theorem head?_join {e : List Char} {elems : List (List Char)} (he : e ≠ []) :
    (join ((e :: elems).map String.ofList) "/").toList.head? = e.head? := by
  rw [toList_join_slash]
  cases elems with
  | nil => rw [List.intercalate_singleton]
  | cons f elems =>
      rw [List.intercalate_cons_cons, List.append_assoc]
      exact List.head?_append_of_ne_nil _ he

/-- The elements of a relative path, joined: nothing, or a relative path. -/
theorem join_elements (s : String) :
    (elements s = [] ∧ join ((elements s).map String.ofList) "/" = "") ∨
      (elements s ≠ [] ∧ join ((elements s).map String.ofList) "/" ≠ "" ∧
        isAbs (join ((elements s).map String.ofList) "/") = false) := by
  cases h : elements s with
  | nil => exact .inl ⟨rfl, rfl⟩
  | cons e elems =>
      have hmem : e ∈ elements s := h ▸ List.mem_cons_self
      have hne : e ≠ [] := ((stacked_elements s).proper (List.mem_reverse.mpr hmem)).1
      have hslash := slash_notMem_elements hmem
      have hhead := @head?_join e elems hne
      obtain ⟨c, cs, rfl⟩ := List.exists_cons_of_ne_nil hne
      refine .inr ⟨List.cons_ne_nil _ _, fun hempty => ?_, ?_⟩
      · rw [hempty] at hhead
        cases hhead
      · have hc : c ≠ '/' := fun heq => hslash (heq ▸ List.mem_cons_self)
        rw [isAbs, hhead]
        simpa using hc

theorem resolve_eq (cwd : List String) (s : String) :
    resolve cwd s = walk (if isAbs s then [] else cwd) (elements s) :=
  (walk_cleaned (fun h => by rw [h]; rfl) _).symm

/-- What is joined is walked, also when it is nothing. -/
theorem walk_join {start : List String} {elems : List (List Char)} (h : ∀ e ∈ elems, '/' ∉ e) :
    walk start (splitOn '/' (join (elems.map String.ofList) "/").toList) = walk start elems := by
  by_cases hne : elems = []
  · subst hne
    simp [walk, walkStep, join, splitOn]
  · rw [splitOn_join hne h]

/-- **Cleaning does not change where a path leads.** -/
theorem resolve_cleanPath (cwd : List String) (s : String) :
    resolve cwd (cleanPath s) = resolve cwd s := by
  have hslash : ∀ e ∈ elements s, '/' ∉ e := fun e he => slash_notMem_elements he
  rw [resolve_eq cwd s, cleanPath_eq]
  cases habs : isAbs s with
  | true =>
      have habs' : isAbs ("/" ++ join ((elements s).map String.ofList) "/") = true := by
        simp [isAbs]
      simp only [if_true]
      rw [resolve, habs', if_pos rfl, String.toList_append]
      show walk [] (splitOn '/' ('/' :: _)) = _
      rw [splitOn, if_pos rfl, ← List.singleton_append, walk_append]
      exact walk_join hslash
  | false =>
      simp only [Bool.false_eq_true, if_false]
      rcases join_elements s with ⟨hnil, hempty⟩ | ⟨-, hne, hrel⟩
      · rw [if_pos hempty, hnil, walk_nil]
        simp [resolve, walk, walkStep, isAbs, splitOn]
      · rw [if_neg hne, resolve, hrel, if_neg Bool.false_ne_true]
        exact walk_join hslash

/-! ### Joining

A joined path is a cleaned one, so it leads where its elements lead one after the other. -/

/-- **A path joined to a base** leads where it leads from there. -/
theorem resolve_joinPath (cwd : List String) (base : String) {sub : String}
    (hsub : isAbs sub = false) :
    resolve cwd (joinPath [base, sub]) = walk (resolve cwd base) (splitOn '/' sub.toList) := by
  have hempty : ∀ start : List String, walk start (splitOn '/' "".toList) = start := by
    intro start
    simp [walk, walkStep, splitOn]
  unfold joinPath
  by_cases hbase : base = ""
  · have hcwd : resolve cwd "" = cwd := hempty cwd
    by_cases hnil : sub = ""
    · subst hbase hnil
      exact (hempty (resolve cwd "")).symm
    · have hjoin : ([base, sub].filter fun p => p != "") = [sub] := by simp [hbase, hnil]
      simp only [hjoin, List.isEmpty_cons, Bool.false_eq_true, if_false]
      rw [show join [sub] "/" = sub from String.intercalate_singleton, resolve_cleanPath, hbase,
        hcwd, resolve, hsub, if_neg Bool.false_ne_true]
  · by_cases hnil : sub = ""
    · have hjoin : ([base, sub].filter fun p => p != "") = [base] := by simp [hbase, hnil]
      simp only [hjoin, List.isEmpty_cons, Bool.false_eq_true, if_false]
      rw [show join [base] "/" = base from String.intercalate_singleton, resolve_cleanPath, hnil,
        hempty]
    · have hjoin : ([base, sub].filter fun p => p != "") = [base, sub] := by simp [hbase, hnil]
      have htext : (join [base, sub] "/").toList = base.toList ++ '/' :: sub.toList := by
        simp [join]
      obtain ⟨c, cs, hbase⟩ : ∃ c cs, base.toList = c :: cs :=
        List.exists_cons_of_ne_nil fun h => hbase (String.toList_inj.mp h)
      have habs : isAbs (join [base, sub] "/") = isAbs base := by
        rw [isAbs, isAbs, htext, hbase]
        rfl
      simp only [hjoin, List.isEmpty_cons, Bool.false_eq_true, if_false]
      rw [resolve_cleanPath, resolve, habs, htext, splitOn_append, walk_append]
      rfl

/-! ### Relative paths

What is left of a cleaned path without steps up in front are names, which a walk only goes down
by. -/

/-- **A cleaned relative path** that neither is `.` nor leads up consists of names. -/
theorem names_of_cleanPath {rel : String} (hrel : isAbs rel = false) (hdot : cleanPath rel ≠ ".")
    (hup : hasPrefixList (cleanPath rel).toList "../".toList = false)
    (hdots : cleanPath rel ≠ "..") :
    isAbs (cleanPath rel) = false ∧ splitOn '/' (cleanPath rel).toList = elements rel ∧
      elements rel ≠ [] ∧ ∀ e ∈ elements rel, IsName e := by
  have hclean : cleanPath rel = if join ((elements rel).map String.ofList) "/" = "" then "."
      else join ((elements rel).map String.ofList) "/" := by
    rw [cleanPath_eq, hrel]
    rfl
  rcases join_elements rel with ⟨-, hempty⟩ | ⟨hne, hbody, habs⟩
  · rw [hclean, if_pos hempty] at hdot
    exact absurd rfl hdot
  · rw [hclean, if_neg hbody] at hup hdots ⊢
    refine ⟨habs, splitOn_join hne fun e he => slash_notMem_elements he, hne, ?_⟩
    obtain ⟨k, names, hel, hnames⟩ := elements_cases rel
    cases k with
    | zero =>
        rw [hel]
        exact hnames
    | succ k =>
        -- a step up would be the first element
        rw [List.replicate_succ, List.cons_append] at hel
        rw [hel] at hup hdots
        cases hes : List.replicate k ['.', '.'] ++ names with
        | nil =>
            rw [hes] at hdots
            exact absurd rfl hdots
        | cons f es =>
            rw [hes, toList_join_slash, List.intercalate_cons_cons] at hup
            simp [hasPrefixList] at hup

/-- A cleaned path has the elements that cleaning keeps. -/
theorem splitOn_cleanPath_of_ne {s : String} (hne : elements s ≠ []) :
    splitOn '/' (cleanPath s).toList = (if isAbs s then [[]] else []) ++ elements s := by
  have hslash : ∀ e ∈ elements s, '/' ∉ e := fun e he => slash_notMem_elements he
  rw [cleanPath_eq]
  cases habs : isAbs s with
  | true =>
      have htext : ∀ body : String, ("/" ++ body).toList = '/' :: body.toList := fun body => by simp
      rw [if_pos rfl, htext, splitOn, if_pos rfl, splitOn_join hne hslash]
      rfl
  | false =>
      rcases join_elements s with ⟨hnil, -⟩ | ⟨-, hbody, -⟩
      · exact absurd hnil hne
      · rw [if_neg Bool.false_ne_true, if_neg hbody, splitOn_join hne hslash]
        rfl

/-- In a cleaned path, what is no name comes before the names. -/
theorem splitOn_cleanPath (s : String) :
    ∃ ups names, splitOn '/' (cleanPath s).toList = ups ++ names ∧ (∀ e ∈ ups, ¬ IsName e) ∧
      ∀ e ∈ names, IsName e := by
  by_cases hne : elements s = []
  · rw [cleanPath_eq, hne]
    cases isAbs s with
    | true => exact ⟨[[], []], [], rfl, by simp [IsName], nofun⟩
    | false => exact ⟨[['.']], [], rfl, by simp [IsName], nofun⟩
  · obtain ⟨k, names, hel, hnames⟩ := elements_cases s
    refine ⟨(if isAbs s then [[]] else []) ++ List.replicate k ['.', '.'], names, ?_, ?_, hnames⟩
    · rw [splitOn_cleanPath_of_ne hne, hel, List.append_assoc]
    · intro e he hname
      rcases List.mem_append.mp he with he | he
      · split at he
        · exact hname.1 (List.mem_singleton.mp he)
        · cases he
      · exact hname.2.2 (List.eq_of_mem_replicate he)

theorem cleaned_append_names {rooted : Bool} {names : List (List Char)}
    (h : ∀ e ∈ names, IsName e) (elems : List (List Char)) :
    cleaned rooted (elems ++ names) = cleaned rooted elems ++ names := by
  have hfold : ∀ done : List (List Char),
      names.foldl (cleanStep rooted) done = names.reverse ++ done := by
    induction names with
    | nil => exact fun done => rfl
    | cons e names ih =>
        obtain ⟨he, hnames⟩ := List.forall_mem_cons.mp h
        intro done
        have hstep : cleanStep rooted done e = e :: done := by
          simp [cleanStep, he.1, he.2.1, he.2.2]
        rw [List.foldl_cons, hstep, ih hnames, List.reverse_cons, List.append_assoc]
        rfl
  rw [cleaned, List.foldl_append, hfold, List.reverse_append, List.reverse_reverse]
  rfl

/-- Names that are joined to a base are the last elements. -/
theorem splitOn_joinPath {base sub : String} (hbase : base ≠ "")
    (hsub : ∀ e ∈ splitOn '/' sub.toList, IsName e) :
    ∃ ups, splitOn '/' (joinPath [base, sub]).toList = ups ++ splitOn '/' sub.toList := by
  have hnil : sub ≠ "" := by
    rintro rfl
    exact (hsub [] (List.mem_singleton_self _)).1 rfl
  have hjoin : ([base, sub].filter fun p => p != "") = [base, sub] := by simp [hbase, hnil]
  have htext : (join [base, sub] "/").toList = base.toList ++ '/' :: sub.toList := by simp [join]
  have hel : ∃ ups, elements (join [base, sub] "/") = ups ++ splitOn '/' sub.toList := by
    rw [elements, htext, splitOn_append, cleaned_append_names hsub]
    exact ⟨_, rfl⟩
  obtain ⟨ups, hel⟩ := hel
  have hne : elements (join [base, sub] "/") ≠ [] := by
    rw [hel]
    exact List.append_ne_nil_of_right_ne_nil _ (splitOn_ne_nil '/' _)
  unfold joinPath
  simp only [hjoin, List.isEmpty_cons, Bool.false_eq_true, if_false]
  rw [splitOn_cleanPath_of_ne hne, hel, ← List.append_assoc]
  exact ⟨_, rfl⟩

/-- A path is its directory, which ends in a slash when there is one, and its last element. -/
theorem exists_last (path : List Char) : ∃ dir last, path = dir ++ last ∧ '/' ∉ last ∧
    (path.reverse.dropWhile fun c => c ≠ '/').reverse = dir ∧
      (dir = [] ∨ ∃ above, dir = above ++ ['/']) := by
  refine ⟨_, (path.reverse.takeWhile fun c => c ≠ '/').reverse, ?_, ?_, rfl, ?_⟩
  · rw [← List.reverse_append, List.takeWhile_append_dropWhile, List.reverse_reverse]
  · rw [List.mem_reverse]
    intro hmem
    simpa using List.mem_takeWhile_imp hmem
  · cases hdrop : path.reverse.dropWhile fun c => c ≠ '/' with
    | nil => exact .inl rfl
    | cons c rest =>
        have hc : c = '/' := by
          have hhead := List.head?_dropWhile_not (fun c => decide (c ≠ '/')) path.reverse
          rw [hdrop] at hhead
          simpa using hhead
        exact .inr ⟨rest.reverse, by rw [List.reverse_cons, hc]⟩

/-- **The directory of a path** is where its last element is looked up. -/
theorem resolve_dirPath (cwd : List String) (s : String) : ∃ last,
    (splitOn '/' s.toList).getLast? = some last ∧
      resolve cwd s = walk (resolve cwd (dirPath s)) [last] := by
  obtain ⟨dir, last, htext, hslash, hdir, hcases⟩ := exists_last s.toList
  refine ⟨last, ?_⟩
  rw [dirPath, hdir, resolve_cleanPath, resolve, resolve, isAbs, isAbs, htext, String.toList_ofList]
  rcases hcases with rfl | ⟨above, rfl⟩
  · have hrel : last.head? ≠ some '/' := fun h => hslash (List.mem_of_head? h)
    rw [List.nil_append, splitOn_of_notMem hslash]
    simp [hrel, walk, walkStep, splitOn]
  · rw [List.append_assoc, List.singleton_append, splitOn_append, splitOn_of_notMem hslash,
      splitOn_append, splitOn, walk_append, walk_append]
    have hhead : (above ++ '/' :: last).head? = (above ++ ['/']).head? := by cases above <;> rfl
    rw [hhead]
    refine ⟨List.getLast?_concat, ?_⟩
    simp [walk, walkStep]

end Phragma.Go
