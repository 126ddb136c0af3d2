import Mathlib.Data.List.Basic

/-!
# Phragma.Lib.FirstMatch

**Lists of rules of which the first that admits an input decides.**

A rule is good or bad. When every input is to be decided by a good rule, a bad rule must be
reached by nothing, and some good rule must admit everything. `decidesAll_iff` says so for
lists in which one input is admitted only by the rules that admit all: it is enough to look at
the first such rule and at the bad ones in front of it.
-/

namespace Phragma.Lib

variable {ρ ι : Type} (admits : ρ → ι → Bool) (good : ρ → Bool)

/-- Every input is decided by a good rule. -/
def DecidesAll (rules : List ρ) : Prop :=
  ∀ i, ∃ r, rules.find? (fun r => admits r i) = some r ∧ good r = true

/-- What a rule admits, a good rule in front of it admits too. -/
def Covered (front : List ρ) (r : ρ) : Prop :=
  ∀ i, admits r i = true → ∃ d ∈ front, good d = true ∧ admits d i = true

/-- A good rule admits the input `least`, and every bad rule in front of it is covered by the
good rules in front of that one. -/
def ClosedBy (least : ι) (rules : List ρ) : Prop :=
  ∃ pre d post, rules = pre ++ d :: post ∧ good d = true ∧ admits d least = true ∧
    ∀ front r back, pre = front ++ r :: back → good r = true ∨ Covered admits good front r

variable {admits good}

/-- A covered rule is not the first to admit anything. -/
theorem Covered.not_first {front : List ρ} {r : ρ} (h : Covered admits good front r) {i : ι}
    (hr : admits r i = true) (hfirst : ∀ d ∈ front, admits d i = false) : False := by
  obtain ⟨d, hd, -, hadmits⟩ := h i hr
  rw [hfirst d hd] at hadmits
  cases hadmits

/-- Of a list that decides every input well, the rule that decides `i` has only covered bad
rules in front of it. -/
theorem DecidesAll.covered {rules pre post : List ρ} {d : ρ} (h : DecidesAll admits good rules)
    (hrules : rules = pre ++ d :: post) {front back : List ρ} {r : ρ}
    (hpre : pre = front ++ r :: back) : good r = true ∨ Covered admits good front r := by
  by_cases hgood : good r = true
  · exact .inl hgood
  · refine .inr fun i hr => ?_
    obtain ⟨e, he, hgood'⟩ := h i
    obtain ⟨hadmits, as, bs, hsplit, has⟩ := List.find?_eq_some_iff_append.mp he
    -- the rule that decides `i` is not `r`, and it is not behind `r`
    have hmem : e ∈ front := by
      have heq : as ++ e :: bs = front ++ r :: (back ++ d :: post) := by
        rw [← hsplit, hrules, hpre]
        simp
      rcases List.append_eq_append_iff.mp heq with ⟨mid, hfront, hmid⟩ | ⟨mid, hsuffix, hmid⟩
      · cases mid with
        | nil =>
            rw [List.nil_append, List.cons.injEq] at hmid
            exact absurd hgood' (hmid.1 ▸ hgood)
        | cons x mid =>
            rw [List.cons_append, List.cons.injEq] at hmid
            rw [hfront, hmid.1]
            simp
      · cases mid with
        | nil =>
            rw [List.nil_append, List.cons.injEq] at hmid
            exact absurd hgood' (hmid.1 ▸ hgood)
        | cons x mid =>
            rw [List.cons_append, List.cons.injEq] at hmid
            have hbefore := has x (by rw [hsuffix]; simp)
            rw [← hmid.1, hr] at hbefore
            cases hbefore
    exact ⟨e, hmem, hgood', hadmits⟩

/-- **A list decides every input well exactly when it is closed by a good rule.** -/
theorem decidesAll_iff {least : ι}
    (hleast : ∀ r, admits r least = true → ∀ i, admits r i = true) (rules : List ρ) :
    DecidesAll admits good rules ↔ ClosedBy admits good least rules := by
  constructor
  · intro h
    obtain ⟨d, hd, hgood⟩ := h least
    obtain ⟨hadmits, pre, post, hrules, -⟩ := List.find?_eq_some_iff_append.mp hd
    exact ⟨pre, d, post, hrules, hgood, hadmits, fun _ _ _ hpre => h.covered hrules hpre⟩
  · rintro ⟨pre, d, post, rfl, hgood, hadmits, hpre⟩ i
    rw [List.find?_append]
    cases hfind : pre.find? fun r => admits r i with
    | none => exact ⟨d, by simp [hleast d hadmits i], hgood⟩
    | some e =>
        obtain ⟨hadmits, front, back, hsplit, hfront⟩ := List.find?_eq_some_iff_append.mp hfind
        refine ⟨e, rfl, (hpre front e back hsplit).resolve_right fun hcovered => ?_⟩
        exact hcovered.not_first hadmits fun d hd => by simpa using hfront d hd

/-! ### Rules that decide nothing -/

/-- **A rule that decides nothing.** When the rules in front of a rule admit everything it admits,
it is never found, and finding goes on without it as before. -/
theorem find?_of_shadowed {front back : List ρ} {r : ρ} {i : ι}
    (h : admits r i = true → ∃ d ∈ front, admits d i = true) :
    (front ++ r :: back).find? (admits · i) = (front ++ back).find? (admits · i) := by
  rw [List.find?_append, List.find?_append]
  cases hfind : front.find? (admits · i) with
  | some d => rfl
  | none =>
      have hno : admits r i = false := by
        by_contra hr
        obtain ⟨d, hd, hadmits⟩ := h (by simpa using hr)
        exact List.find?_eq_none.mp hfind d hd hadmits
      rw [List.find?_cons_of_neg (by simp [hno])]

end Phragma.Lib
