import Mathlib.Tactic.Common
import Mathlib.Data.List.Basic

/-!
# Phragma.Lib.Collect

**Message-collecting loops.** A validator walks a list, threads some loop state
(names seen so far, maps being filled) and appends a message for every problem it
meets, without ever stopping at the first one. `collect` is that loop for an
arbitrary step function.

What a caller wants to know is what follows from the loop having stayed *quiet*,
that is from an empty message list: then every single step was quiet, so an
invariant that quiet steps preserve holds of the final state. `collect_quiet_run`
is that rule, with the processed part of the list as an index of the invariant;
`collect_quiet_mem` is its special case for facts about single elements.
-/

namespace Phragma.Lib

variable {σ α ε : Type}

/-- Run `step` over a list, threading the loop state and concatenating the
messages of all steps. -/
def collect (step : σ → α → List ε × σ) : σ → List α → List ε × σ
  | s, [] => ([], s)
  | s, a :: as =>
    let r := step s a
    let rest := collect step r.2 as
    (r.1 ++ rest.1, rest.2)

@[simp] theorem collect_nil (step : σ → α → List ε × σ) (s : σ) :
    collect step s [] = ([], s) := rfl

theorem collect_cons_fst (step : σ → α → List ε × σ) (s : σ) (a : α) (as : List α) :
    (collect step s (a :: as)).1 = (step s a).1 ++ (collect step (step s a).2 as).1 := rfl

theorem collect_cons_snd (step : σ → α → List ε × σ) (s : σ) (a : α) (as : List α) :
    (collect step s (a :: as)).2 = (collect step (step s a).2 as).2 := rfl

/-- A loop is quiet exactly when its first step and the rest of it are. -/
theorem collect_cons_quiet {step : σ → α → List ε × σ} {s : σ} {a : α} {as : List α} :
    (collect step s (a :: as)).1 = [] ↔
      (step s a).1 = [] ∧ (collect step (step s a).2 as).1 = [] := by
  rw [collect_cons_fst, List.append_eq_nil_iff]

/-- **The quiet-run rule.** An invariant indexed by the processed part of the list
that every quiet step preserves holds at the end of a quiet loop. -/
theorem collect_quiet_run {step : σ → α → List ε × σ} (I : List α → σ → Prop)
    (hstep : ∀ pre s a, I pre s → (step s a).1 = [] → I (pre ++ [a]) (step s a).2) :
    ∀ {as pre : List α} {s : σ}, I pre s → (collect step s as).1 = [] →
      I (pre ++ as) (collect step s as).2 := by
  intro as
  induction as with
  | nil => intro pre s hI _; simpa using hI
  | cons a as ih =>
      intro pre s hI hq
      obtain ⟨ha, hrest⟩ := collect_cons_quiet.mp hq
      have h := ih (hstep pre s a hI ha) hrest
      simpa [collect_cons_snd] using h

/-- The same for a whole loop, from its start. -/
theorem collect_quiet_all (step : σ → α → List ε × σ) (s : σ) {as : List α}
    (I : List α → σ → Prop)
    (hstep : ∀ pre s a, I pre s → (step s a).1 = [] → I (pre ++ [a]) (step s a).2)
    (h0 : I [] s) (hq : (collect step s as).1 = []) : I as (collect step s as).2 :=
  collect_quiet_run I hstep h0 hq

/-- Every element of a quiet loop was quiet at a state the invariant holds of. -/
theorem collect_quiet_mem_of {step : σ → α → List ε × σ} (I : σ → Prop)
    (hstep : ∀ s a, I s → (step s a).1 = [] → I (step s a).2) :
    ∀ {as : List α} {s : σ}, I s → (collect step s as).1 = [] →
      ∀ a ∈ as, ∃ s', I s' ∧ (step s' a).1 = [] := by
  intro as
  induction as with
  | nil => intro s _ _ a ha; simp at ha
  | cons b as ih =>
      intro s hI hq a ha
      obtain ⟨hb, hrest⟩ := collect_cons_quiet.mp hq
      rcases List.mem_cons.mp ha with rfl | ha
      · exact ⟨s, hI, hb⟩
      · exact ih (hstep s b hI hb) hrest a ha

/-- Every element of a quiet loop was quiet at some loop state. -/
theorem collect_quiet_mem {step : σ → α → List ε × σ} {s : σ} {as : List α}
    (hq : (collect step s as).1 = []) {a : α} (ha : a ∈ as) : ∃ s', (step s' a).1 = [] := by
  obtain ⟨s', -, h⟩ := collect_quiet_mem_of (fun _ => True) (fun _ _ _ _ => trivial) trivial hq a ha
  exact ⟨s', h⟩

/-! ### Loops that decide an identifier for every element

A renumbering loop keeps the list of identifiers handed out so far and rewrites
each element; it is `collect`'s sibling that returns elements instead of
messages. -/

/-- Rewrite every element of a list, threading the loop state. -/
def mapAccum {β : Type} (step : σ → α → β × σ) : σ → List α → List β × σ
  | s, [] => ([], s)
  | s, a :: as =>
    let r := step s a
    let rest := mapAccum step r.2 as
    (r.1 :: rest.1, rest.2)

section MapAccum

variable {β γ : Type} {step : σ → α → β × σ}

@[simp] theorem mapAccum_nil (s : σ) : mapAccum step s [] = ([], s) := rfl

theorem mapAccum_cons_fst (s : σ) (a : α) (as : List α) :
    (mapAccum step s (a :: as)).1 = (step s a).1 :: (mapAccum step (step s a).2 as).1 := rfl

theorem mapAccum_cons_snd (s : σ) (a : α) (as : List α) :
    (mapAccum step s (a :: as)).2 = (mapAccum step (step s a).2 as).2 := rfl

/-- What no step changes about an element, the loop does not change either. -/
theorem mapAccum_map_eq (f : β → γ) (g : α → γ) (h : ∀ s a, f (step s a).1 = g a) :
    ∀ (as : List α) (s : σ), ((mapAccum step s as).1).map f = as.map g := by
  intro as
  induction as with
  | nil => intro s; rfl
  | cons a as ih =>
      intro s
      rw [mapAccum_cons_fst, List.map_cons, List.map_cons, h, ih]

/-- Every result comes from one element at one loop state. -/
theorem mem_mapAccum {b : β} : ∀ {as : List α} {s : σ}, b ∈ (mapAccum step s as).1 →
    ∃ s', ∃ a ∈ as, b = (step s' a).1 := by
  intro as
  induction as with
  | nil => intro s h; simp at h
  | cons a as ih =>
      intro s h
      rw [mapAccum_cons_fst] at h
      rcases List.mem_cons.mp h with rfl | h
      · exact ⟨s, a, List.mem_cons_self, rfl⟩
      · obtain ⟨s', a', ha', hb⟩ := ih h
        exact ⟨s', a', List.mem_cons_of_mem _ ha', hb⟩

/-- A rewriting loop is **idempotent** when each of its steps is, from states that a
relation kept by the steps does not tell apart. -/
theorem mapAccum_idem {step : σ → α → α × σ} (R : σ → σ → Prop)
    (h : ∀ {s t a}, R s t → (step t (step s a).1).1 = (step s a).1 ∧
      R (step s a).2 (step t (step s a).1).2) :
    ∀ {as : List α} {s t : σ}, R s t →
      (mapAccum step t (mapAccum step s as).1).1 = (mapAccum step s as).1 ∧
      R (mapAccum step s as).2 (mapAccum step t (mapAccum step s as).1).2 := by
  intro as
  induction as with
  | nil => intro s t hR; exact ⟨rfl, hR⟩
  | cons a as ih =>
      intro s t hR
      obtain ⟨ha, hR'⟩ := h (a := a) hR
      obtain ⟨has, hR''⟩ := ih hR'
      simp only [mapAccum_cons_fst, mapAccum_cons_snd, ha, has]
      exact ⟨trivial, hR''⟩

end MapAccum

/-! ### Distinct values -/

/-- A loop that gathers the values that pass a test, each once, gathers exactly those. -/
theorem mem_foldl_distinct [DecidableEq β] (f : α → β) (p : β → Bool) : ∀ (as : List α)
    (out : List β) (b : β),
    b ∈ as.foldl (fun out a => if p (f a) && !out.contains (f a) then out ++ [f a] else out) out ↔
      b ∈ out ∨ p b = true ∧ ∃ a ∈ as, f a = b := by
  intro as
  induction as with
  | nil => simp
  | cons a as ih =>
      intro out b
      -- one step adds the value, if it is wanted and not there yet
      have hstep : (b ∈ if p (f a) && !out.contains (f a) then out ++ [f a] else out) ↔
          b ∈ out ∨ p b = true ∧ f a = b := by
        cases hp : p (f a) with
        | false =>
            simp only [Bool.false_and, Bool.false_eq_true, if_false]
            refine ⟨.inl, ?_⟩
            rintro (h | ⟨h, rfl⟩)
            · exact h
            · rw [hp] at h
              cases h
        | true =>
            by_cases hout : f a ∈ out
            · simp only [List.contains_iff_mem.mpr hout, Bool.not_true, Bool.and_false,
                Bool.false_eq_true, if_false]
              refine ⟨.inl, ?_⟩
              rintro (h | ⟨-, rfl⟩)
              · exact h
              · exact hout
            · have hno : out.contains (f a) = false := by simpa using hout
              simp only [hno, Bool.not_false, Bool.and_true, if_true, List.mem_append,
                List.mem_singleton]
              constructor
              · rintro (h | rfl)
                · exact .inl h
                · exact .inr ⟨hp, rfl⟩
              · rintro (h | ⟨-, rfl⟩)
                · exact .inl h
                · exact .inr rfl
      rw [List.foldl_cons, ih, hstep, or_assoc]
      simp only [List.mem_cons, exists_eq_or_imp]
      rw [← and_or_left]

end Phragma.Lib
