import Mathlib.Tactic.Common
import Mathlib.Data.List.Basic
import Mathlib.Data.List.Induction

/-!
# Phragma.Lib.Machine

**Runs of a machine with outputs.** A machine takes an input and a state to an output and a
state. `history` records every step of a run, so that statements about whole runs (what
holds in every state, how an earlier step constrains a later one, which step brought a fact
about) are statements about a list.

The rules: an invariant that every step keeps holds along the run (`history_invariant`); a
relation that every step respects holds between any two moments of it
(`history_pairwise`); and a fact that did not hold at the start was brought about by some
step (`history_cause`). A potential bounds how often a kind of step can occur
(`history_count`).
-/

namespace Phragma.Lib

variable {ι σ ο : Type}

/-- One step of a run. -/
structure Event (ι σ ο : Type) where
  input : ι
  before : σ
  output : ο
  after : σ

/-- The steps of a run. -/
def history (exec : ι → σ → ο × σ) : σ → List ι → List (Event ι σ ο)
  | _, [] => []
  | s, i :: is => ⟨i, s, (exec i s).1, (exec i s).2⟩ :: history exec (exec i s).2 is

/-- The state a run ends in. -/
def final (exec : ι → σ → ο × σ) : σ → List ι → σ
  | s, [] => s
  | s, i :: is => final exec (exec i s).2 is

variable {exec : ι → σ → ο × σ}

theorem final_append (s : σ) (xs ys : List ι) :
    final exec s (xs ++ ys) = final exec (final exec s xs) ys := by
  induction xs generalizing s with
  | nil => rfl
  | cons i xs ih => exact ih (exec i s).2

theorem history_append (s : σ) (xs ys : List ι) :
    history exec s (xs ++ ys) = history exec s xs ++ history exec (final exec s xs) ys := by
  induction xs generalizing s with
  | nil => rfl
  | cons i xs ih => exact congrArg (List.cons _) (ih (exec i s).2)

theorem history_pair (s : σ) (i j : ι) :
    history exec s [i, j] = [⟨i, s, (exec i s).1, (exec i s).2⟩,
      ⟨j, (exec i s).2, (exec j (exec i s).2).1, (exec j (exec i s).2).2⟩] := rfl

theorem history_map_input (exec : ι → σ → ο × σ) (s : σ) (is : List ι) :
    (history exec s is).map Event.input = is := by
  induction is generalizing s with
  | nil => rfl
  | cons i is ih => exact congrArg (List.cons i) (ih (exec i s).2)

/-- Every recorded step is a step of the machine on one of the inputs. -/
theorem history_event {s : σ} {is : List ι} {ev : Event ι σ ο} (h : ev ∈ history exec s is) :
    ev.input ∈ is ∧ exec ev.input ev.before = (ev.output, ev.after) := by
  induction is generalizing s with
  | nil => cases h
  | cons i is ih =>
      rcases List.mem_cons.mp h with rfl | h
      · exact ⟨List.mem_cons_self, rfl⟩
      · obtain ⟨hi, he⟩ := ih h
        exact ⟨List.mem_cons_of_mem _ hi, he⟩

/-- A part of a run is a run. -/
theorem history_split {s : σ} {is : List ι} {pre post : List (Event ι σ ο)}
    (h : history exec s is = pre ++ post) :
    ∃ xs ys, is = xs ++ ys ∧ pre = history exec s xs ∧ post = history exec (final exec s xs) ys := by
  induction pre generalizing s is with
  | nil => exact ⟨[], is, rfl, rfl, h.symm⟩
  | cons a pre ih =>
      cases is with
      | nil => cases h
      | cons i is =>
          obtain ⟨rfl, hrest⟩ := List.cons.inj h
          obtain ⟨xs, ys, rfl, rfl, rfl⟩ := ih hrest
          exact ⟨i :: xs, ys, rfl, rfl, rfl⟩

/-- **Invariants.** What every admissible step keeps holds before and after every step. -/
theorem history_invariant_of_events {I : σ → Prop} {C : Event ι σ ο → Prop}
    (hstep : ∀ i s, C ⟨i, s, (exec i s).1, (exec i s).2⟩ → I s → I (exec i s).2) {s : σ}
    {is : List ι} (hC : ∀ ev ∈ history exec s is, C ev) (h0 : I s) :
    ∀ ev ∈ history exec s is, I ev.before ∧ I ev.after := by
  induction is generalizing s with
  | nil => intro ev hev; cases hev
  | cons i is ih =>
      have h1 := hstep i s (hC _ List.mem_cons_self) h0
      intro ev hev
      rcases List.mem_cons.mp hev with rfl | hev
      · exact ⟨h0, h1⟩
      · exact ih (fun ev hev => hC ev (List.mem_cons_of_mem _ hev)) h1 ev hev

/-- The same where it is the inputs that are admissible. -/
theorem history_invariant {I : σ → Prop} {C : ι → Prop}
    (hstep : ∀ i s, C i → I s → I (exec i s).2) {s : σ} {is : List ι} (hC : ∀ i ∈ is, C i)
    (h0 : I s) : ∀ ev ∈ history exec s is, I ev.before ∧ I ev.after :=
  history_invariant_of_events (C := fun ev => C ev.input) (fun i s hc hI => hstep i s hc hI)
    (fun _ hev => hC _ (history_event hev).1) h0

theorem final_invariant {I : σ → Prop} {C : ι → Prop}
    (hstep : ∀ i s, C i → I s → I (exec i s).2) {s : σ} {is : List ι} (hC : ∀ i ∈ is, C i)
    (h0 : I s) : I (final exec s is) := by
  induction is generalizing s with
  | nil => exact h0
  | cons i is ih =>
      exact ih (fun j hj => hC j (List.mem_cons_of_mem _ hj))
        (hstep i s (hC i List.mem_cons_self) h0)

/-- **Potentials.** If no admissible step lowers `φ` and every step with `P` raises it, the steps
with `P` are at most as many as `φ` has grown. -/
theorem history_count {I : σ → Prop} {C : ι → Prop} {P : Event ι σ ο → Bool} {φ : σ → Nat}
    (hI : ∀ i s, I s → I (exec i s).2)
    (hstep : ∀ i s, C i → I s →
      φ s + (if P ⟨i, s, (exec i s).1, (exec i s).2⟩ then 1 else 0) ≤ φ (exec i s).2)
    {s : σ} {is : List ι} (hC : ∀ i ∈ is, C i) (h0 : I s) :
    φ s + (history exec s is).countP P ≤ φ (final exec s is) := by
  induction is generalizing s with
  | nil => exact Nat.le_refl _
  | cons i is ih =>
      have hone := hstep i s (hC i List.mem_cons_self) h0
      have hrest := ih (fun j hj => hC j (List.mem_cons_of_mem _ hj)) (hI i s h0)
      rw [history, List.countP_cons, final]
      omega

/-- **From then on.** What a step brought about and every admissible step keeps holds at every
later step. -/
theorem history_since {I : σ → Prop} {C : Event ι σ ο → Prop} {s : σ} {is : List ι}
    {pre post : List (Event ι σ ο)} {ev : Event ι σ ο}
    (hs : history exec s is = pre ++ ev :: post) (h0 : I ev.after)
    (hstep : ∀ i s, C ⟨i, s, (exec i s).1, (exec i s).2⟩ → I s → I (exec i s).2)
    (hC : ∀ b ∈ post, C b) : ∀ b ∈ post, I b.before := by
  induction is generalizing s pre with
  | nil => cases pre <;> cases hs
  | cons i is ih =>
      cases pre with
      | nil =>
          obtain ⟨rfl, rfl⟩ := List.cons.inj hs
          exact fun b hb => (history_invariant_of_events hstep hC h0 b hb).1
      | cons a pre => exact ih (List.cons.inj hs).2

theorem history_since_after {I : σ → Prop} {C : Event ι σ ο → Prop} {s : σ} {is : List ι}
    {pre post : List (Event ι σ ο)} {ev : Event ι σ ο}
    (hs : history exec s is = pre ++ ev :: post) (h0 : I ev.after)
    (hstep : ∀ i s, C ⟨i, s, (exec i s).1, (exec i s).2⟩ → I s → I (exec i s).2)
    (hC : ∀ b ∈ post, C b) : ∀ b ∈ post, I b.after := by
  intro b hb
  have hbefore := history_since hs h0 hstep hC b hb
  have hexec := (history_event (hs ▸ List.mem_append_right _ (List.mem_cons_of_mem _ hb))).2
  obtain ⟨i, s, o, s'⟩ := b
  have hnext := hstep i s (by rw [hexec]; exact hC _ hb) hbefore
  rwa [hexec] at hnext

/-- A relation every step respects holds from the start to every step. -/
theorem history_related {I : σ → Prop} {R : σ → σ → Prop} (hI : ∀ i s, I s → I (exec i s).2)
    (htrans : ∀ a b c, R a b → R b c → R a c) (hstep : ∀ i s, I s → R s (exec i s).2)
    {r s : σ} {is : List ι} (h0 : I s) (hr : R r s) :
    ∀ ev ∈ history exec s is, R r ev.before := by
  induction is generalizing s with
  | nil => intro ev hev; cases hev
  | cons i is ih =>
      intro ev hev
      rcases List.mem_cons.mp hev with rfl | hev
      · exact hr
      · exact ih (hI i s h0) (htrans _ _ _ hr (hstep i s h0)) ev hev

/-- **Relations over time.** A relation every step respects holds from the end of a step to
the beginning of every later one. -/
theorem history_pairwise {I : σ → Prop} {R : σ → σ → Prop} (hI : ∀ i s, I s → I (exec i s).2)
    (hrefl : ∀ a, R a a) (htrans : ∀ a b c, R a b → R b c → R a c)
    (hstep : ∀ i s, I s → R s (exec i s).2) {s : σ} {is : List ι} (h0 : I s) :
    (history exec s is).Pairwise fun a b => R a.after b.before := by
  induction is generalizing s with
  | nil => exact .nil
  | cons i is ih =>
      exact .cons (history_related hI htrans hstep (hI i s h0) (hrefl _)) (ih (hI i s h0))

/-- **Causes.** A fact that holds at some step and did not hold at the start was brought
about by an earlier step. -/
theorem history_cause {P : σ → Prop} {s : σ} {is : List ι} (h0 : ¬ P s)
    {pre post : List (Event ι σ ο)} {ev : Event ι σ ο}
    (hs : history exec s is = pre ++ ev :: post) (hP : P ev.before) :
    ∃ a ∈ pre, ¬ P a.before ∧ P a.after := by
  induction is generalizing s pre with
  | nil => cases pre <;> cases hs
  | cons i is ih =>
      cases pre with
      | nil =>
          obtain ⟨rfl, -⟩ := List.cons.inj hs
          exact (h0 hP).elim
      | cons a pre =>
          obtain ⟨rfl, hrest⟩ := List.cons.inj hs
          by_cases h1 : P (exec i s).2
          · exact ⟨_, List.mem_cons_self, h0, h1⟩
          · obtain ⟨a, ha, h⟩ := ih h1 hrest
            exact ⟨a, List.mem_cons_of_mem _ ha, h⟩

/-- What holds at the end and did not hold at the start has a last cause: since then it has
held. -/
theorem final_last_cause {P : σ → Prop} {s : σ} {is : List ι} (h0 : ¬ P s)
    (hP : P (final exec s is)) :
    ∃ pre a mid, history exec s is = pre ++ a :: mid ∧ ¬ P a.before ∧ P a.after ∧
      ∀ b ∈ mid, P b.after := by
  induction is using List.reverseRecOn with
  | nil => exact (h0 hP).elim
  | append_singleton xs i ih =>
      rw [history_append]
      rw [final_append] at hP
      by_cases hlast : P (final exec s xs)
      · obtain ⟨pre, a, mid, hs, hbefore, hafter, hmid⟩ := ih hlast
        refine ⟨pre, a, mid ++ history exec (final exec s xs) [i], ?_, hbefore, hafter, ?_⟩
        · rw [hs, List.append_assoc, List.cons_append]
        · intro b hb
          rcases List.mem_append.mp hb with hb | hb
          · exact hmid b hb
          · rw [List.mem_singleton.mp hb]
            exact hP
      · exact ⟨history exec s xs, _, [], rfl, hlast, hP, fun b hb => by cases hb⟩

theorem history_last_cause {P : σ → Prop} {s : σ} {is : List ι} (h0 : ¬ P s)
    {pre post : List (Event ι σ ο)} {ev : Event ι σ ο}
    (hs : history exec s is = pre ++ ev :: post) (hP : P ev.before) :
    ∃ pre' a mid, pre = pre' ++ a :: mid ∧ ¬ P a.before ∧ P a.after ∧ ∀ b ∈ mid, P b.after := by
  obtain ⟨xs, ys, -, rfl, hrest⟩ := history_split hs
  cases ys with
  | nil => cases hrest
  | cons i ys =>
      obtain ⟨rfl, -⟩ := List.cons.inj hrest
      exact final_last_cause h0 hP

end Phragma.Lib
