import Mathlib.Data.List.Perm.Basic
import Mathlib.Data.List.Nodup
import Mathlib.Data.List.Induction
import Mathlib.Data.List.Perm.Subperm

/-!
# Phragma.Lib.Grouping

**Folding a list into keyed groups**: the first element of a key starts a group, and every element
is merged into the group of its key.

A group as a whole may depend on the order of its elements. What is read of it by a `view` does not
if the view of a new group is decided by its key and elements merge into the view in any order; then
the groups of a list and of a permutation of it look the same, in some order (`perm_groupAll`).
-/

namespace Phragma.Lib

variable {α κ σ τ : Type} [DecidableEq κ] {key : α → κ} {first : α → σ} {step : σ → α → σ}

/-- One more element: merged into the group of its key, or into a new one. -/
def addToGroup (key : α → κ) (first : α → σ) (step : σ → α → σ) :
    List (κ × σ) → α → List (κ × σ)
  | [], a => [(key a, step (first a) a)]
  | g :: gs, a =>
      if g.1 = key a then (g.1, step g.2 a) :: gs else g :: addToGroup key first step gs a

/-- The groups of a list, in the order of their first elements. -/
def groupAll (key : α → κ) (first : α → σ) (step : σ → α → σ) (items : List α) : List (κ × σ) :=
  items.foldl (addToGroup key first step) []

/-! ### One element -/

/-- The keys after one more element. -/
theorem map_fst_addToGroup (gs : List (κ × σ)) (a : α) :
    (addToGroup key first step gs a).map Prod.fst =
      if key a ∈ gs.map Prod.fst then gs.map Prod.fst else gs.map Prod.fst ++ [key a] := by
  induction gs with
  | nil => rfl
  | cons g gs ih =>
      rw [addToGroup]
      by_cases hkey : g.1 = key a
      · simp [hkey]
      · rw [if_neg hkey, List.map_cons, ih, List.map_cons]
        have hne : ¬ key a = g.1 := fun h => hkey h.symm
        by_cases hmem : key a ∈ gs.map Prod.fst
        · rw [if_pos hmem, if_pos (List.mem_cons_of_mem _ hmem)]
        · rw [if_neg hmem, if_neg (by simp [hne, hmem]), List.cons_append]

/-- A group after one more element was there before, or is new, or is the one merged into. -/
theorem mem_addToGroup {gs : List (κ × σ)} {a : α} {g : κ × σ} (hnodup : (gs.map Prod.fst).Nodup)
    (h : g ∈ addToGroup key first step gs a) :
    (g ∈ gs ∧ g.1 ≠ key a) ∨ (g = (key a, step (first a) a) ∧ key a ∉ gs.map Prod.fst) ∨
      ∃ s, (key a, s) ∈ gs ∧ g = (key a, step s a) := by
  induction gs with
  | nil => exact .inr (.inl ⟨List.mem_singleton.mp h, List.not_mem_nil⟩)
  | cons g' gs ih =>
      rw [List.map_cons, List.nodup_cons] at hnodup
      rw [addToGroup] at h
      split at h
      · next hkey =>
          rcases List.mem_cons.mp h with rfl | h
          · refine .inr (.inr ⟨g'.2, ?_, ?_⟩)
            · rw [← hkey]
              exact List.mem_cons_self
            · rw [hkey]
          · refine .inl ⟨List.mem_cons_of_mem _ h, fun heq => hnodup.1 ?_⟩
            rw [hkey, ← heq]
            exact List.mem_map_of_mem h
      · next hkey =>
          rcases List.mem_cons.mp h with rfl | h
          · exact .inl ⟨List.mem_cons_self, hkey⟩
          · rcases ih hnodup.2 h with ⟨hg, hne⟩ | ⟨hg, hnew⟩ | ⟨s, hs, hg⟩
            · exact .inl ⟨List.mem_cons_of_mem _ hg, hne⟩
            · refine .inr (.inl ⟨hg, fun hmem => ?_⟩)
              rcases List.mem_cons.mp hmem with heq | hmem
              · exact hkey heq.symm
              · exact hnew hmem
            · exact .inr (.inr ⟨s, List.mem_cons_of_mem _ hs, hg⟩)

/-! ### A whole list

By induction on the list: a permutation is built of swaps of neighbours, and a swap commutes on
views. -/

/-- The groups of a list have distinct keys. -/
theorem nodup_groupAll (items : List α) : ((groupAll key first step items).map Prod.fst).Nodup := by
  induction items using List.reverseRecOn with
  | nil => exact List.nodup_nil
  | append_singleton items a ih =>
      rw [groupAll, List.foldl_append, List.foldl_cons, List.foldl_nil, map_fst_addToGroup]
      split
      · exact ih
      · next hnew => exact List.nodup_append.mpr ⟨ih, List.nodup_singleton _, by
          rintro k hk b hb rfl
          exact hnew (List.mem_singleton.mp hb ▸ hk)⟩

/-- They are the keys of its elements. -/
theorem mem_keys_groupAll {items : List α} {k : κ} :
    k ∈ (groupAll key first step items).map Prod.fst ↔ ∃ a ∈ items, key a = k := by
  induction items using List.reverseRecOn with
  | nil => simp [groupAll]
  | append_singleton items a ih =>
      rw [groupAll] at ih
      rw [groupAll, List.foldl_append, List.foldl_cons, List.foldl_nil, map_fst_addToGroup]
      by_cases hold : key a ∈ (items.foldl (addToGroup key first step) []).map Prod.fst
      · rw [if_pos hold]
        constructor
        · intro hk
          obtain ⟨b, hb, rfl⟩ := ih.mp hk
          exact ⟨b, List.mem_append_left _ hb, rfl⟩
        · rintro ⟨b, hb, rfl⟩
          rcases List.mem_append.mp hb with hb | hb
          · exact ih.mpr ⟨b, hb, rfl⟩
          · rw [List.mem_singleton.mp hb]
            exact hold
      · rw [if_neg hold, List.mem_append, ih]
        simp [or_and_right, exists_or, eq_comm]

/-- There are no more groups than elements. -/
theorem length_groupAll_le (items : List α) :
    (groupAll key first step items).length ≤ items.length := by
  have hsub : (groupAll key first step items).map Prod.fst ⊆ items.map key := by
    intro k hk
    obtain ⟨a, ha, rfl⟩ := mem_keys_groupAll.mp hk
    exact List.mem_map_of_mem ha
  have hlen := (List.Nodup.subperm (nodup_groupAll items) hsub).length_le
  rwa [List.length_map, List.length_map] at hlen

/-- **An invariant of the groups** holds of what an element starts, and merging keeps it. -/
theorem invariant_groupAll {P : σ → Prop} (hfirst : ∀ a, P (first a))
    (hstep : ∀ s a, P s → P (step s a)) {items : List α} {g : κ × σ}
    (h : g ∈ groupAll key first step items) : P g.2 := by
  induction items using List.reverseRecOn generalizing g with
  | nil => cases h
  | append_singleton items a ih =>
      rw [groupAll, List.foldl_append, List.foldl_cons, List.foldl_nil] at h
      rcases mem_addToGroup (nodup_groupAll items) h with ⟨hg, -⟩ | ⟨rfl, -⟩ | ⟨s, hs, rfl⟩
      · exact ih hg
      · exact hstep _ a (hfirst a)
      · exact hstep s a (ih hs)

section View

variable (view : σ → τ) (start : κ → τ) (merge : τ → α → τ)

/-- **What is read of a group** is its elements merged one after the other. -/
theorem view_of_mem_groupAll {items : List α} (hfirst : ∀ a ∈ items, view (first a) = start (key a))
    (hstep : ∀ s a, view (step s a) = merge (view s) a) {g : κ × σ}
    (h : g ∈ groupAll key first step items) :
    view g.2 = (items.filter fun a => key a = g.1).foldl merge (start g.1) := by
  induction items using List.reverseRecOn generalizing g with
  | nil => cases h
  | append_singleton items a ih =>
      have hbefore := @ih fun b hb => hfirst b (List.mem_append_left _ hb)
      rw [groupAll, List.foldl_append, List.foldl_cons, List.foldl_nil] at h
      rw [List.filter_append, List.foldl_append]
      rcases mem_addToGroup (nodup_groupAll items) h with ⟨hg, hne⟩ | ⟨rfl, hnew⟩ | ⟨s, hs, rfl⟩
      · have hnone : [a].filter (fun a => key a = g.1) = [] := by simp [Ne.symm hne]
        rw [hnone, List.foldl_nil]
        exact hbefore hg
      · -- the first element of its key
        have hnone : items.filter (fun b => key b = key a) = [] := by
          refine List.filter_eq_nil_iff.mpr fun b hb heq => hnew ?_
          exact mem_keys_groupAll.mpr ⟨b, hb, of_decide_eq_true heq⟩
        rw [hnone, hstep, hfirst a (List.mem_append_right _ (List.mem_singleton_self a))]
        simp
      · rw [hstep, hbefore hs]
        simp

/-- **Groups do not depend on the order of the elements.** -/
theorem perm_groupAll {items items' : List α} (hperm : items.Perm items')
    (hfirst : ∀ a ∈ items, view (first a) = start (key a))
    (hstep : ∀ s a, view (step s a) = merge (view s) a)
    (hcomm : ∀ t a b, merge (merge t a) b = merge (merge t b) a) :
    ((groupAll key first step items).map fun g => (g.1, view g.2)).Perm
      ((groupAll key first step items').map fun g => (g.1, view g.2)) := by
  have hread : ∀ l, (∀ a ∈ l, view (first a) = start (key a)) →
      (groupAll key first step l).map (fun g => (g.1, view g.2)) =
        ((groupAll key first step l).map Prod.fst).map fun k =>
          (k, (l.filter fun a => key a = k).foldl merge (start k)) := by
    intro l hl
    rw [List.map_map]
    refine List.map_congr_left fun g hg => ?_
    rw [view_of_mem_groupAll view start merge hl hstep hg]
    rfl
  have hkeys : ((groupAll key first step items).map Prod.fst).Perm
      ((groupAll key first step items').map Prod.fst) := by
    refine (List.perm_ext_iff_of_nodup (nodup_groupAll _) (nodup_groupAll _)).mpr fun k => ?_
    simp only [mem_keys_groupAll, hperm.mem_iff]
  rw [hread items hfirst, hread items' fun a ha => hfirst a (hperm.mem_iff.mpr ha)]
  have hgroup : ∀ k, (items.filter fun a => key a = k).foldl merge (start k) =
      (items'.filter fun a => key a = k).foldl merge (start k) := fun k =>
    (hperm.filter _).foldl_eq' (fun a _ b _ t => hcomm t a b) _
  simp only [hgroup]
  exact hkeys.map _

end View

end Phragma.Lib
