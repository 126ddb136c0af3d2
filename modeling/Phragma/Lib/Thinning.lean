import Mathlib

/-!
# Phragma.Lib.Thinning

**Thinning a list of sets**: going through the list and leaving out every element that an element
kept before covers.

Nothing is lost from the union, since a covered element is contained in one that is kept
(`mem_thin_iff`). When any two elements are either disjoint or the earlier one covers the later
one, as in a family of nested sets that lists the larger ones first, what is kept is pairwise
disjoint (`pairwise_thin`).
-/

namespace Phragma.Lib

variable {α β : Type*} {covers : α → α → Bool}

/-- The elements that no element kept before them covers, after those kept already. -/
def thin (covers : α → α → Bool) : List α → List α → List α
  | kept, [] => kept
  | kept, a :: as =>
      if kept.any fun k => covers k a then thin covers kept as else thin covers (kept ++ [a]) as

/-- What is kept stands in the order of the list. -/
theorem thin_sublist (kept as : List α) : (thin covers kept as).Sublist (kept ++ as) := by
  induction as generalizing kept with
  | nil => simp [thin]
  | cons a as ih =>
      rw [thin]
      split
      · exact (ih kept).trans ((List.sublist_cons_self a as).append_left kept)
      · have h := ih (kept ++ [a])
        rwa [List.append_assoc] at h

/-- What was kept stays. -/
theorem mem_thin_of_kept {kept as : List α} {a : α} (h : a ∈ kept) : a ∈ thin covers kept as := by
  induction as generalizing kept with
  | nil => exact h
  | cons b as ih =>
      rw [thin]
      split
      · exact ih h
      · exact ih (List.mem_append_left _ h)

section Sets

variable (members : α → Set β)

/-- **Thinning keeps the union** when covered elements are contained. -/
theorem mem_thin_iff (hsub : ∀ a b, covers a b = true → members b ⊆ members a) (kept as : List α)
    (x : β) : (∃ a ∈ thin covers kept as, x ∈ members a) ↔ ∃ a ∈ kept ++ as, x ∈ members a := by
  constructor
  · rintro ⟨a, ha, hx⟩
    exact ⟨a, (thin_sublist kept as).subset ha, hx⟩
  · induction as generalizing kept with
    | nil => simp [thin]
    | cons b as ih =>
        rintro ⟨a, ha, hx⟩
        rw [thin]
        split
        · next hany =>
            -- the element that covers `b` is kept, and holds what `b` holds
            obtain ⟨k, hk, hcov⟩ := List.any_eq_true.mp hany
            rcases List.mem_append.mp ha with ha | ha
            · exact ih kept ⟨a, List.mem_append_left _ ha, hx⟩
            · rcases List.mem_cons.mp ha with rfl | ha
              · exact ⟨k, mem_thin_of_kept hk, hsub k a hcov hx⟩
              · exact ih kept ⟨a, List.mem_append_right _ ha, hx⟩
        · exact ih (kept ++ [b]) ⟨a, by simpa using ha, hx⟩

/-- **Thinning leaves disjoint sets** when every element covers the later ones that it meets. -/
theorem pairwise_thin {kept as : List α}
    (hmeet : as.Pairwise fun a b => covers a b = true ∨ Disjoint (members a) (members b))
    (hcross : ∀ k ∈ kept, ∀ a ∈ as, covers k a = true ∨ Disjoint (members k) (members a))
    (hkept : kept.Pairwise fun a b => Disjoint (members a) (members b)) :
    (thin covers kept as).Pairwise fun a b => Disjoint (members a) (members b) := by
  induction as generalizing kept with
  | nil => exact hkept
  | cons a as ih =>
      obtain ⟨hhead, htail⟩ := List.pairwise_cons.mp hmeet
      rw [thin]
      split
      · exact ih htail (fun k hk b hb => hcross k hk b (List.mem_cons_of_mem _ hb)) hkept
      · next hnone =>
          refine ih htail ?_ ?_
          · intro k hk b hb
            rcases List.mem_append.mp hk with hk | hk
            · exact hcross k hk b (List.mem_cons_of_mem _ hb)
            · rw [List.mem_singleton.mp hk]
              exact hhead b hb
          · refine List.pairwise_append.mpr ⟨hkept, List.pairwise_singleton _ _, ?_⟩
            intro k hk b hb
            rw [List.mem_singleton.mp hb]
            have hcov : ¬ covers k a = true := fun h => hnone (List.any_eq_true.mpr ⟨k, hk, h⟩)
            exact (hcross k hk a List.mem_cons_self).resolve_left hcov

end Sets

end Phragma.Lib
