import Mathlib.Tactic.Common
import Mathlib.Data.List.Basic
import Mathlib.Data.List.Nodup
import Mathlib.Data.List.Perm.Subperm

/-!
# Phragma.Lib.Allot

**First come, first served allocation of names.** Each of a list of claimants has an
endless list of wishes; they are served in order, and each gets the first of its wishes
that nobody before it got and that was not taken from the start.

`Allotted` is that allocation as a relation. Two questions about it have answers that do
not run it:

* `Allotted.nodup`: the names given out are pairwise different and were free at the start;
* `Allotted.claimed_iff`: a name is gone before position `i` exactly when it is
  `Claimed`, that is, when there is a chain of claimants before `i`, each of which is
  driven to the name in question because everything it would rather have is gone before
  its own turn. `Claimed` is an inductive predicate without negation, so such a chain is a
  finite derivation.

`exists_free` is the pigeonhole argument that makes a search among numbered wishes end.
-/

namespace Phragma.Lib

variable {κ : Type}

/-- More different wishes than names taken: one of them is free. -/
theorem exists_free {taken : List κ} {wish : Nat → κ}
    (hinj : ∀ i j, i ≤ taken.length → j ≤ taken.length → wish i = wish j → i = j) :
    ∃ i ≤ taken.length, wish i ∉ taken := by
  by_contra hall
  push Not at hall
  have hnodup : ((List.range (taken.length + 1)).map wish).Nodup := by
    refine List.Nodup.map_on ?_ List.nodup_range
    intro i hi j hj h
    rw [List.mem_range] at hi hj
    exact hinj i j (by omega) (by omega) h
  have hsub : (List.range (taken.length + 1)).map wish ⊆ taken := by
    intro x hx
    obtain ⟨i, hi, rfl⟩ := List.mem_map.mp hx
    rw [List.mem_range] at hi
    exact hall i (by omega)
  have hlen := (List.subperm_of_subset hnodup hsub).length_le
  simp only [List.length_map, List.length_range] at hlen
  omega

/-- The claimants are served in order; each gets its first wish that is not `taken`. -/
inductive Allotted : List κ → List (Nat → κ) → List κ → Prop
  | nil (taken : List κ) : Allotted taken [] []
  | cons {taken : List κ} {wish : Nat → κ} {wishes : List (Nat → κ)} {names : List κ} (j : Nat)
      (free : wish j ∉ taken) (gone : ∀ i < j, wish i ∈ taken)
      (rest : Allotted (wish j :: taken) wishes names) :
      Allotted taken (wish :: wishes) (wish j :: names)

/-- A name is **claimed** before position `i`: it was taken from the start, or some
claimant before `i` wishes for it and everything it would rather have is claimed before
that claimant's own position. -/
inductive Claimed (taken : List κ) (wishes : List (Nat → κ)) : Nat → κ → Prop
  | taken {i : Nat} {x : κ} (h : x ∈ taken) : Claimed taken wishes i x
  | wish {i h j : Nat} {w : Nat → κ} (hlt : h < i) (hw : wishes[h]? = some w)
      (gone : ∀ k < j, Claimed taken wishes h (w k)) : Claimed taken wishes i (w j)

/-- What a list starts with, by position. -/
theorem mem_take_iff_getElem? {l : List κ} {i : Nat} {x : κ} :
    x ∈ l.take i ↔ ∃ h < i, l[h]? = some x := by
  constructor
  · intro hx
    obtain ⟨h, hh⟩ := List.mem_iff_getElem?.mp hx
    rw [List.getElem?_take] at hh
    split at hh
    · exact ⟨h, by assumption, hh⟩
    · cases hh
  · rintro ⟨h, hlt, hh⟩
    refine List.mem_iff_getElem?.mpr ⟨h, ?_⟩
    rw [List.getElem?_take, if_pos hlt, hh]

namespace Allotted

variable {taken : List κ} {wishes : List (Nat → κ)} {names : List κ}

theorem length_eq (h : Allotted taken wishes names) : names.length = wishes.length := by
  induction h with
  | nil taken => rfl
  | cons j free gone rest ih => rw [List.length_cons, List.length_cons, ih]

/-- Nothing is given out twice, and nothing that was taken. -/
theorem nodup (h : Allotted taken wishes names) : names.Nodup ∧ ∀ x ∈ names, x ∉ taken := by
  induction h with
  | nil taken => exact ⟨List.nodup_nil, fun x hx => by cases hx⟩
  | @cons taken w wishes names j free gone rest ih =>
      refine ⟨List.nodup_cons.mpr ⟨?_, ih.1⟩, ?_⟩
      · intro hmem
        exact ih.2 _ hmem List.mem_cons_self
      · intro x hx
        rcases List.mem_cons.mp hx with rfl | hx
        · exact free
        · exact fun ht => ih.2 x hx (List.mem_cons_of_mem _ ht)

/-- Two groups of claimants, one after the other. -/
theorem append {wishes' : List (Nat → κ)} {names' : List κ} (h : Allotted taken wishes names) :
    Allotted (names.reverse ++ taken) wishes' names' →
      Allotted taken (wishes ++ wishes') (names ++ names') := by
  induction h with
  | nil taken => exact id
  | cons j free gone rest ih =>
      intro h'
      rw [List.reverse_cons, List.append_assoc, List.singleton_append] at h'
      exact .cons j free gone (ih h')

/-- What the claimant at position `h` got: its first wish that was not taken at the start
and not given to a claimant before it. -/
theorem getElem? (hall : Allotted taken wishes names) : ∀ {h : Nat} {w : Nat → κ},
    wishes[h]? = some w → ∃ j, names[h]? = some (w j) ∧
      (w j ∉ taken ∧ w j ∉ names.take h) ∧ ∀ k < j, w k ∈ taken ∨ w k ∈ names.take h := by
  induction hall with
  | nil taken => intro h w hw; cases hw
  | @cons taken w₀ wishes names j free gone rest ih =>
      intro h w hw
      cases h with
      | zero =>
          rw [List.getElem?_cons_zero, Option.some.injEq] at hw
          subst hw
          exact ⟨j, rfl, ⟨free, List.not_mem_nil⟩, fun k hk => .inl (gone k hk)⟩
      | succ h =>
          rw [List.getElem?_cons_succ] at hw
          obtain ⟨k, hk, ⟨hfree, hnew⟩, hgone⟩ := ih hw
          refine ⟨k, hk, ⟨?_, ?_⟩, ?_⟩
          · exact fun ht => hfree (List.mem_cons_of_mem _ ht)
          · rw [List.take_succ_cons, List.mem_cons, not_or]
            exact ⟨fun he => hfree (he ▸ List.mem_cons_self), hnew⟩
          · intro i hi
            rw [List.take_succ_cons, List.mem_cons]
            rcases hgone i hi with h | h
            · rcases List.mem_cons.mp h with h | h
              · exact .inr (.inl h)
              · exact .inl h
            · exact .inr (.inr h)

/-- Claimed names are gone. -/
theorem gone_of_claimed (hall : Allotted taken wishes names) {i : Nat} {x : κ}
    (h : Claimed taken wishes i x) : x ∈ taken ∨ x ∈ names.take i := by
  induction h with
  | taken h => exact .inl h
  | @wish i h j w hlt hw gone ih =>
      obtain ⟨k, hk, ⟨hfree, hnew⟩, hgone⟩ := hall.getElem? hw
      have hmono : ∀ {x : κ}, x ∈ names.take h → x ∈ names.take i := by
        intro x hx
        exact (List.take_prefix_take_left (Nat.le_of_lt hlt)).subset hx
      rcases Nat.lt_trichotomy j k with hjk | rfl | hjk
      · exact (hgone j hjk).imp_right hmono
      · exact .inr (mem_take_iff_getElem?.mpr ⟨h, hlt, hk⟩)
      · -- the claimant would have stopped earlier
        rcases ih k hjk with h | h
        · exact absurd h hfree
        · exact absurd h hnew

/-- Names given out were claimed. -/
theorem claimed_of_mem_take (hall : Allotted taken wishes names) : ∀ {i : Nat} {x : κ},
    x ∈ names.take i → Claimed taken wishes i x := by
  intro i
  induction i using Nat.strongRecOn with
  | ind i ih =>
      intro x hx
      obtain ⟨h, hlt, hxh⟩ := mem_take_iff_getElem?.mp hx
      have hw : h < wishes.length := by
        rw [← hall.length_eq]
        exact (List.getElem?_eq_some_iff.mp hxh).1
      obtain ⟨k, hk, -, hgone⟩ := hall.getElem? (List.getElem?_eq_getElem hw)
      obtain rfl : wishes[h] k = x := by rw [hxh, Option.some.injEq] at hk; exact hk.symm
      refine .wish hlt (List.getElem?_eq_getElem hw) fun j hj => ?_
      rcases hgone j hj with hj | hj
      · exact .taken hj
      · exact ih h hlt hj

/-- **What is gone before a position is what is claimed before it.** -/
theorem claimed_iff (hall : Allotted taken wishes names) {i : Nat} {x : κ} :
    Claimed taken wishes i x ↔ x ∈ taken ∨ x ∈ names.take i := by
  constructor
  · exact hall.gone_of_claimed
  · rintro (h | h)
    · exact .taken h
    · exact hall.claimed_of_mem_take h

/-- A claimant gets its first wish exactly when that wish is not claimed before it. -/
theorem first_iff (hall : Allotted taken wishes names) {i : Nat} {w : Nat → κ}
    (hw : wishes[i]? = some w) : names[i]? = some (w 0) ↔ ¬ Claimed taken wishes i (w 0) := by
  obtain ⟨j, hj, ⟨hfree, hnew⟩, hgone⟩ := hall.getElem? hw
  rw [hall.claimed_iff, hj, Option.some.injEq]
  constructor
  · intro h
    rw [← h]
    exact not_or.mpr ⟨hfree, hnew⟩
  · intro h
    cases j with
    | zero => rfl
    | succ j => exact absurd (hgone 0 (Nat.succ_pos j)) h

end Allotted

end Phragma.Lib
