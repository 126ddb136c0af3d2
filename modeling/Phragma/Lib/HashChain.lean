import Mathlib.Tactic.Common
import Mathlib.Data.List.Basic

/-!
# Phragma.Lib.HashChain

**Hash chains.** The entries of a log carry the hash of the entry before them and a hash of
their own, which seals everything else. `Linked` is what a verifier checks from a given
starting hash on, `tip` is the hash it ends with.

The theorem about them is **commitment** (`linked_unique`): where a sealed entry is
determined by its hash, the tip and the length determine the whole chain, and with it the
place where it started.
-/

namespace Phragma.Lib

variable {ε η : Type} (prev hash : ε → η) (Sealed : ε → Prop)

/-- The chain from `p` on: every entry names the hash before it and is sealed. -/
def Linked : η → List ε → Prop
  | _, [] => True
  | p, e :: es => prev e = p ∧ Sealed e ∧ Linked (hash e) es

/-- The hash a chain from `p` ends with. -/
def tip : η → List ε → η
  | p, [] => p
  | _, e :: es => tip (hash e) es

variable {prev hash Sealed}

theorem tip_append (p : η) (es fs : List ε) : tip hash p (es ++ fs) = tip hash (tip hash p es) fs := by
  induction es generalizing p with
  | nil => rfl
  | cons e es ih => exact ih (hash e)

theorem linked_append {p : η} {es fs : List ε} :
    Linked prev hash Sealed p (es ++ fs) ↔
      Linked prev hash Sealed p es ∧ Linked prev hash Sealed (tip hash p es) fs := by
  induction es generalizing p with
  | nil => simp [Linked, tip]
  | cons e es ih => simp only [List.cons_append, Linked, tip, ih, and_assoc]

theorem linked_singleton {p : η} {e : ε} :
    Linked prev hash Sealed p [e] ↔ prev e = p ∧ Sealed e := by
  simp [Linked]

theorem Linked.sealed {p : η} {es : List ε} (h : Linked prev hash Sealed p es) :
    ∀ e ∈ es, Sealed e := by
  induction es generalizing p with
  | nil => intro e he; cases he
  | cons e es ih =>
      intro f hf
      rcases List.mem_cons.mp hf with rfl | hf
      · exact h.2.1
      · exact ih h.2.2 f hf

/-- **Commitment.** Where a hash determines the entry it seals, two chains of one length
that end with the same hash are the same chain, and started from the same hash. -/
theorem linked_unique {es fs : List ε} {p q : η} (he : Linked prev hash Sealed p es)
    (hf : Linked prev hash Sealed q fs) (hlen : es.length = fs.length)
    (htip : tip hash p es = tip hash q fs)
    (hinj : ∀ e ∈ es, ∀ f ∈ fs, Sealed e → Sealed f → hash e = hash f → e = f) :
    es = fs ∧ p = q := by
  induction es generalizing fs p q with
  | nil =>
      cases fs with
      | nil => exact ⟨rfl, htip⟩
      | cons f fs => cases hlen
  | cons e es ih =>
      cases fs with
      | nil => cases hlen
      | cons f fs =>
          -- the tails commit to their starting hash, which is the hash of the heads
          obtain ⟨rfl, hhash⟩ := ih he.2.2 hf.2.2 (Nat.succ.inj hlen) htip fun a ha b hb =>
            hinj a (List.mem_cons_of_mem _ ha) b (List.mem_cons_of_mem _ hb)
          obtain rfl := hinj e List.mem_cons_self f List.mem_cons_self he.2.1 hf.2.1 hhash
          exact ⟨rfl, he.1.symm.trans hf.1⟩

/-- The tip of a chain is where it started, or the hash of its last entry. -/
theorem tip_cases (p : η) (es : List ε) :
    (es = [] ∧ tip hash p es = p) ∨ ∃ es' e, es = es' ++ [e] ∧ tip hash p es = hash e := by
  rcases List.eq_nil_or_concat es with rfl | ⟨es', e, rfl⟩
  · exact .inl ⟨rfl, rfl⟩
  · refine .inr ⟨es', e, List.concat_eq_append, ?_⟩
    rw [List.concat_eq_append, tip_append]
    rfl

end Phragma.Lib
