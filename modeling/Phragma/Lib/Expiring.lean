import Mathlib
import Phragma.Lib.Resolve

/-!
# Phragma.Lib.Expiring

**Tables of entries that expire**, bounded in number: a table drops what has expired, takes a new
entry, and then evicts entries until it is within its bound.

What is evicted is chosen by a function given to `evict`. If that function finds an oldest entry
(`PicksOldest`), the entries that go are exactly the oldest ones (`evict_spec`): each of them is
older than each that stays, and no more of them go than have to.
-/

namespace Phragma.Lib

/-- A finite map, as the list of its entries. -/
structure Table (κ ν : Type) where
  entries : List (κ × ν)
  nodup : (entries.map Prod.fst).Nodup
  deriving DecidableEq

namespace Table

variable {κ ν : Type}

def empty : Table κ ν := ⟨[], List.nodup_nil⟩

def size (t : Table κ ν) : Nat := t.entries.length

/-- The entries that satisfy `p`. -/
def restrict (p : κ × ν → Bool) (t : Table κ ν) : Table κ ν where
  entries := t.entries.filter p
  nodup := t.nodup.sublist (List.filter_sublist.map Prod.fst)

theorem mem_restrict {p : κ × ν → Bool} {t : Table κ ν} {e : κ × ν} :
    e ∈ (t.restrict p).entries ↔ e ∈ t.entries ∧ p e = true :=
  List.mem_filter

/-- Drop what has expired: an entry is good strictly before its expiry. -/
def reap (expires : ν → Int) (now : Int) (t : Table κ ν) : Table κ ν :=
  t.restrict fun e => decide (now < expires e.2)

theorem mem_reap {expires : ν → Int} {now : Int} {t : Table κ ν} {e : κ × ν} :
    e ∈ (t.reap expires now).entries ↔ e ∈ t.entries ∧ now < expires e.2 := by
  rw [reap, mem_restrict, decide_eq_true_iff]

variable [LinearOrder κ]

def get (t : Table κ ν) (k : κ) : Option ν := t.entries.lookup k

def remove (k : κ) (t : Table κ ν) : Table κ ν := t.restrict fun e => decide (e.1 ≠ k)

/-- Enter a value under a key, in place of what was there. -/
def put (k : κ) (v : ν) (t : Table κ ν) : Table κ ν where
  entries := (k, v) :: (t.remove k).entries
  nodup := by
    refine List.nodup_cons.mpr ⟨fun h => ?_, (t.remove k).nodup⟩
    obtain ⟨e, he, hk⟩ := List.mem_map.mp h
    exact of_decide_eq_true (List.mem_filter.mp he).2 hk

/-- Remove the entries `oldest` names, one after another, while there are more than `max`. The
fuel bounds the number of rounds. -/
def evictLoop (oldest : List (κ × ν) → Option κ) (max : Nat) : Nat → Table κ ν → Table κ ν
  | 0, t => t
  | fuel + 1, t =>
      if max < t.size then
        match oldest t.entries with
        | some k => evictLoop oldest max fuel (t.remove k)
        | none => t
      else t

/-- Each round removes an entry, so that there are at most as many rounds as entries. -/
def evict (oldest : List (κ × ν) → Option κ) (max : Nat) (t : Table κ ν) : Table κ ν :=
  evictLoop oldest max t.size t

/-! ### Lookups -/

theorem get_eq_some {t : Table κ ν} {k : κ} {v : ν} : t.get k = some v ↔ (k, v) ∈ t.entries :=
  ⟨mem_of_lookup, lookup_of_mem t.nodup⟩

theorem eq_of_mem {t : Table κ ν} {k : κ} {v w : ν} (hv : (k, v) ∈ t.entries)
    (hw : (k, w) ∈ t.entries) : v = w :=
  Option.some.inj ((get_eq_some.mpr hv).symm.trans (get_eq_some.mpr hw))

theorem get_empty (k : κ) : (empty : Table κ ν).get k = none := rfl

theorem mem_remove {k : κ} {t : Table κ ν} {e : κ × ν} :
    e ∈ (t.remove k).entries ↔ e ∈ t.entries ∧ e.1 ≠ k := by
  rw [remove, mem_restrict, decide_eq_true_iff]

theorem mem_put {k : κ} {v : ν} {t : Table κ ν} {e : κ × ν} :
    e ∈ (t.put k v).entries ↔ e = (k, v) ∨ e ∈ t.entries ∧ e.1 ≠ k := by
  rw [put, List.mem_cons, mem_remove]

theorem get_remove_self (k : κ) (t : Table κ ν) : (t.remove k).get k = none := by
  rw [Option.eq_none_iff_forall_ne_some]
  intro v hv
  exact (mem_remove.mp (get_eq_some.mp hv)).2 rfl

theorem mem_evictLoop {oldest : List (κ × ν) → Option κ} {max fuel : Nat} {t : Table κ ν}
    {e : κ × ν} (he : e ∈ (evictLoop oldest max fuel t).entries) : e ∈ t.entries := by
  induction fuel generalizing t with
  | zero => exact he
  | succ fuel ih =>
      rw [evictLoop] at he
      split at he
      · split at he
        · exact (mem_remove.mp (ih he)).1
        · exact he
      · exact he

theorem mem_evict {oldest : List (κ × ν) → Option κ} {max : Nat} {t : Table κ ν} {e : κ × ν}
    (he : e ∈ (evict oldest max t).entries) : e ∈ t.entries :=
  mem_evictLoop he

/-! ### Eviction

Evicting one entry at a time takes the oldest ones, in order. -/

section Evict

variable {expires : ν → Int} {oldest : List (κ × ν) → Option κ} {max : Nat}

/-- Earlier expiry, and of two entries that expire together the one with the smaller key. -/
def Older (expires : ν → Int) (a b : κ × ν) : Prop :=
  expires a.2 < expires b.2 ∨ expires a.2 = expires b.2 ∧ a.1 < b.1

theorem Older.irrefl {a : κ × ν} : ¬ Older expires a a := by
  rintro (h | ⟨-, h⟩)
  · exact Int.lt_irrefl _ h
  · exact lt_irrefl _ h

theorem Older.trans {a b c : κ × ν} (hab : Older expires a b) (hbc : Older expires b c) :
    Older expires a c := by
  rcases hab with hab | ⟨hab, kab⟩
  · rcases hbc with hbc | ⟨hbc, -⟩
    · exact .inl (Int.lt_trans hab hbc)
    · exact .inl (hbc ▸ hab)
  · rcases hbc with hbc | ⟨hbc, kbc⟩
    · exact .inl (hab ▸ hbc)
    · exact .inr ⟨hab.trans hbc, lt_trans kab kbc⟩

/-- Entries with different keys are ordered. -/
theorem Older.of_not {a b : κ × ν} (hne : a.1 ≠ b.1) (h : ¬ Older expires a b) :
    Older expires b a := by
  rcases Int.lt_trichotomy (expires a.2) (expires b.2) with hlt | heq | hgt
  · exact (h (.inl hlt)).elim
  · rcases lt_or_gt_of_ne hne with hk | hk
    · exact (h (.inr ⟨heq, hk⟩)).elim
    · exact .inr ⟨heq.symm, hk⟩
  · exact .inl hgt

/-- Among entries with distinct keys, of which `good` is true, `oldest` finds the oldest. -/
def PicksOldest (expires : ν → Int) (good : κ → Prop) (oldest : List (κ × ν) → Option κ) : Prop :=
  ∀ l : List (κ × ν), l ≠ [] → (l.map Prod.fst).Nodup → (∀ e ∈ l, good e.1) →
    ∃ e ∈ l, oldest l = some e.1 ∧ ∀ e' ∈ l, e' ≠ e → Older expires e e'

theorem size_remove {t : Table κ ν} {e : κ × ν} (he : e ∈ t.entries) :
    (t.remove e.1).size + 1 = t.size := by
  obtain ⟨l, hnd⟩ := t
  show (l.filter fun x => decide (x.1 ≠ e.1)).length + 1 = l.length
  change e ∈ l at he
  induction l with
  | nil => cases he
  | cons a l ih =>
      rw [List.map_cons, List.nodup_cons] at hnd
      rcases List.mem_cons.mp he with rfl | hmem
      · have hall : (l.filter fun x => decide (x.1 ≠ e.1)) = l := by
          rw [List.filter_eq_self]
          intro x hx
          exact decide_eq_true fun h => hnd.1 (h ▸ List.mem_map_of_mem hx)
        rw [List.filter_cons_of_neg (by simp), hall, List.length_cons]
      · have hne : a.1 ≠ e.1 := fun h => hnd.1 (h ▸ List.mem_map_of_mem hmem)
        rw [List.filter_cons_of_pos (by simpa using hne), List.length_cons, ih hnd.2 hmem,
          List.length_cons]

/-- What is left after an eviction. -/
structure Evicted (expires : ν → Int) (max : Nat) (t r : Table κ ν) : Prop where
  /-- Nothing is added and nothing changed. -/
  sublist : r.entries.Sublist t.entries
  /-- No more is evicted than has to be. -/
  size : r.size = min t.size max
  /-- What is evicted is older than what stays. -/
  oldest : ∀ e ∈ t.entries, e ∉ r.entries → ∀ e' ∈ r.entries, Older expires e e'

theorem Evicted.refl {t : Table κ ν} (h : t.size ≤ max) : Evicted expires max t t :=
  ⟨List.Sublist.refl _, (Nat.min_eq_left h).symm, fun _ he hne => absurd he hne⟩

theorem Evicted.mem {t r : Table κ ν} (h : Evicted expires max t r) {e : κ × ν}
    (he : e ∈ r.entries) : e ∈ t.entries :=
  h.sublist.subset he

/-- An eviction after the removal of the oldest entry is an eviction. -/
theorem Evicted.of_remove {t r : Table κ ν} {e : κ × ν} (hlt : max < t.size) (he : e ∈ t.entries)
    (hold : ∀ e' ∈ t.entries, e' ≠ e → Older expires e e')
    (h : Evicted expires max (t.remove e.1) r) : Evicted expires max t r := by
  have hsize := size_remove he
  refine ⟨h.sublist.trans List.filter_sublist, ?_, fun x hx hxr y hy => ?_⟩
  · rw [h.size]
    omega
  · obtain ⟨hyt, hyk⟩ := mem_remove.mp (h.mem hy)
    by_cases hxe : x.1 = e.1
    · have heq : x = e := Prod.ext hxe (eq_of_mem (t := t) hx (hxe ▸ he))
      exact heq ▸ hold y hyt fun hye => hyk (congrArg Prod.fst hye)
    · exact h.oldest x (mem_remove.mpr ⟨hx, hxe⟩) hxr y hy

theorem evictLoop_spec {good : κ → Prop} (hpick : PicksOldest expires good oldest) {fuel : Nat}
    {t : Table κ ν} (hfuel : t.size ≤ fuel) (hgood : ∀ e ∈ t.entries, good e.1) :
    Evicted expires max t (evictLoop oldest max fuel t) := by
  induction fuel generalizing t with
  | zero => exact .refl (Nat.le_trans hfuel (Nat.zero_le _))
  | succ fuel ih =>
      rw [evictLoop]
      by_cases hlt : max < t.size
      · rw [if_pos hlt]
        have hne : t.entries ≠ [] := fun h => by
          rw [size, h, List.length_nil] at hlt
          exact Nat.not_lt_zero _ hlt
        obtain ⟨e, he, hsome, hold⟩ := hpick t.entries hne t.nodup hgood
        simp only [hsome]
        refine .of_remove hlt he hold (ih ?_ fun e' he' => hgood e' (mem_remove.mp he').1)
        have hsize := size_remove he
        omega
      · rw [if_neg hlt]
        exact .refl (Nat.le_of_not_lt hlt)

/-- **Eviction takes the oldest entries**, as many as are too many. -/
theorem evict_spec {good : κ → Prop} (hpick : PicksOldest expires good oldest) {t : Table κ ν}
    (hgood : ∀ e ∈ t.entries, good e.1) : Evicted expires max t (evict oldest max t) :=
  evictLoop_spec hpick (Nat.le_refl _) hgood

/-- An entry that no other is younger than stays, if anything may. -/
theorem Evicted.newest_mem {t r : Table κ ν} (h : Evicted expires max t r) (hmax : 0 < max)
    {e : κ × ν} (he : e ∈ t.entries) (hnew : ∀ e' ∈ t.entries, e' ≠ e → Older expires e' e) :
    e ∈ r.entries := by
  by_contra hgone
  have hpos : 0 < t.size := List.length_pos_of_mem he
  have hr : 0 < r.size := by
    rw [h.size]
    exact Nat.lt_min.mpr ⟨hpos, hmax⟩
  obtain ⟨e', he'⟩ := List.exists_mem_of_length_pos hr
  have hne : e' ≠ e := fun heq => hgone (heq ▸ he')
  exact Older.irrefl ((hnew e' (h.mem he') hne).trans (h.oldest e he hgone e' he'))

end Evict

end Table

end Phragma.Lib
