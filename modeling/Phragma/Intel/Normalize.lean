import Mathlib.Data.List.Sort
import Phragma.Go.PrefixOrder
import Phragma.Lib.Thinning

/-!
# Phragma.Intel.Normalize

**Threat-intel prefixes** as they are programmed: `normalizePrefixes` of
`internal/intel/updater.go`.

The feeds' prefixes are the keys of a map, which Go iterates in any order. They are masked,
distinct ones kept, sorted by family, address and length, and thinned against those kept before.
The sort key decides the order, so the list does not depend on the iteration
(`normalizePrefixes_congr`); and in that order a prefix covers every later one it meets, so the
thinned list is disjoint and loses no address (`normalizePrefixes_correct`).
-/

namespace Phragma.Intel

open Go Lib

/-! ### The algorithm -/

/-- The loop over the map: masked prefixes, each one once. -/
def distinctMasked : List Prefix → List Prefix → List Prefix
  | seen, [] => seen
  | seen, p :: ps =>
      if p.masked ∈ seen then distinctMasked seen ps else distinctMasked (seen ++ [p.masked]) ps

/-- The comparison `normalizePrefixes` sorts by. -/
def prefixLess (a b : Prefix) : Bool :=
  if a.addr.is4 ≠ b.addr.is4 then a.addr.is4
  else if a.addr.compare b.addr ≠ .eq then a.addr.compare b.addr == .lt
  else decide (a.bits < b.bits)

/-- `normalizePrefixes`, for the keys of the map in the order they are iterated. -/
def normalizePrefixes (iterated : List Prefix) : List Prefix :=
  thin Prefix.covers []
    ((distinctMasked [] iterated).insertionSort fun a b => prefixLess b a = false)

/-! ### The masked prefixes -/

theorem mem_distinctMasked {seen ps : List Prefix} {q : Prefix} :
    q ∈ distinctMasked seen ps ↔ q ∈ seen ∨ ∃ p ∈ ps, p.masked = q := by
  induction ps generalizing seen with
  | nil => simp [distinctMasked]
  | cons p ps ih =>
      rw [distinctMasked]
      split
      · next hseen =>
          rw [ih]
          constructor
          · rintro (h | ⟨r, hr, rfl⟩)
            · exact .inl h
            · exact .inr ⟨r, List.mem_cons_of_mem _ hr, rfl⟩
          · rintro (h | ⟨r, hr, rfl⟩)
            · exact .inl h
            · rcases List.mem_cons.mp hr with rfl | hr
              · exact .inl hseen
              · exact .inr ⟨r, hr, rfl⟩
      · rw [ih]
        simp [or_assoc, eq_comm]

theorem nodup_distinctMasked {seen ps : List Prefix} (h : seen.Nodup) :
    (distinctMasked seen ps).Nodup := by
  induction ps generalizing seen with
  | nil => exact h
  | cons p ps ih =>
      rw [distinctMasked]
      split
      · exact ih h
      · next hnew => exact ih (List.nodup_append.mpr ⟨h, List.nodup_singleton _, by
          rintro a ha b hb rfl
          exact hnew (List.mem_singleton.mp hb ▸ ha)⟩)

/-! ### The order -/

/-- Family, address and length in one number. -/
def sortKey (p : Prefix) : Nat :=
  ((if p.addr.is4 then 0 else 1) * 2 ^ 128 + p.addr.value) * 2 ^ 8 + p.bits

theorem bits_lt (p : Prefix) : p.bits < 2 ^ 8 := by
  have h := p.bits_le
  have hlen : p.addr.bitLen ≤ 128 := by cases p.addr <;> simp [Addr.bitLen]
  omega

/-- **The sort key decides the comparison.** -/
theorem prefixLess_iff (a b : Prefix) : prefixLess a b = true ↔ sortKey a < sortKey b := by
  have ha := a.addr.value_lt
  have hb := b.addr.value_lt
  have hab := bits_lt a
  have hbb := bits_lt b
  unfold prefixLess sortKey
  by_cases hfamily : a.addr.is4 = b.addr.is4
  · rw [if_neg (not_not.mpr hfamily), Addr.compare_eq hfamily (a.zone_eq.trans b.zone_eq.symm),
      hfamily]
    by_cases hvalue : a.addr.value = b.addr.value
    · rw [if_neg (not_not.mpr (Nat.compare_eq_eq.mpr hvalue)), hvalue, decide_eq_true_eq]
      omega
    · rw [if_pos (mt Nat.compare_eq_eq.mp hvalue), beq_iff_eq, Nat.compare_eq_lt]
      omega
  · rw [if_pos hfamily]
    cases h4 : a.addr.is4 <;> cases h4' : b.addr.is4 <;> simp_all <;> omega

/-- The sort key tells prefixes apart. -/
theorem sortKey_injective : Function.Injective sortKey := by
  intro a b h
  have ha := a.addr.value_lt
  have hb := b.addr.value_lt
  have hab := bits_lt a
  have hbb := bits_lt b
  unfold sortKey at h
  have hfamily : a.addr.is4 = b.addr.is4 := by
    cases h4 : a.addr.is4 <;> cases h4' : b.addr.is4 <;> simp [h4, h4'] at h ⊢ <;> omega
  rw [hfamily] at h
  exact Prefix.ext_addr
    (Addr.ext_value hfamily (by omega) (a.zone_eq.trans b.zone_eq.symm)) (by omega)

theorem not_prefixLess_iff (a b : Prefix) : prefixLess b a = false ↔ sortKey a ≤ sortKey b := by
  rw [← Bool.not_eq_true, prefixLess_iff, Nat.not_lt]

/-- The sorted prefixes, by their sort keys. -/
def sortedMasked (iterated : List Prefix) : List Prefix :=
  (distinctMasked [] iterated).insertionSort fun a b => sortKey a ≤ sortKey b

theorem normalizePrefixes_eq (iterated : List Prefix) :
    normalizePrefixes iterated = thin Prefix.covers [] (sortedMasked iterated) := by
  rw [normalizePrefixes, sortedMasked]
  simp only [not_prefixLess_iff]

theorem mem_sortedMasked {iterated : List Prefix} {q : Prefix} :
    q ∈ sortedMasked iterated ↔ ∃ p ∈ iterated, p.masked = q := by
  rw [sortedMasked, List.mem_insertionSort, mem_distinctMasked]
  simp

instance : Std.Total fun a b : Prefix => sortKey a ≤ sortKey b :=
  ⟨fun a b => Nat.le_total (sortKey a) (sortKey b)⟩

instance : IsTrans Prefix fun a b => sortKey a ≤ sortKey b :=
  ⟨fun _ _ _ => Nat.le_trans⟩

/-- Distinct prefixes in sorted order have increasing keys. -/
theorem sortedMasked_increasing (iterated : List Prefix) :
    (sortedMasked iterated).Pairwise fun a b => sortKey a < sortKey b := by
  have hle := List.pairwise_insertionSort (fun a b : Prefix => sortKey a ≤ sortKey b)
    (distinctMasked [] iterated)
  have hnodup : (sortedMasked iterated).Nodup :=
    (List.perm_insertionSort _ _).nodup_iff.mpr (nodup_distinctMasked List.nodup_nil)
  refine (hle.and hnodup).imp fun {a b} h => ?_
  exact lt_of_le_of_ne h.1 fun heq => h.2 (sortKey_injective heq)

/-- The sorted list depends on the prefixes only, not on their order or number. -/
theorem sortedMasked_congr {ps qs : List Prefix} (h : ∀ p, p ∈ ps ↔ p ∈ qs) :
    sortedMasked ps = sortedMasked qs := by
  have hnodup : ∀ l, (sortedMasked l).Nodup := fun l =>
    (sortedMasked_increasing l).imp fun {a b} hlt heq => by rw [heq] at hlt; omega
  have hperm : (sortedMasked ps).Perm (sortedMasked qs) :=
    (List.perm_ext_iff_of_nodup (hnodup ps) (hnodup qs)).mpr fun q => by
      simp only [mem_sortedMasked, h]
  exact hperm.eq_of_pairwise (fun a b _ _ hab hba => absurd hab (Nat.lt_asymm hba))
    (sortedMasked_increasing ps) (sortedMasked_increasing qs)

/-! ### The result -/

theorem family_of_sortKey_lt {p q : Prefix} (hlt : sortKey p < sortKey q)
    (hq : q.addr.is4 = true) : p.addr.is4 = true := by
  have hvalue := q.addr.value_lt
  have hbits := bits_lt q
  rw [sortKey, sortKey, if_pos hq] at hlt
  by_contra hp
  rw [if_neg hp] at hlt
  omega

/-- Disjoint prefixes are ordered by their addresses. -/
theorem compare_of_sortKey_lt {p q : Prefix} (hlt : sortKey p < sortKey q)
    (hdisjoint : Disjoint p.addrs q.addrs) : p.addr.compare q.addr = .lt := by
  by_cases hfamily : p.addr.is4 = q.addr.is4
  · rw [Addr.compare_eq hfamily (p.zone_eq.trans q.zone_eq.symm), Nat.compare_eq_lt]
    rcases Nat.lt_trichotomy p.addr.value q.addr.value with h | h | h
    · exact h
    · -- prefixes that start at one address meet there
      have hsame := Addr.ext_value hfamily h (p.zone_eq.trans q.zone_eq.symm)
      exact absurd hdisjoint
        (Set.not_disjoint_iff.mpr ⟨q.addr, hsame ▸ p.addr_mem_addrs, q.addr_mem_addrs⟩)
    · have hbits := bits_lt q
      rw [sortKey, sortKey, hfamily] at hlt
      omega
  · have hfirst := family_of_sortKey_lt hlt
    cases hp : p.addr with
    | v4 a =>
        cases hq : q.addr with
        | v4 b => simp [hp, hq, Addr.is4] at hfamily
        | v6 b zone => rfl
    | v6 a zone =>
        cases hq : q.addr with
        | v4 b => simp [hp, hq, Addr.is4] at hfirst
        | v6 b zone' => simp [hp, hq, Addr.is4] at hfamily

/-- A prefix covers every later one that it meets. -/
theorem covers_or_disjoint {p q : Prefix} (hp : p.masked = p) (hq : q.masked = q)
    (hlt : sortKey p < sortKey q) : p.covers q = true ∨ Disjoint p.addrs q.addrs := by
  rw [or_iff_not_imp_right, Set.not_disjoint_iff]
  rintro ⟨a, hpa, hqa⟩
  rcases Nat.le_total p.bits q.bits with hbits | hbits
  · exact (Prefix.covers_of_meet hp hq hbits hpa hqa).1
  · -- the later prefix is the shorter one only if both start at the same address, and then
    -- the sort has put the shorter one first
    obtain ⟨-, hvalue⟩ := Prefix.covers_of_meet hq hp hbits hqa hpa
    have hfamily : p.addr.is4 = q.addr.is4 :=
      (Prefix.contains_iff.mp hpa).1.symm.trans (Prefix.contains_iff.mp hqa).1
    unfold sortKey at hlt
    rw [hfamily] at hlt
    omega

/-- What an nftables interval set needs, and what a blocklist is for. -/
structure Normalized (iterated out : List Prefix) : Prop where
  /-- Every prefix is one of the map's, masked. -/
  masked : ∀ q ∈ out, q.masked = q ∧ ∃ p ∈ iterated, p.masked = q
  /-- IPv4 comes before IPv6. -/
  families : out.Pairwise fun p q => q.addr.is4 = true → p.addr.is4 = true
  increasing : out.Pairwise fun p q => p.addr.compare q.addr = .lt
  disjoint : out.Pairwise fun p q => Disjoint p.addrs q.addrs
  /-- The addresses are those of the map's prefixes. -/
  covers : ∀ a, (∃ p ∈ out, a ∈ p.addrs) ↔ ∃ p ∈ iterated, a ∈ p.addrs
  /-- Another iteration of the map gives the same list. -/
  unique : ∀ other, (∀ p, p ∈ other ↔ p ∈ iterated) → normalizePrefixes other = out

theorem mem_normalizePrefixes {iterated : List Prefix} {q : Prefix}
    (h : q ∈ normalizePrefixes iterated) : ∃ p ∈ iterated, p.masked = q := by
  rw [normalizePrefixes_eq] at h
  exact mem_sortedMasked.mp ((thin_sublist [] _).subset h)

theorem masked_of_mem {iterated : List Prefix} {q : Prefix} (h : ∃ p ∈ iterated, p.masked = q) :
    q.masked = q := by
  obtain ⟨p, -, rfl⟩ := h
  exact p.masked_masked

/-- The sort keys increase. -/
theorem normalizePrefixes_increasing (iterated : List Prefix) :
    (normalizePrefixes iterated).Pairwise fun p q => sortKey p < sortKey q := by
  rw [normalizePrefixes_eq]
  exact (sortedMasked_increasing iterated).sublist (thin_sublist [] _)

theorem normalizePrefixes_disjoint (iterated : List Prefix) :
    (normalizePrefixes iterated).Pairwise fun p q => Disjoint p.addrs q.addrs := by
  rw [normalizePrefixes_eq]
  refine pairwise_thin Prefix.addrs ?_ (fun k hk => by cases hk) .nil
  refine (sortedMasked_increasing iterated).imp_of_mem fun {p q} hp hq hlt => ?_
  exact covers_or_disjoint (masked_of_mem (mem_sortedMasked.mp hp))
    (masked_of_mem (mem_sortedMasked.mp hq)) hlt

theorem normalizePrefixes_covers (iterated : List Prefix) (a : Addr) :
    (∃ p ∈ normalizePrefixes iterated, a ∈ p.addrs) ↔ ∃ p ∈ iterated, a ∈ p.addrs := by
  rw [normalizePrefixes_eq, mem_thin_iff Prefix.addrs
    fun _ _ h => Prefix.subset_of_covers h]
  constructor
  · rintro ⟨q, hq, ha⟩
    obtain ⟨p, hp, rfl⟩ := mem_sortedMasked.mp hq
    exact ⟨p, hp, (Prefix.contains_masked p a).symm.trans ha⟩
  · rintro ⟨p, hp, ha⟩
    exact ⟨p.masked, mem_sortedMasked.mpr ⟨p, hp, rfl⟩, (Prefix.contains_masked p a).trans ha⟩

/-- **The normal form of the threat-intel prefixes.** In whatever order the map is iterated, the
list is one and the same: masked prefixes, IPv4 first, in increasing address order, pairwise
disjoint, with exactly the addresses of the map's prefixes. -/
theorem normalizePrefixes_correct (iterated : List Prefix) :
    Normalized iterated (normalizePrefixes iterated) where
  masked q hq := ⟨masked_of_mem (mem_normalizePrefixes hq), mem_normalizePrefixes hq⟩
  families :=
    (normalizePrefixes_increasing iterated).imp fun hlt => family_of_sortKey_lt hlt
  increasing :=
    ((normalizePrefixes_increasing iterated).and (normalizePrefixes_disjoint iterated)).imp
      fun h => compare_of_sortKey_lt h.1 h.2
  disjoint := normalizePrefixes_disjoint iterated
  covers := normalizePrefixes_covers iterated
  unique other h := by
    rw [normalizePrefixes_eq, normalizePrefixes_eq, sortedMasked_congr h]

end Phragma.Intel
