import Mathlib.Data.List.AList
import Mathlib.Data.List.MinMax
import Mathlib.Data.Finset.Card
import Mathlib.Tactic.Common

/-!
# Phragma.Lib.RouteTable

**A routing table** as an operating system keeps it: at most one route for a destination and a
metric. Replacing a route is an upsert at its key; deleting by destination takes the route of
the lowest metric, and fails where there is none. A batch performs its statements in order and
stops at the first that fails.

What a series of deletions leaves is said by counting (`lookup_of_dels`): a route goes exactly
when fewer routes of its destination lie below it (`rank`) than deletions name the
destination. So deletions take exactly a given set of routes if they name the destinations of
these and no other route to one of the destinations lies below (`dels_take_iff`).
-/

namespace Phragma.Lib

/-- What a route is identified by. -/
structure RouteKey (δ : Type) where
  dest : δ
  metric : Nat
  deriving DecidableEq, Repr

/-- A table of routes. -/
abbrev RouteTable (δ η : Type) := AList (fun _ : RouteKey δ => η)

/-- A statement on a table. -/
inductive RouteCmd (δ η : Type)
  | replace (k : RouteKey δ) (hop : η)
  | del (d : δ)
  deriving DecidableEq, Repr

variable {δ η : Type} [DecidableEq δ]

/-- The route of the lowest metric to a destination. -/
def RouteTable.lowest (K : RouteTable δ η) (d : δ) : Option (RouteKey δ) :=
  (K.keys.filter fun k => k.dest = d).argmin RouteKey.metric

/-- One statement. -/
def RouteCmd.exec : RouteCmd δ η → RouteTable δ η → Option (RouteTable δ η)
  | .replace k hop, K => some (K.insert k hop)
  | .del d, K => (K.lowest d).map fun k => K.erase k

/-- Statements that all succeed. -/
def execAll : List (RouteCmd δ η) → RouteTable δ η → Option (RouteTable δ η)
  | [], K => some K
  | c :: cs, K => (c.exec K).bind (execAll cs)

/-- A batch from its `n`-th statement on: the statement it stopped at, if it did, and the table.
A statement that cannot be read fails, and so does one that is made to. -/
def batch (fault : Nat → Bool) : Nat → List (Option (RouteCmd δ η)) → RouteTable δ η →
    Option Nat × RouteTable δ η
  | _, [], K => (none, K)
  | n, s :: ss, K =>
      match if fault n then none else s.bind fun c => c.exec K with
      | none => (some n, K)
      | some K' => batch fault (n + 1) ss K'

/-! ### Batches -/

theorem execAll_append (xs ys : List (RouteCmd δ η)) (K : RouteTable δ η) :
    execAll (xs ++ ys) K = (execAll xs K).bind (execAll ys) := by
  induction xs generalizing K with
  | nil => rfl
  | cons c xs ih =>
      rw [List.cons_append, execAll, execAll]
      cases c.exec K with
      | none => rfl
      | some K' => exact ih K'

/-- The statements a batch performed: all, or those before the one it stopped at. -/
def Performed (n : Nat) (ss : List (Option (RouteCmd δ η))) (cs : List (RouteCmd δ η)) :
    Option Nat → Prop
  | none => ss = cs.map some
  | some m => m = n + cs.length ∧ cs.length < ss.length ∧ ss.take cs.length = cs.map some

/-- **A batch performs the statements before the one it stopped at.** -/
theorem batch_cases {fault : Nat → Bool} {ss : List (Option (RouteCmd δ η))} {n : Nat}
    {K K' : RouteTable δ η} {stop : Option Nat} (h : batch fault n ss K = (stop, K')) :
    ∃ cs, execAll cs K = some K' ∧ Performed n ss cs stop := by
  induction ss generalizing n K with
  | nil =>
      cases h
      exact ⟨[], rfl, rfl⟩
  | cons s ss ih =>
      unfold batch at h
      cases hs : (if fault n then none else s.bind fun c => c.exec K) with
      | none =>
          rw [hs] at h
          cases h
          exact ⟨[], rfl, rfl, Nat.succ_pos _, rfl⟩
      | some K₁ =>
          rw [hs] at h
          split at hs
          · cases hs
          · obtain ⟨c, rfl, hc⟩ := Option.bind_eq_some_iff.mp hs
            obtain ⟨cs, hcs, hstop⟩ := ih h
            refine ⟨c :: cs, by rw [execAll, hc]; exact hcs, ?_⟩
            cases stop with
            | none => exact congrArg (List.cons (some c)) hstop
            | some m =>
                obtain ⟨rfl, hlt, htake⟩ := hstop
                refine ⟨by rw [List.length_cons]; omega, Nat.succ_lt_succ hlt, ?_⟩
                rw [List.length_cons, List.take_succ_cons, htake, List.map_cons]

omit [DecidableEq δ] in
/-- What a batch performed was among its statements. -/
theorem Performed.mem {n : Nat} {ss : List (Option (RouteCmd δ η))} {cs : List (RouteCmd δ η)}
    {stop : Option Nat} (h : Performed n ss cs stop) {c : RouteCmd δ η} (hc : c ∈ cs) :
    some c ∈ ss := by
  cases stop with
  | none =>
      rw [show ss = cs.map some from h]
      exact List.mem_map_of_mem hc
  | some m =>
      obtain ⟨-, -, htake⟩ := h
      refine List.mem_of_mem_take (i := cs.length) ?_
      rw [htake]
      exact List.mem_map_of_mem hc

/-- The destination a statement is about. -/
def RouteCmd.about : RouteCmd δ η → δ
  | .replace k _ => k.dest
  | .del d => d

/-- **Frame.** Statements about other destinations leave a route as it is. -/
theorem lookup_execAll_of_about {cs : List (RouteCmd δ η)} {K K' : RouteTable δ η}
    (h : execAll cs K = some K') {k : RouteKey δ} (hk : ∀ c ∈ cs, c.about ≠ k.dest) :
    K'.lookup k = K.lookup k := by
  induction cs generalizing K with
  | nil =>
      cases h
      rfl
  | cons c cs ih =>
      rw [execAll] at h
      obtain ⟨K₁, hc, h⟩ := Option.bind_eq_some_iff.mp h
      have hne := hk c List.mem_cons_self
      rw [ih h fun c' hc' => hk c' (List.mem_cons_of_mem _ hc')]
      cases c with
      | replace k' hop =>
          cases hc
          refine AList.lookup_insert_ne fun hkk => hne ?_
          rw [hkk]
          rfl
      | del d =>
          obtain ⟨low, hlow, rfl⟩ := Option.map_eq_some_iff.mp hc
          refine AList.lookup_erase_ne fun hkk => hne ?_
          have hmem := List.argmin_mem hlow
          rw [List.mem_filter, decide_eq_true_eq] at hmem
          rw [hkk, hmem.2]
          rfl

/-! ### Replacements

A replacement is an insertion under destination and metric, so of several for one key the last one
counts. -/

/-- A table with routes put in, later ones last. -/
def RouteTable.insertAll (rs : List (RouteKey δ × η)) (K : RouteTable δ η) : RouteTable δ η :=
  rs.foldl (fun K r => K.insert r.1 r.2) K

theorem execAll_replace (rs : List (RouteKey δ × η)) (K : RouteTable δ η) :
    execAll (rs.map fun r => .replace r.1 r.2) K = some (K.insertAll rs) := by
  induction rs generalizing K with
  | nil => rfl
  | cons r rs ih => exact ih (K.insert r.1 r.2)

/-- A key that is not put in keeps its route. -/
theorem lookup_insertAll_of_notMem {rs : List (RouteKey δ × η)} {k : RouteKey δ}
    (h : k ∉ rs.map Prod.fst) (K : RouteTable δ η) : (K.insertAll rs).lookup k = K.lookup k := by
  induction rs generalizing K with
  | nil => rfl
  | cons r rs ih =>
      rw [List.map_cons, List.mem_cons, not_or] at h
      exact (ih h.2 (K.insert r.1 r.2)).trans (AList.lookup_insert_ne h.1)

/-- A key that is put in has one of the routes put in. -/
theorem lookup_insertAll_of_mem {rs : List (RouteKey δ × η)} {k : RouteKey δ}
    (h : k ∈ rs.map Prod.fst) (K : RouteTable δ η) :
    ∃ hop, (k, hop) ∈ rs ∧ (K.insertAll rs).lookup k = some hop := by
  induction rs generalizing K with
  | nil => cases h
  | cons r rs ih =>
      by_cases hrest : k ∈ rs.map Prod.fst
      · obtain ⟨hop, hmem, hlookup⟩ := ih hrest (K.insert r.1 r.2)
        exact ⟨hop, List.mem_cons_of_mem _ hmem, hlookup⟩
      · rw [List.map_cons, List.mem_cons] at h
        obtain rfl := h.resolve_right hrest
        refine ⟨r.2, List.mem_cons_self, ?_⟩
        exact (lookup_insertAll_of_notMem hrest _).trans (AList.lookup_insert _)

/-- The route a key ends up with is the last one put in for it. -/
theorem lookup_insertAll (rs : List (RouteKey δ × η)) (K : RouteTable δ η) (k : RouteKey δ) :
    (K.insertAll rs).lookup k =
      (((rs.filter fun r => r.1 = k).getLast?).map Prod.snd).or (K.lookup k) := by
  induction rs using List.reverseRecOn with
  | nil => rfl
  | append_singleton rs r ih =>
      rw [RouteTable.insertAll, List.foldl_append, List.foldl_cons, List.foldl_nil,
        List.filter_append]
      by_cases hr : r.1 = k
      · subst hr
        rw [AList.lookup_insert, List.filter_cons_of_pos (by simp), List.filter_nil,
          List.getLast?_append]
        rfl
      · rw [AList.lookup_insert_ne (Ne.symm hr), List.filter_cons_of_neg (by simp [hr]),
          List.filter_nil, List.append_nil]
        exact ih

theorem mem_insertAll {rs : List (RouteKey δ × η)} {K : RouteTable δ η} {k : RouteKey δ} :
    k ∈ K.insertAll rs ↔ k ∈ rs.map Prod.fst ∨ k ∈ K := by
  rw [← AList.lookup_isSome, ← AList.lookup_isSome]
  by_cases h : k ∈ rs.map Prod.fst
  · obtain ⟨hop, -, hlookup⟩ := lookup_insertAll_of_mem h K
    simp [h, hlookup]
  · simp only [h, false_or, lookup_insertAll_of_notMem h K]

/-! ### Deletions

Deletions at different destinations do not meet, and those at one destination take its routes from
below. So what they leave is a matter of counting. -/

/-- How many routes of the same destination lie below a key. -/
def rank (S : Finset (RouteKey δ)) (k : RouteKey δ) : Nat :=
  (S.filter fun j => j.dest = k.dest ∧ j.metric < k.metric).card

/-- The keys of a table. -/
def RouteTable.keySet (K : RouteTable δ η) : Finset (RouteKey δ) := K.keys.toFinset

@[simp] theorem mem_keySet {K : RouteTable δ η} {k : RouteKey δ} : k ∈ K.keySet ↔ k ∈ K := by
  unfold RouteTable.keySet
  rw [List.mem_toFinset, AList.mem_keys]

theorem keySet_insertAll (rs : List (RouteKey δ × η)) (K : RouteTable δ η) :
    (K.insertAll rs).keySet = (rs.map Prod.fst).toFinset ∪ K.keySet := by
  ext k
  rw [Finset.mem_union, mem_keySet, mem_keySet, mem_insertAll, List.mem_toFinset]

theorem keySet_erase (K : RouteTable δ η) (k : RouteKey δ) :
    RouteTable.keySet (K.erase k) = K.keySet.erase k := by
  ext j
  rw [Finset.mem_erase, mem_keySet, mem_keySet, AList.mem_erase]

/-- The lowest route is a route to the destination, and no other lies below it. -/
theorem lowest_spec {K : RouteTable δ η} {d : δ} {k : RouteKey δ} (h : K.lowest d = some k) :
    k ∈ K ∧ k.dest = d ∧ ∀ j ∈ K, j.dest = d → k.metric ≤ j.metric := by
  have hmem := List.argmin_mem h
  rw [List.mem_filter, decide_eq_true_eq, ← AList.mem_keys] at hmem
  refine ⟨hmem.1, hmem.2, fun j hj hd => ?_⟩
  refine List.le_of_mem_argmin (List.mem_filter.mpr ⟨AList.mem_keys.mp hj, ?_⟩) h
  exact decide_eq_true_eq.mpr hd

/-- Without its lowest route, a destination's other routes lie one lower. -/
theorem rank_erase {S : Finset (RouteKey δ)} {low k : RouteKey δ} (hlow : low ∈ S)
    (hmin : ∀ j ∈ S, j.dest = low.dest → low.metric ≤ j.metric) (hk : k ∈ S) (hne : k ≠ low) :
    rank S k = rank (S.erase low) k + if k.dest = low.dest then 1 else 0 := by
  unfold rank
  rw [Finset.filter_erase]
  by_cases hdest : k.dest = low.dest
  · have hlt : low.metric < k.metric := by
      refine Nat.lt_of_le_of_ne (hmin k hk hdest) fun heq => hne ?_
      cases k
      cases low
      simp_all
    have hmem : low ∈ S.filter fun j => j.dest = k.dest ∧ j.metric < k.metric :=
      Finset.mem_filter.mpr ⟨hlow, hdest.symm, hlt⟩
    have hcard := Finset.card_erase_add_one hmem
    rw [if_pos hdest]
    exact hcard.symm
  · have hnot : low ∉ S.filter fun j => j.dest = k.dest ∧ j.metric < k.metric := by
      intro hmem
      exact hdest (Finset.mem_filter.mp hmem).2.1.symm
    rw [if_neg hdest, Finset.erase_eq_of_notMem hnot, Nat.add_zero]

theorem rank_lowest {S : Finset (RouteKey δ)} {low : RouteKey δ}
    (hmin : ∀ j ∈ S, j.dest = low.dest → low.metric ≤ j.metric) : rank S low = 0 := by
  unfold rank
  rw [Finset.card_eq_zero, Finset.filter_eq_empty_iff]
  rintro j hj ⟨hdest, hlt⟩
  exact absurd (hmin j hj hdest) (Nat.not_le.mpr hlt)

/-- **What deletions leave.** A route goes exactly when fewer routes of its destination lie
below it than deletions name the destination. -/
theorem lookup_of_dels {ds : List δ} {K K' : RouteTable δ η}
    (h : execAll (ds.map .del) K = some K') (k : RouteKey δ) :
    K'.lookup k = if rank K.keySet k < ds.count k.dest then none else K.lookup k := by
  induction ds generalizing K with
  | nil =>
      cases h
      simp
  | cons d ds ih =>
      rw [List.map_cons, execAll] at h
      obtain ⟨K₁, hdel, hrest⟩ := Option.bind_eq_some_iff.mp h
      obtain ⟨low, hlow, rfl⟩ := Option.map_eq_some_iff.mp hdel
      obtain ⟨hmem, rfl, hmin⟩ := lowest_spec hlow
      have hmin' : ∀ j ∈ K.keySet, j.dest = low.dest → low.metric ≤ j.metric :=
        fun j hj => hmin j (mem_keySet.mp hj)
      rw [ih hrest]
      by_cases hk : k ∈ K
      · by_cases hne : k = low
        · subst hne
          rw [AList.lookup_erase, ite_self, rank_lowest hmin', if_pos]
          rw [List.count_cons_self]
          exact Nat.succ_pos _
        · have hrank := rank_erase (mem_keySet.mpr hmem) hmin' (mem_keySet.mpr hk) hne
          rw [AList.lookup_erase_ne hne, keySet_erase, hrank, List.count_cons]
          by_cases hdest : k.dest = low.dest
          · simp [hdest]
          · simp [hdest, Ne.symm hdest]
      · -- what is not there stays so
        have hnone : K.lookup k = none := AList.lookup_eq_none.mpr hk
        have hnone' : (K.erase low).lookup k = none :=
          AList.lookup_eq_none.mpr fun hmem' => hk (AList.mem_erase.mp hmem').2
        rw [hnone, hnone', ite_self, ite_self]

/-- How many routes a table has to a destination. -/
def RouteTable.routesTo (K : RouteTable δ η) (d : δ) : Nat :=
  (K.keySet.filter fun k => k.dest = d).card

theorem lowest_isSome_iff {K : RouteTable δ η} {d : δ} :
    (K.lowest d).isSome ↔ 0 < K.routesTo d := by
  unfold RouteTable.routesTo
  rw [Finset.card_pos]
  constructor
  · intro h
    obtain ⟨low, hlow⟩ := Option.isSome_iff_exists.mp h
    obtain ⟨hmem, hdest, -⟩ := lowest_spec hlow
    exact ⟨low, Finset.mem_filter.mpr ⟨mem_keySet.mpr hmem, hdest⟩⟩
  · rintro ⟨k, hk⟩
    obtain ⟨hmem, hdest⟩ := Finset.mem_filter.mp hk
    rw [Option.isSome_iff_ne_none, RouteTable.lowest, Ne, List.argmin_eq_none]
    exact List.ne_nil_of_mem (List.mem_filter.mpr ⟨AList.mem_keys.mp (mem_keySet.mp hmem),
      decide_eq_true hdest⟩)

/-- A deletion takes one route from its destination, and none from any other. -/
theorem routesTo_erase {K : RouteTable δ η} {d : δ} {low : RouteKey δ}
    (hlow : K.lowest d = some low) (d' : δ) :
    K.routesTo d' = RouteTable.routesTo (K.erase low) d' + if d' = d then 1 else 0 := by
  obtain ⟨hmem, rfl, -⟩ := lowest_spec hlow
  unfold RouteTable.routesTo
  rw [keySet_erase, Finset.filter_erase]
  by_cases hdest : d' = low.dest
  · subst hdest
    have hlow : low ∈ K.keySet.filter fun k => k.dest = low.dest :=
      Finset.mem_filter.mpr ⟨mem_keySet.mpr hmem, rfl⟩
    rw [if_pos rfl]
    exact (Finset.card_erase_add_one hlow).symm
  · rw [if_neg hdest, Finset.erase_eq_of_notMem, Nat.add_zero]
    exact fun hk => hdest (Finset.mem_filter.mp hk).2.symm

/-- Deletions take as many routes from a destination as they name it. -/
theorem routesTo_of_dels {ds : List δ} {K K' : RouteTable δ η}
    (h : execAll (ds.map .del) K = some K') (d : δ) :
    K.routesTo d = K'.routesTo d + ds.count d := by
  induction ds generalizing K with
  | nil =>
      cases h
      rfl
  | cons e ds ih =>
      rw [List.map_cons, execAll] at h
      obtain ⟨K₁, hdel, hrest⟩ := Option.bind_eq_some_iff.mp h
      obtain ⟨low, hlow, rfl⟩ := Option.map_eq_some_iff.mp hdel
      rw [routesTo_erase hlow d, ih hrest, List.count_cons, Nat.add_assoc]
      simp only [beq_iff_eq, eq_comm (a := d)]

theorem count_map_dest {D : List (RouteKey δ)} (h : D.Nodup) (d : δ) :
    (D.map RouteKey.dest).count d = (D.toFinset.filter fun k => k.dest = d).card := by
  have hset : (D.toFinset.filter fun k => k.dest = d) =
      (D.filter fun k => decide (k.dest = d)).toFinset := by
    ext k
    simp
  rw [hset, List.toFinset_card_of_nodup (h.filter _), List.count, List.countP_map,
    List.countP_eq_length_filter]
  rfl

/-- **Which routes deletions take.** They take given routes of a table and no others exactly when
they name the destinations of these, once for each, and every other route to such a destination
lies above it. -/
theorem dels_take_iff {ds : List δ} {K K' : RouteTable δ η}
    (h : execAll (ds.map .del) K = some K') {D : List (RouteKey δ)} (hnodup : D.Nodup)
    (hD : ∀ k ∈ D, k ∈ K) :
    (∀ k ∈ K, rank K.keySet k < ds.count k.dest ↔ k ∈ D) ↔
      ds.Perm (D.map RouteKey.dest) ∧
        ∀ k ∈ D, ∀ j ∈ K, j ∉ D → j.dest = k.dest → k.metric < j.metric := by
  constructor
  · intro htake
    refine ⟨List.perm_iff_count.mpr fun d => ?_, fun k hk j hj hjD hdest => ?_⟩
    · -- what is taken from a destination are its routes among the given ones
      have hleft : K'.keySet.filter (fun k => k.dest = d) =
          (K.keySet.filter fun k => k.dest = d) \ D.toFinset.filter fun k => k.dest = d := by
        ext k
        have hk : k ∈ K' ↔ k ∈ K ∧ k ∉ D := by
          rw [← AList.lookup_isSome, lookup_of_dels h k, ← AList.lookup_isSome (s := K)]
          by_cases hkK : k ∈ K
          · by_cases hkD : k ∈ D
            · rw [if_pos ((htake k hkK).mpr hkD)]
              simp [hkD]
            · rw [if_neg fun hlt => hkD ((htake k hkK).mp hlt)]
              simp [hkD]
          · simp [AList.lookup_eq_none.mpr hkK]
        simp only [Finset.mem_sdiff, Finset.mem_filter, mem_keySet, List.mem_toFinset, hk]
        tauto
      have hsub : (D.toFinset.filter fun k => k.dest = d) ⊆ K.keySet.filter fun k => k.dest = d :=
        Finset.filter_subset_filter _ fun k hk => mem_keySet.mpr (hD k (List.mem_toFinset.mp hk))
      have hcount := routesTo_of_dels h d
      have hcard := Finset.card_sdiff_add_card_eq_card hsub
      rw [count_map_dest hnodup]
      unfold RouteTable.routesTo at hcount
      rw [hleft] at hcount
      omega
    · -- a route that is not to go, of no higher metric, would be taken with it
      by_contra hle
      have hlt := (htake k (hD k hk)).mpr hk
      refine hjD ((htake j hj).mp (lt_of_le_of_lt (Finset.card_le_card ?_) (hdest ▸ hlt)))
      intro i hi
      simp only [Finset.mem_filter] at hi ⊢
      exact ⟨hi.1, hi.2.1.trans hdest, lt_of_lt_of_le hi.2.2 (Nat.not_lt.mp hle)⟩
  · rintro ⟨hperm, hlow⟩ k hk
    rw [hperm.count_eq, count_map_dest hnodup]
    unfold rank
    constructor
    · -- otherwise every given route at its destination is cheaper, and its rank reaches the count
      intro hlt
      by_contra hkD
      refine absurd hlt (Nat.not_lt.mpr (Finset.card_le_card fun j hj => ?_))
      obtain ⟨hjD, hdest⟩ := Finset.mem_filter.mp hj
      rw [List.mem_toFinset] at hjD
      exact Finset.mem_filter.mpr
        ⟨mem_keySet.mpr (hD j hjD), hdest, hlow j hjD k hk hkD hdest.symm⟩
    · -- what is cheaper at its destination is given too, and so is the route itself
      intro hkD
      refine Finset.card_lt_card (Finset.ssubset_iff_subset_ne.mpr ⟨fun j hj => ?_, fun heq => ?_⟩)
      · obtain ⟨hjK, hdest, hlt⟩ := Finset.mem_filter.mp hj
        rw [mem_keySet] at hjK
        refine Finset.mem_filter.mpr ⟨List.mem_toFinset.mpr ?_, hdest⟩
        by_contra hjD
        exact absurd (hlow k hkD j hjK hjD hdest) (Nat.lt_asymm hlt)
      · have hself : k ∈ D.toFinset.filter fun j => j.dest = k.dest :=
          Finset.mem_filter.mpr ⟨List.mem_toFinset.mpr hkD, rfl⟩
        rw [← heq] at hself
        exact Nat.lt_irrefl _ (Finset.mem_filter.mp hself).2.2

/-- **Deletions succeed** exactly when no destination is named more often than it has routes. -/
theorem execAll_dels_isSome_iff {ds : List δ} {K : RouteTable δ η} :
    (execAll (ds.map .del) K).isSome ↔ ∀ d, ds.count d ≤ K.routesTo d := by
  induction ds generalizing K with
  | nil => simp [execAll]
  | cons d ds ih =>
      rw [List.map_cons, execAll, RouteCmd.exec]
      cases hlow : K.lowest d with
      | none =>
          have hnone : K.routesTo d = 0 := by
            by_contra hne
            have hsome := lowest_isSome_iff.mpr (Nat.pos_of_ne_zero hne)
            rw [hlow] at hsome
            cases hsome
          refine iff_of_false Bool.false_ne_true fun h => ?_
          have hd := h d
          rw [List.count_cons_self] at hd
          omega
      | some low =>
          rw [Option.map_some, Option.bind_some, ih]
          refine forall_congr' fun d' => ?_
          rw [routesTo_erase hlow d', List.count_cons]
          by_cases hdest : d' = d
          · subst hdest
            simp
          · simp [hdest, Ne.symm hdest]

/-- **What replacements and then deletions leave.** -/
theorem lookup_of_reconcile {rs : List (RouteKey δ × η)} {ds : List δ} {K K' : RouteTable δ η}
    (h : execAll ((rs.map fun r => .replace r.1 r.2) ++ ds.map .del) K = some K')
    (k : RouteKey δ) :
    K'.lookup k = if rank ((rs.map Prod.fst).toFinset ∪ K.keySet) k < ds.count k.dest then none
      else (K.insertAll rs).lookup k := by
  rw [execAll_append, execAll_replace, Option.bind_some] at h
  rw [lookup_of_dels h k, keySet_insertAll]

/-! ### The first of the best -/

/-- The elements of a list that no other undercuts, in order. -/
def bests {α β : Type} [LinearOrder β] (f : α → β) (l : List α) : List α :=
  l.filter fun a => l.all fun b => decide (f a ≤ f b)

theorem mem_bests {α β : Type} [LinearOrder β] {f : α → β} {l : List α} {a : α} :
    a ∈ bests f l ↔ a ∈ l ∧ ∀ b ∈ l, f a ≤ f b := by
  simp [bests]

/-- `argmin` finds the first of the best. -/
theorem argmin_eq_head? {α β : Type} [LinearOrder β] (f : α → β) (l : List α) :
    l.argmin f = (bests f l).head? := by
  induction l with
  | nil => rfl
  | cons a l ih =>
      rw [List.argmin_cons]
      cases hl : l.argmin f with
      | none =>
          obtain rfl := List.argmin_eq_none.mp hl
          simp [bests]
      | some c =>
          have hc : c ∈ l ∧ ∀ b ∈ l, f c ≤ f b :=
            ⟨List.argmin_mem hl, fun b hb => List.le_of_mem_argmin hb hl⟩
          by_cases hlt : f c < f a
          · -- the head is undercut, and what is best in the tail is best in all
            have hsame : bests f (a :: l) = bests f l := by
              unfold bests
              rw [List.filter_cons_of_neg]
              · refine List.filter_congr fun b hb => ?_
                rw [List.all_cons]
                cases hall : l.all fun x => decide (f b ≤ f x) with
                | false => rw [Bool.and_false]
                | true =>
                    have hbc : f b ≤ f c := of_decide_eq_true (List.all_eq_true.mp hall c hc.1)
                    rw [Bool.and_true]
                    exact decide_eq_true (le_of_lt (lt_of_le_of_lt hbc hlt))
              · simp only [List.all_eq_true, decide_eq_true_eq, not_forall]
                exact ⟨c, List.mem_cons_of_mem _ hc.1, not_le_of_gt hlt⟩
            simp only [if_pos hlt, hsame, ← ih, hl]
          · have hbest : (a :: l).all (fun b => decide (f a ≤ f b)) = true := by
              rw [List.all_eq_true]
              intro b hb
              rcases List.mem_cons.mp hb with rfl | hb
              · exact decide_eq_true (le_refl _)
              · exact decide_eq_true (le_trans (not_lt.mp hlt) (hc.2 b hb))
            simp only [if_neg hlt]
            rw [bests, List.filter_cons_of_pos
              (p := fun x => (a :: l).all fun b => decide (f x ≤ f b)) hbest, List.head?_cons]

theorem argmin_map {α γ β : Type} [LinearOrder β] (f : γ → β) (g : α → γ) (l : List α) :
    (l.map g).argmin f = (l.argmin fun a => f (g a)).map g := by
  rw [argmin_eq_head?, argmin_eq_head?]
  have h : bests f (l.map g) = (bests (fun a => f (g a)) l).map g := by
    unfold bests
    rw [List.filter_map]
    congr 1
    refine List.filter_congr fun a _ => ?_
    simp only [Function.comp_apply, List.all_map]
    rfl
  rw [h, List.head?_map]

end Phragma.Lib
