import Phragma.Lib.Allot
import Phragma.Go.Json
import Phragma.Go.Lines
import Phragma.Policy.RuleIdentity

/-!
# Phragma.Policy.UniqueIdentity

What the two normalization passes promise: **ids are unique**, and an id that was usable is
**kept**.

A pass is a first come, first served allocation (`Lib.Allotted`). An item wishes for its
own id, trimmed, when it is well formed; then for the id generated from its name and its
digest; then for that id with the suffixes 2, 3, … (`wish`). The suffix loop of the source
has no bound. It ends because the numbered ids are pairwise different: each ends in its own
number behind the last dash, also where the limit of 128 characters cuts what stands before
it. That needs the number to leave room, so it is false of numbers with more than 121
digits; an `int` has at most nineteen, and lists are assumed shorter than `2 ^ 63`, the
largest length a Go slice has.

The two main results are `identity_normalization` and `identity_kept_iff`. The second says
exactly when a pass keeps the usable ids: when none of them is *claimed* by an item that
stands earlier. The scan hands out ids before it has seen the later, explicit ones, so a
copy of a rule with its id cleared takes the id of the original below it.
-/

namespace Phragma.Policy

open Lib Go

/-! ### The numbered ids are pairwise different

The number is read backwards from the end, up to the last dash. -/

/-- What stands behind the last dash, read backwards. -/
def tailPart (l : List Char) : List Char := l.reverse.takeWhile fun c => c != '-'

theorem tailPart_append {l t : List Char} (h : '-' ∉ t) : tailPart (l ++ '-' :: t) = t.reverse := by
  unfold tailPart
  rw [List.reverse_append, List.reverse_cons, List.append_assoc, List.singleton_append,
    List.takeWhile_append_of_pos]
  · simp
  · intro c hc
    rw [bne_iff_ne]
    rintro rfl
    exact h (List.mem_reverse.mp hc)

theorem dash_notMem {t : List Char} (h : ∀ c ∈ t, isLowerAlnum c = true) : '-' ∉ t := by
  intro hmem
  exact absurd (h _ hmem) (by decide)

/-- A text that starts and ends with a letter or a digit has nothing to trim. -/
theorem trim_ends {c : Char} {l t : List Char} (hc : isLowerAlnum c = true)
    (ht : ∀ c ∈ t, isLowerAlnum c = true) (hne : t ≠ []) :
    trim ruleIDTrimChars (c :: (l ++ t)) = c :: (l ++ t) := by
  unfold trim trimList
  rw [List.dropWhile_cons_of_neg (by simpa using not_trimChar_of_isLowerAlnum hc)]
  obtain ⟨d, ds, hds⟩ := List.exists_cons_of_ne_nil (List.reverse_ne_nil_iff.mpr hne)
  have hd : isLowerAlnum d = true :=
    ht d (List.mem_reverse.mp (hds ▸ List.mem_cons_self))
  rw [← List.cons_append, List.reverse_append, hds, List.cons_append,
    List.dropWhile_cons_of_neg (by simpa using not_trimChar_of_isLowerAlnum hd), ← List.cons_append,
    ← hds, ← List.reverse_append, List.reverse_reverse]

/-- The limit on an id that ends in a part of letters and digits: nothing happens to a
short one; a long one keeps its last part, as long as that leaves room. -/
theorem withRuleIDLimit_append {c : Char} {l t : List Char} (hc : isLowerAlnum c = true)
    (ht : ∀ c ∈ t, isLowerAlnum c = true) (hne : t ≠ []) (hroom : t.length ≤ 121) :
    withRuleIDLimit (c :: (l ++ '-' :: t)) =
      if (c :: (l ++ '-' :: t)).length ≤ 128 then c :: (l ++ '-' :: t)
      else trim ruleIDTrimChars ((c :: (l ++ '-' :: t)).take (128 - (t.length + 1))) ++ '-' :: t := by
  have htrim : trim ruleIDTrimChars (c :: (l ++ '-' :: t)) = c :: (l ++ '-' :: t) := by
    have h := trim_ends (l := l ++ ['-']) hc ht hne
    rwa [List.append_assoc, List.singleton_append] at h
  have hlast : (splitOn '-' (c :: (l ++ '-' :: t))).getLastD [] = t := by
    rw [← List.cons_append, splitOn_append, splitOn_of_notMem (dash_notMem ht),
      List.getLastD_eq_getLast?, List.getLast?_concat, Option.getD_some]
  have hlimit : ¬ 128 - (t.length + 1) < "rule-x".length := by
    rw [show "rule-x".length = 6 from rfl]
    omega
  unfold withRuleIDLimit
  simp only [htrim, hlast, if_neg hlimit]

/-- An id keeps its last part under the limit. -/
theorem tailPart_withRuleIDLimit {c : Char} {l t : List Char} (hc : isLowerAlnum c = true)
    (ht : ∀ c ∈ t, isLowerAlnum c = true) (hne : t ≠ []) (hroom : t.length ≤ 121) :
    tailPart (withRuleIDLimit (c :: (l ++ '-' :: t))) = t.reverse := by
  rw [withRuleIDLimit_append hc ht hne hroom]
  split
  · exact tailPart_append (l := c :: l) (dash_notMem ht)
  · exact tailPart_append (dash_notMem ht)

/-- A well-formed id starts with a letter or a digit. -/
theorem head_of_ValidRuleID {id : String} (h : ValidRuleID id = true) :
    ∃ c cs, id.toList = c :: cs ∧ isLowerAlnum c = true := by
  simp only [ValidRuleID, Bool.and_eq_true] at h
  cases hid : id.toList with
  | nil => simp [hid, ruleIDValidRE] at h
  | cons c cs =>
      simp only [hid, ruleIDValidRE, Bool.and_eq_true] at h
      exact ⟨c, cs, rfl, h.2.1.1⟩

/-- The number of a numbered id can be read off it. -/
theorem tailPart_withRuleIDSuffix {base : String} {n : Nat} (hb : ValidRuleID base = true)
    (hn : n < 10 ^ 121) :
    tailPart (withRuleIDSuffix base n).toList = (decimal n).toList.reverse := by
  obtain ⟨c, cs, hbase, hc⟩ := head_of_ValidRuleID hb
  rw [withRuleIDSuffix, String.toList_ofList, hbase, List.cons_append]
  exact tailPart_withRuleIDLimit hc (fun x hx => isLowerAlnum_of_mem_decimal hx)
    (decimal_ne_nil n) ((length_decimal (by decide)).mpr hn)

theorem withRuleIDSuffix_inj {base : String} {m n : Nat} (hb : ValidRuleID base = true)
    (hm : m < 10 ^ 121) (hn : n < 10 ^ 121)
    (h : withRuleIDSuffix base m = withRuleIDSuffix base n) : m = n := by
  have ht := tailPart_withRuleIDSuffix hb hm
  rw [h, tailPart_withRuleIDSuffix hb hn, List.reverse_inj] at ht
  exact decimal_inj ht.symm

/-! ### Generated ids are short -/

theorem length_trimList_le {α : Type} (p : α → Bool) (l : List α) :
    (trimList p l).length ≤ l.length := by
  unfold trimList
  rw [List.length_reverse]
  exact le_trans (List.dropWhile_sublist p).length_le
    (by rw [List.length_reverse]; exact (List.dropWhile_sublist p).length_le)

/-- A label has at most 64 characters. -/
theorem length_sanitizeRuleIDLabel (name : String) : (sanitizeRuleIDLabel name).length ≤ 64 := by
  simp only [sanitizeRuleIDLabel]
  generalize trim ruleIDTrimChars _ = label
  have hfallback : ruleIDFallbackLabel.length ≤ 64 := by decide
  by_cases hnil : label = []
  · rw [if_pos hnil]
    exact hfallback
  · rw [if_neg hnil]
    by_cases hlong : 64 < label.length
    · simp only [if_pos hlong]
      split
      · exact hfallback
      · exact le_trans (length_trimList_le _ _) (List.length_take_le _ _)
    · simp only [if_neg hlong, if_neg hnil]
      exact Nat.not_lt.mp hlong

/-- A generated id is the kind, the label and the digest, uncut. -/
theorem toList_generatedID {kind name hash : String} (hk : IsKindLabel kind)
    (hlen : kind.toList.length ≤ 11) (hh : IsHash12 hash) :
    (generatedID kind name hash).toList =
      (kind.toList ++ sanitizeRuleIDLabel name) ++ '-' :: hash.toList := by
  obtain ⟨c, cs, hkind, hc, -⟩ := hk
  have hne : hash.toList ≠ [] := List.ne_nil_of_length_pos (by rw [hh.1]; decide)
  have hlabel := length_sanitizeRuleIDLabel name
  have hshort : (c :: (cs ++ sanitizeRuleIDLabel name ++ '-' :: hash.toList)).length ≤ 128 := by
    rw [hkind] at hlen
    simp only [List.length_cons, List.length_append, hh.1] at hlen ⊢
    omega
  have h := withRuleIDLimit_append (l := cs ++ sanitizeRuleIDLabel name) hc hh.2 hne
    (by rw [hh.1]; decide)
  rw [if_pos hshort] at h
  rw [generatedID, String.toList_ofList, ← List.append_assoc, hkind, List.cons_append,
    List.cons_append, h]

/-- No numbered form of a generated id is the id itself: cut or not, it is longer, or its
last part is. -/
theorem generatedID_ne_suffix {kind name hash : String} {n : Nat} (hk : IsKindLabel kind)
    (hlen : kind.toList.length ≤ 11) (hh : IsHash12 hash) (hn : n < 10 ^ 121) :
    generatedID kind name hash ≠ withRuleIDSuffix (generatedID kind name hash) n := by
  intro heq
  have hlist : (generatedID kind name hash).toList = _ := toList_generatedID hk hlen hh
  have hvalid : ValidRuleID (generatedID kind name hash) = true :=
    ValidRuleID_generatedID hk hh
  generalize generatedID kind name hash = base at heq hlist hvalid
  -- the last part is the digest, so the number has twelve digits
  have htail := tailPart_withRuleIDSuffix hvalid hn
  rw [← heq, hlist, tailPart_append (dash_notMem hh.2), List.reverse_inj] at htail
  have htwelve : (decimal n).toList.length = 12 := by rw [← htail, hh.1]
  -- then nothing is cut, and the numbered id is longer
  have hlabel := length_sanitizeRuleIDLabel name
  have hbase : base.toList.length ≤ 88 := by
    rw [hlist]
    simp only [List.length_append, List.length_cons, hh.1]
    omega
  obtain ⟨c, cs, hcs, hc⟩ := head_of_ValidRuleID hvalid
  have hcut := withRuleIDLimit_append (l := cs) hc
    (fun x hx => isLowerAlnum_of_mem_decimal (n := n) hx) (decimal_ne_nil n) (by omega)
  rw [hcs, List.length_cons] at hbase
  rw [if_pos (by simp only [List.length_cons, List.length_append, htwelve]; omega)] at hcut
  have hlength := congrArg (fun s => s.toList.length) heq
  simp only [withRuleIDSuffix, String.toList_ofList, hcs, List.cons_append, hcut,
    List.length_cons, List.length_append] at hlength
  omega

/-! ### One id: the first wish that is free -/

/-- What an item **wishes** for: its own id, repaired; the generated id; the numbered forms
of the generated id. The numbers of the wishes from 2 on are those of the suffixes. -/
def wish (generated id : String) : Nat → String
  | 0 => (repairID generated id).1
  | 1 => generated
  | n + 2 => withRuleIDSuffix generated (n + 2)

/-- The id the suffix loop starts from. -/
def loopBase (generated : String) (seen : List String) (id : String) : String :=
  if seen.contains (repairID generated id).1 then generated else (repairID generated id).1

/-- The suffix loop as the source has it, without a bound on its rounds: from a suffix and
a current id, the loop **ends** on an id. -/
inductive SuffixLoop (base : String) (seen : List String) : Nat → String → String → Prop
  | done {suffix : Nat} {cur : String} (free : cur ∉ seen) : SuffixLoop base seen suffix cur cur
  | next {suffix : Nat} {cur final : String} (gone : cur ∈ seen)
      (rest : SuffixLoop base seen (suffix + 1) (withRuleIDSuffix base suffix) final) :
      SuffixLoop base seen suffix cur final

/-- An id whose numbered forms, for any number that fits, are pairwise different and
different from it. -/
structure Numbered (generated : String) : Prop where
  valid : ValidRuleID generated = true
  ne_suffix : ∀ n < 10 ^ 121, generated ≠ withRuleIDSuffix generated n

/-- The wishes after the first are pairwise different. -/
theorem wish_inj {generated id : String} (hg : Numbered generated) {i j : Nat}
    (hi : i < 10 ^ 120) (hj : j < 10 ^ 120)
    (h : wish generated id (i + 1) = wish generated id (j + 1)) : i = j := by
  have hfit : ∀ {n : Nat}, n < 10 ^ 120 → n + 2 < 10 ^ 121 := by intro n hn; omega
  cases i with
  | zero =>
      cases j with
      | zero => rfl
      | succ j => exact absurd h (hg.ne_suffix _ (hfit (by omega)))
  | succ i =>
      cases j with
      | zero => exact absurd h.symm (hg.ne_suffix _ (hfit (by omega)))
      | succ j =>
          have := withRuleIDSuffix_inj hg.valid (hfit (by omega)) (hfit (by omega)) h
          omega

/-- With enough rounds the bounded loop ends as the unbounded one does, on the first wish
that is free. -/
theorem dedupeLoop_halts {generated id : String} {seen : List String} :
    ∀ {fuel i k : Nat}, (∃ d < fuel, wish generated id (i + 1 + d) ∉ seen) →
      ∃ j, i + 1 ≤ j ∧
        (dedupeLoop generated seen fuel (i + 2) (wish generated id (i + 1)) k).1 =
          wish generated id j ∧
        wish generated id j ∉ seen ∧ (∀ m, i + 1 ≤ m → m < j → wish generated id m ∈ seen) ∧
        SuffixLoop generated seen (i + 2) (wish generated id (i + 1)) (wish generated id j) := by
  intro fuel
  induction fuel with
  | zero => rintro i k ⟨d, hd, -⟩; omega
  | succ fuel ih =>
      rintro i k ⟨d, hd, hfree⟩
      by_cases hcur : wish generated id (i + 1) ∈ seen
      · -- the next round is about the next wish
        have hd0 : d ≠ 0 := by rintro rfl; exact hfree hcur
        obtain ⟨j, hj, heq, hjfree, hgone, hloop⟩ := ih (i := i + 1) (k := k + 1)
          ⟨d - 1, by omega, by rwa [show i + 1 + 1 + (d - 1) = i + 1 + d by omega]⟩
        refine ⟨j, by omega, ?_, hjfree, ?_, .next hcur hloop⟩
        · rw [dedupeLoop, if_pos (List.contains_iff_mem.mpr hcur)]
          exact heq
        · intro m hm hmj
          rcases Nat.eq_or_lt_of_le hm with rfl | hm
          · exact hcur
          · exact hgone m hm hmj
      · refine ⟨i + 1, le_refl _, ?_, hcur, ?_, .done hcur⟩
        · rw [dedupeLoop, if_neg (by rwa [List.contains_iff_mem])]
        · intro m hm hmj
          omega

/-- **One round of a pass** gives an item the first of its wishes that is free, and the
suffix loop in it ends. -/
theorem normalizeID_spec {generated : String} {seen : List String} (hg : Numbered generated)
    (hlen : seen.length < 10 ^ 120) (id : String) :
    (∃ j, (normalizeID generated seen id).1 = wish generated id j ∧
      wish generated id j ∉ seen ∧ ∀ i < j, wish generated id i ∈ seen) ∧
    SuffixLoop (loopBase generated seen id) seen 2 (loopBase generated seen id)
      (normalizeID generated seen id).1 := by
  by_cases hfirst : wish generated id 0 ∈ seen
  · have hcontains : seen.contains (repairID generated id).1 = true :=
      List.contains_iff_mem.mpr hfirst
    obtain ⟨d, hd, hfree⟩ : ∃ i ≤ seen.length, wish generated id (i + 1) ∉ seen :=
      exists_free fun i j hi hj => wish_inj hg (by omega) (by omega)
    have hends : ∃ d < seen.length + 1, wish generated id (0 + 1 + d) ∉ seen :=
      ⟨d, by omega, by rwa [Nat.add_comm (0 + 1) d]⟩
    obtain ⟨j, hj, heq, hjfree, hgone, hloop⟩ := dedupeLoop_halts (i := 0) (k := 0) hends
    have hid : (normalizeID generated seen id).1 = wish generated id j := by
      simp only [normalizeID, hcontains, if_true]
      exact heq
    refine ⟨⟨j, hid, hjfree, ?_⟩, ?_⟩
    · intro i hi
      cases i with
      | zero => exact hfirst
      | succ i => exact hgone (i + 1) (by omega) hi
    · rw [hid, loopBase, if_pos hcontains]
      exact hloop
  · have hcontains : seen.contains (repairID generated id).1 = false := by
      rw [Bool.eq_false_iff, ne_eq, List.contains_iff_mem]
      exact hfirst
    have hid : (normalizeID generated seen id).1 = wish generated id 0 := by
      simp only [normalizeID, hcontains, Bool.false_eq_true, if_false, dedupeLoop_free hcontains]
      rfl
    refine ⟨⟨0, hid, hfirst, fun i hi => absurd hi (Nat.not_lt_zero i)⟩, ?_⟩
    rw [hid, loopBase, hcontains]
    exact .done hfirst

/-- A well-formed id that is free is left alone, and nothing is counted. -/
theorem normalizeID_of_free {generated id : String} {seen : List String}
    (hv : ValidRuleID id = true) (hfree : id ∉ seen) :
    normalizeID generated seen id = (id, {}) := by
  have hcontains : seen.contains id = false := by
    rw [Bool.eq_false_iff, ne_eq, List.contains_iff_mem]
    exact hfree
  simp only [normalizeID, repairID_of_valid hv, hcontains, Bool.false_eq_true, if_false,
    dedupeLoop_free hcontains]
  rfl

/-! ### A pass is an allocation

So the ids of a pass are distinct, and an item has its first wish unless another has it before. -/

/-- An item kind whose generated ids can be numbered, and whose id is a field. -/
structure ItemKind.Durable {α : Type} (K : ItemKind α) : Prop extends K.Lawful where
  numbered : ∀ a i, Numbered (K.generated a i)
  withID_id : ∀ a, K.withID a (K.id a) = a

variable {α : Type} {K : ItemKind α}

/-- The wishes of a list of items from a position on. -/
def wishes (K : ItemKind α) (index : Nat) (items : List α) : List (Nat → String) :=
  (items.zipIdx index).map fun e => wish (K.generated e.1 e.2) (K.id e.1)

theorem wishes_cons (index : Nat) (a : α) (items : List α) :
    wishes K index (a :: items) =
      wish (K.generated a index) (K.id a) :: wishes K (index + 1) items := rfl

/-- A pass from a loop state: the ids it gives are an allocation, and are then taken. -/
theorem allotted_mapAccum (hK : K.Durable) : ∀ (items : List α) (s : LoopState),
    s.seen.length + items.length < 10 ^ 120 →
      Allotted s.seen (wishes K s.index items)
        ((mapAccum (normalizeStep K) s items).1.map K.id) ∧
      (mapAccum (normalizeStep K) s items).2.seen =
        ((mapAccum (normalizeStep K) s items).1.map K.id).reverse ++ s.seen := by
  intro items
  induction items with
  | nil => intro s _; exact ⟨.nil _, rfl⟩
  | cons a items ih =>
      intro s hlen
      rw [List.length_cons] at hlen
      obtain ⟨⟨j, hj, hfree, hgone⟩, -⟩ :=
        normalizeID_spec (hK.numbered a s.index) (show s.seen.length < 10 ^ 120 by omega) (K.id a)
      obtain ⟨hrest, hseen⟩ := ih (normalizeStep K s a).2
        (by simp only [normalizeStep, List.length_cons]; omega)
      have hid : K.id (normalizeStep K s a).1 = wish (K.generated a s.index) (K.id a) j := by
        simp only [normalizeStep, hK.id_withID, hj]
      rw [mapAccum_cons_fst, mapAccum_cons_snd, List.map_cons, hid, wishes_cons]
      have hnext : (normalizeStep K s a).2.seen =
          wish (K.generated a s.index) (K.id a) j :: s.seen := by
        simp only [normalizeStep, hj]
      rw [hnext] at hrest hseen
      refine ⟨.cons j hfree hgone hrest, ?_⟩
      rw [hseen, List.reverse_cons, List.append_assoc, List.singleton_append]

/-- The ids a pass gives are an allocation. -/
theorem allotted_normalizeItems (hK : K.Durable) {seen : List String} {items : List α}
    (hlen : seen.length + items.length < 10 ^ 120) :
    Allotted seen (wishes K 0 items) ((normalizeItems K seen items).1.map K.id) :=
  (allotted_mapAccum hK items { seen } hlen).1

theorem seen_normalizeItems (hK : K.Durable) {seen : List String} {items : List α}
    (hlen : seen.length + items.length < 10 ^ 120) :
    (normalizeItems K seen items).2.seen =
      ((normalizeItems K seen items).1.map K.id).reverse ++ seen :=
  (allotted_mapAccum hK items { seen } hlen).2

theorem valid_normalizeItems (hK : K.Durable) {seen : List String} {items : List α} :
    ∀ id ∈ (normalizeItems K seen items).1.map K.id, ValidRuleID id = true := by
  intro id hid
  obtain ⟨b, hb, rfl⟩ := List.mem_map.mp hid
  obtain ⟨s, a, -, rfl⟩ := mem_mapAccum hb
  simp only [normalizeStep, hK.id_withID]
  exact normalizeID_valid _ _ (hK.generated_valid _ _)

theorem length_normalizeItems (seen : List String) (items : List α) :
    (normalizeItems K seen items).1.length = items.length := by
  have h : ((normalizeItems K seen items).1).map (fun _ => ()) = items.map fun _ => () :=
    mapAccum_map_eq (fun _ => ()) (fun _ => ())
      (fun s a => (rfl : (fun _ => ()) (normalizeStep K s a).1 = ())) items { seen }
  have hlen := congrArg List.length h
  rwa [List.length_map, List.length_map] at hlen

/-- Well-formed, pairwise different ids that are free: a pass does nothing. -/
theorem mapAccum_quiet (hK : K.Durable) : ∀ (items : List α) (s : LoopState),
    (∀ a ∈ items, ValidRuleID (K.id a) = true) → (items.map K.id).Nodup →
    (∀ a ∈ items, K.id a ∉ s.seen) →
      (mapAccum (normalizeStep K) s items).1 = items ∧
      (mapAccum (normalizeStep K) s items).2.report = s.report := by
  intro items
  induction items with
  | nil => intro s _ _ _; exact ⟨rfl, rfl⟩
  | cons a items ih =>
      intro s hvalid hnodup hfree
      rw [List.map_cons, List.nodup_cons] at hnodup
      have hstep : normalizeStep K s a = (a, ⟨s.index + 1, K.id a :: s.seen, s.report⟩) := by
        unfold normalizeStep
        rw [normalizeID_of_free (hvalid a List.mem_cons_self) (hfree a List.mem_cons_self)]
        simp only [hK.withID_id]
        rfl
      obtain ⟨hitems, hreport⟩ := ih (normalizeStep K s a).2
        (fun b hb => hvalid b (List.mem_cons_of_mem _ hb)) hnodup.2 (by
          intro b hb
          rw [hstep, List.mem_cons, not_or]
          refine ⟨fun he => hnodup.1 ?_, hfree b (List.mem_cons_of_mem _ hb)⟩
          exact he ▸ List.mem_map_of_mem hb)
      rw [mapAccum_cons_fst, mapAccum_cons_snd, hitems, hreport, hstep]
      exact ⟨rfl, rfl⟩

/-- Normalized items are left alone by a second pass, and nothing is counted. -/
theorem normalizeItems_again (hK : K.Durable) {seen : List String} {items : List α}
    (hlen : seen.length + items.length < 10 ^ 120) :
    (normalizeItems K seen (normalizeItems K seen items).1).1 = (normalizeItems K seen items).1 ∧
      (normalizeItems K seen (normalizeItems K seen items).1).2.report = {} := by
  obtain ⟨hnodup, hfree⟩ := (allotted_normalizeItems hK hlen).nodup
  refine mapAccum_quiet hK _ { seen } ?_ hnodup ?_
  · intro a ha
    exact valid_normalizeItems hK _ (List.mem_map_of_mem ha)
  · intro a ha
    exact hfree _ (List.mem_map_of_mem ha)

/-- The suffix loops of a pass **end**: for the item at any place of the list, the loop from
the id it starts with, against the ids given to the items before, ends on the id the item
is given. -/
def LoopsEnd (K : ItemKind α) (seen : List String) (items : List α) : Prop :=
  ∀ done a rest, items = done ++ a :: rest →
    let s := (normalizeItems K seen done).2
    SuffixLoop (loopBase (K.generated a s.index) s.seen (K.id a)) s.seen 2
      (loopBase (K.generated a s.index) s.seen (K.id a))
      (normalizeID (K.generated a s.index) s.seen (K.id a)).1

theorem loopsEnd (hK : K.Durable) {seen : List String} {items : List α}
    (hlen : seen.length + items.length < 10 ^ 120) : LoopsEnd K seen items := by
  rintro done a rest rfl
  rw [List.length_append, List.length_cons] at hlen
  refine (normalizeID_spec (hK.numbered _ _) ?_ _).2
  rw [seen_normalizeItems hK (by omega), List.length_append, List.length_reverse, List.length_map,
    length_normalizeItems]
  omega

/-! ### The four kinds of items -/

theorem numbered_generatedID {kind name hash : String} (hk : IsKindLabel kind)
    (hlen : kind.toList.length ≤ 11) (hh : IsHash12 hash) :
    Numbered (generatedID kind name hash) :=
  ⟨ValidRuleID_generatedID hk hh, fun _ hn => generatedID_ne_suffix hk hlen hh hn⟩

theorem ruleKind_durable (H : IdentityHash) : (ruleKind H).Durable where
  toLawful := ruleKind_lawful H
  numbered _ _ :=
    numbered_generatedID ⟨'r', "ule-".toList, by decide⟩ (by decide) (H.rule_hash _ _)
  withID_id _ := rfl

theorem hostInputKind_durable (H : IdentityHash) : (hostInputKind H).Durable where
  toLawful := hostInputKind_lawful H
  numbered _ _ :=
    numbered_generatedID ⟨'h', "ost-input-".toList, by decide⟩ (by decide) (H.hostInput_hash _ _)
  withID_id _ := rfl

theorem sourceNatKind_durable (H : IdentityHash) : (sourceNatKind H).Durable where
  toLawful := sourceNatKind_lawful H
  numbered _ _ :=
    numbered_generatedID ⟨'s', "nat-".toList, by decide⟩ (by decide) (H.sourceNat_hash _ _)
  withID_id _ := rfl

theorem destinationNatKind_durable (H : IdentityHash) : (destinationNatKind H).Durable where
  toLawful := destinationNatKind_lawful H
  numbered _ _ :=
    numbered_generatedID ⟨'d', "nat-".toList, by decide⟩ (by decide) (H.destinationNat_hash _ _)
  withID_id _ := rfl

/-! ### Policies

One pass is about the rules, the other about host-input rules and translations, which have their ids
in common. Neither touches what the other gives ids to. -/

/-- The host-input rules of a policy. -/
def hostInputRules (p : Phragma.Policy) : List HostInputRule := (p.hostInput.getD {}).rules

/-- The ids of the forwarding rules. -/
def ruleIDs (p : Phragma.Policy) : List String := p.rules.map (·.id)

/-- The ids of the host-input rules, the source and the destination translations, together. -/
def itemIDs (p : Phragma.Policy) : List String :=
  (hostInputRules p).map (·.id) ++ (p.getNat.source.map (·.id) ++ p.getNat.destination.map (·.id))

/-- The policy without the ids of its rules. -/
def clearRuleIDs (p : Phragma.Policy) : Phragma.Policy :=
  { p with rules := p.rules.map fun r => { r with id := "" } }

/-- Host input without the ids of its rules. -/
def clearHostInput (hi : HostInput) : HostInput :=
  { hi with rules := hi.rules.map fun r => { r with id := "" } }

/-- Translations without their ids. -/
def clearNat (n : NatRules) : NatRules :=
  { source := n.source.map fun s => { s with id := "" }
    destination := n.destination.map fun d => { d with id := "" } }

/-- The policy without the ids of its items. -/
def clearItemIDs (p : Phragma.Policy) : Phragma.Policy :=
  { p with hostInput := p.hostInput.map clearHostInput, nat := p.nat.map clearNat }

/-- The ids taken when the item pass reaches the source translations. -/
def seenBySource (H : IdentityHash) (p : Phragma.Policy) : List String :=
  (normalizeItems (hostInputKind H) [] (hostInputRules p)).2.seen

/-- The ids taken when the item pass reaches the destination translations. -/
def seenByDestination (H : IdentityHash) (p : Phragma.Policy) : List String :=
  (normalizeItems (sourceNatKind H) (seenBySource H p) p.getNat.source).2.seen

/-- The suffix loops of the item pass end. -/
def ItemLoopsEnd (H : IdentityHash) (p : Phragma.Policy) : Prop :=
  LoopsEnd (hostInputKind H) [] (hostInputRules p) ∧
    LoopsEnd (sourceNatKind H) (seenBySource H p) p.getNat.source ∧
    LoopsEnd (destinationNatKind H) (seenByDestination H p) p.getNat.destination

/-- What the items wish for, in the order the item pass serves them. -/
def itemWishes (H : IdentityHash) (p : Phragma.Policy) : List (Nat → String) :=
  wishes (hostInputKind H) 0 (hostInputRules p) ++
    (wishes (sourceNatKind H) 0 p.getNat.source ++
      wishes (destinationNatKind H) 0 p.getNat.destination)

section ItemPass

variable (H : IdentityHash) (p : Phragma.Policy)

theorem hostInputRules_pass : hostInputRules (NormalizePolicyItemIDs H p).1 =
    (normalizeItems (hostInputKind H) [] (hostInputRules p)).1 := by
  simp only [hostInputRules, NormalizePolicyItemIDs, normalizeHostInput]
  cases p.hostInput with
  | none => rfl
  | some hi => rfl

theorem seen_normalizeHostInput : (normalizeHostInput H p).2.seen = seenBySource H p := by
  simp only [seenBySource, hostInputRules, normalizeHostInput]
  cases p.hostInput with
  | none => rfl
  | some hi => rfl

theorem source_pass : (NormalizePolicyItemIDs H p).1.getNat.source =
    (normalizeItems (sourceNatKind H) (seenBySource H p) p.getNat.source).1 := by
  simp only [getNat, NormalizePolicyItemIDs, seen_normalizeHostInput]
  cases p.nat with
  | none => rfl
  | some n => rfl

theorem destination_pass : (NormalizePolicyItemIDs H p).1.getNat.destination =
    (normalizeItems (destinationNatKind H) (seenByDestination H p) p.getNat.destination).1 := by
  simp only [getNat, NormalizePolicyItemIDs, seenByDestination, seen_normalizeHostInput]
  cases p.nat with
  | none => rfl
  | some n => rfl

theorem report_pass : (NormalizePolicyItemIDs H p).2 =
    { hostInput := (normalizeItems (hostInputKind H) [] (hostInputRules p)).2.report
      sourceNat := (normalizeItems (sourceNatKind H) (seenBySource H p) p.getNat.source).2.report
      destinationNat := (normalizeItems (destinationNatKind H) (seenByDestination H p)
        p.getNat.destination).2.report } := by
  simp only [NormalizePolicyItemIDs, seenByDestination, seen_normalizeHostInput, getNat]
  have hhost : (normalizeHostInput H p).2.report =
      (normalizeItems (hostInputKind H) [] (hostInputRules p)).2.report := by
    simp only [hostInputRules, normalizeHostInput]
    cases p.hostInput with
    | none => rfl
    | some hi => rfl
  rw [hhost]
  cases p.nat with
  | none => rfl
  | some n => rfl

variable {H p}

theorem length_itemIDs : (itemIDs p).length = (hostInputRules p).length +
    (p.getNat.source.length + p.getNat.destination.length) := by
  simp only [itemIDs, List.length_append, List.length_map]

theorem seenBySource_eq (hlen : (itemIDs p).length < 10 ^ 120) : seenBySource H p =
    ((normalizeItems (hostInputKind H) [] (hostInputRules p)).1.map (·.id)).reverse := by
  rw [length_itemIDs] at hlen
  rw [seenBySource, seen_normalizeItems (hostInputKind_durable H) (by rw [List.length_nil]; omega),
    List.append_nil]
  rfl

theorem seenByDestination_eq (hlen : (itemIDs p).length < 10 ^ 120) : seenByDestination H p =
    ((normalizeItems (sourceNatKind H) (seenBySource H p) p.getNat.source).1.map
      (·.id)).reverse ++ seenBySource H p := by
  have hseen := congrArg List.length (seenBySource_eq (H := H) hlen)
  rw [List.length_reverse, List.length_map, length_normalizeItems] at hseen
  rw [length_itemIDs] at hlen
  rw [seenByDestination, seen_normalizeItems (sourceNatKind_durable H) (by omega)]
  rfl

/-- What is taken when a list of the item pass is reached leaves room for the list. -/
theorem room_items (hlen : (itemIDs p).length < 10 ^ 120) :
    ([] : List String).length + (hostInputRules p).length < 10 ^ 120 ∧
    (seenBySource H p).length + p.getNat.source.length < 10 ^ 120 ∧
    (seenByDestination H p).length + p.getNat.destination.length < 10 ^ 120 := by
  have hsource := congrArg List.length (seenBySource_eq (H := H) hlen)
  have hdestination := congrArg List.length (seenByDestination_eq (H := H) hlen)
  rw [List.length_reverse, List.length_map, length_normalizeItems] at hsource
  rw [List.length_append, List.length_reverse, List.length_map, length_normalizeItems]
    at hdestination
  rw [length_itemIDs] at hlen
  rw [List.length_nil]
  omega

/-- **The item pass is one allocation** over its three lists. -/
theorem allotted_items (hlen : (itemIDs p).length < 10 ^ 120) :
    Allotted [] (itemWishes H p) (itemIDs (NormalizePolicyItemIDs H p).1) := by
  obtain ⟨hhost, hsource, hdestination⟩ := room_items (H := H) hlen
  rw [itemIDs, hostInputRules_pass, source_pass, destination_pass]
  refine (allotted_normalizeItems (hostInputKind_durable H) hhost).append ?_
  rw [List.append_nil]
  show Allotted ((normalizeItems (hostInputKind H) [] (hostInputRules p)).1.map (·.id)).reverse _ _
  rw [← seenBySource_eq hlen]
  refine (allotted_normalizeItems (sourceNatKind_durable H) hsource).append ?_
  show Allotted (((normalizeItems (sourceNatKind H) (seenBySource H p) p.getNat.source).1.map
    (·.id)).reverse ++ seenBySource H p) _ _
  rw [← seenByDestination_eq hlen]
  exact allotted_normalizeItems (destinationNatKind_durable H) hdestination

theorem clearItemIDs_pass : clearItemIDs (NormalizePolicyItemIDs H p).1 = clearItemIDs p := by
  have hhost : (normalizeHostInput H p).1.map clearHostInput = p.hostInput.map clearHostInput := by
    unfold normalizeHostInput
    cases p.hostInput with
    | none => rfl
    | some hi =>
        have h := normalizeItems_map (K := hostInputKind H)
          (f := fun r : HostInputRule => { r with id := "" }) (fun _ _ => rfl) [] hi.rules
        simp only [Option.map_some, clearHostInput, h]
  have hnat : ∀ seen, (normalizeNat H seen p.nat).1.map clearNat = p.nat.map clearNat := by
    intro seen
    cases p.nat with
    | none => rfl
    | some n =>
        have hs := normalizeItems_map (K := sourceNatKind H)
          (f := fun s : SourceNat => { s with id := "" }) (fun _ _ => rfl) seen n.source
        have hd := normalizeItems_map (K := destinationNatKind H)
          (f := fun d : DestinationNat => { d with id := "" }) (fun _ _ => rfl)
          (normalizeItems (sourceNatKind H) seen n.source).2.seen n.destination
        simp only [normalizeNat, Option.map_some, clearNat, hs, hd]
  simp only [clearItemIDs, NormalizePolicyItemIDs, hhost, hnat]

/-- The second item pass counts nothing. -/
theorem report_again (hlen : (itemIDs p).length < 10 ^ 120) :
    (NormalizePolicyItemIDs H (NormalizePolicyItemIDs H p).1).2 = {} := by
  obtain ⟨hhost, hsource, hdestination⟩ := room_items (H := H) hlen
  obtain ⟨hhi, hhr⟩ := normalizeItems_again (hostInputKind_durable H) hhost
  obtain ⟨hsi, hsr⟩ := normalizeItems_again (sourceNatKind_durable H) hsource
  obtain ⟨-, hdr⟩ := normalizeItems_again (destinationNatKind_durable H) hdestination
  -- the second pass reaches each list with the ids the first one had taken there
  have hlen' : (itemIDs (NormalizePolicyItemIDs H p).1).length < 10 ^ 120 := by
    rw [(allotted_items (H := H) hlen).length_eq]
    simpa [itemWishes, wishes, length_itemIDs] using hlen
  have hseen : seenBySource H (NormalizePolicyItemIDs H p).1 = seenBySource H p := by
    rw [seenBySource_eq hlen', seenBySource_eq hlen, hostInputRules_pass, hhi]
  have hseen' : seenByDestination H (NormalizePolicyItemIDs H p).1 = seenByDestination H p := by
    rw [seenByDestination_eq hlen', seenByDestination_eq hlen, hseen, source_pass, hsi]
  rw [report_pass, hostInputRules_pass, source_pass, destination_pass, hseen, hseen', hhr, hsr, hdr]

end ItemPass

/-- **Identity normalization.** For every policy, whose lists have lengths that a Go `int`
holds: both passes end; the ids they leave are well formed and pairwise different, the ids
of host-input rules and of both kinds of translations taken together; order and everything
but the ids is as it was; and a second application changes nothing and reports no change. -/
theorem identity_normalization (H : IdentityHash) (p : Phragma.Policy)
    (hrules : (ruleIDs p).length < 2 ^ 63) (hitems : (itemIDs p).length < 2 ^ 63) :
    (LoopsEnd (ruleKind H) [] p.rules ∧ ItemLoopsEnd H p) ∧
    ((∀ id ∈ ruleIDs (NormalizeRuleIDs H p).1, ValidRuleID id = true) ∧
      (ruleIDs (NormalizeRuleIDs H p).1).Nodup) ∧
    ((∀ id ∈ itemIDs (NormalizePolicyItemIDs H p).1, ValidRuleID id = true) ∧
      (itemIDs (NormalizePolicyItemIDs H p).1).Nodup) ∧
    (clearRuleIDs (NormalizeRuleIDs H p).1 = clearRuleIDs p ∧
      clearItemIDs (NormalizePolicyItemIDs H p).1 = clearItemIDs p) ∧
    ((NormalizeRuleIDs H (NormalizeRuleIDs H p).1).1 = (NormalizeRuleIDs H p).1 ∧
      (NormalizeRuleIDs H (NormalizeRuleIDs H p).1).2.changed = false) ∧
    ((NormalizePolicyItemIDs H (NormalizePolicyItemIDs H p).1).1 =
        (NormalizePolicyItemIDs H p).1 ∧
      (NormalizePolicyItemIDs H (NormalizePolicyItemIDs H p).1).2.changed = false) := by
  have hitems' : (itemIDs p).length < 10 ^ 120 := by omega
  obtain ⟨hhost, hsource, hdestination⟩ := room_items (H := H) hitems'
  have hrules' : ([] : List String).length + p.rules.length < 10 ^ 120 := by
    rw [ruleIDs, List.length_map] at hrules
    rw [List.length_nil]
    omega
  refine ⟨⟨loopsEnd (ruleKind_durable H) hrules', loopsEnd (hostInputKind_durable H) hhost,
    loopsEnd (sourceNatKind_durable H) hsource,
    loopsEnd (destinationNatKind_durable H) hdestination⟩, ⟨?_, ?_⟩, ⟨?_, ?_⟩, ⟨?_, ?_⟩, ⟨?_, ?_⟩,
    ?_, ?_⟩
  · exact valid_normalizeItems (ruleKind_durable H)
  · exact (allotted_normalizeItems (ruleKind_durable H) hrules').nodup.1
  · intro id hid
    rw [itemIDs, hostInputRules_pass, source_pass, destination_pass] at hid
    rcases List.mem_append.mp hid with hid | hid
    · exact valid_normalizeItems (hostInputKind_durable H) id hid
    · rcases List.mem_append.mp hid with hid | hid
      · exact valid_normalizeItems (sourceNatKind_durable H) id hid
      · exact valid_normalizeItems (destinationNatKind_durable H) id hid
  · exact (allotted_items hitems').nodup.1
  · have hclear := normalizeItems_map (K := ruleKind H)
      (f := fun r : Rule => { r with id := "" }) (fun _ _ => rfl) [] p.rules
    simp only [clearRuleIDs, NormalizeRuleIDs, hclear]
  · exact clearItemIDs_pass
  · exact NormalizeRuleIDs_idem H p
  · have hreport := (normalizeItems_again (ruleKind_durable H) hrules').2
    simp only [NormalizeRuleIDs, hreport]
    rfl
  · exact NormalizePolicyItemIDs_idem H p
  · rw [report_again hitems']
    rfl

/-- A digest for the rules of the examples below: the real one of an allow rule called
`web` (its encoding is `0a 03 77 65 62 38 01`). -/
def webHash : IdentityHash :=
  { IdentityHash.zero with
    rule := fun _ _ => "fc5c4e2ffe33"
    rule_hash := fun _ _ => ⟨by decide, by decide⟩ }

/-- An allow rule, and above it a copy of it whose id has been cleared. -/
def copiedRule : Phragma.Policy where
  rules := [{ name := "web", action := .allow },
    { name := "web", action := .allow, id := "rule-web-fc5c4e2ffe33" }]

theorem identity_normalization_copiedRule :
    (ruleIDs copiedRule).length < 2 ^ 63 ∧ (itemIDs copiedRule).length < 2 ^ 63 ∧
      (ruleIDs (NormalizeRuleIDs webHash copiedRule).1).Nodup ∧
      (NormalizeRuleIDs webHash (NormalizeRuleIDs webHash copiedRule).1).2.changed = false := by
  have hrules : (ruleIDs copiedRule).length < 2 ^ 63 := by decide
  have hitems : (itemIDs copiedRule).length < 2 ^ 63 := by decide
  have h := identity_normalization webHash copiedRule hrules hitems
  exact ⟨hrules, hitems, h.2.1.2, h.2.2.2.2.1.2⟩

/-! ### Usable ids are kept, or claimed

A usable id is lost only to an item before it, which claims it. -/

/-- The id at a position is **usable**: well formed, and at no other position. -/
structure UsableAt (ids : List String) (i : Nat) (id : String) : Prop where
  at_pos : ids[i]? = some id
  valid : ValidRuleID id = true
  alone : ∀ j, j ≠ i → ids[j]? ≠ some id

/-- A pass that turns `ids` into `ids'` **keeps** the usable ids. -/
def Kept (ids ids' : List String) : Prop := ∀ i id, UsableAt ids i id → ids'[i]? = some id

/-- No usable id is claimed by what stands before it. -/
def Unclaimed (wishes : List (Nat → String)) (ids : List String) : Prop :=
  ∀ i id, UsableAt ids i id → ¬ Claimed [] wishes i id

/-- The first wishes of items are their ids, where these are well formed. -/
theorem wishes_getElem? {index i : Nat} {items : List α} {id : String}
    (h : (items.map K.id)[i]? = some id) (hv : ValidRuleID id = true) :
    ∃ w, (wishes K index items)[i]? = some w ∧ w 0 = id := by
  rw [List.getElem?_map, Option.map_eq_some_iff] at h
  obtain ⟨a, ha, rfl⟩ := h
  refine ⟨wish (K.generated a (index + i)) (K.id a), ?_, ?_⟩
  · rw [wishes, List.getElem?_map, List.getElem?_zipIdx, ha]
    rfl
  · simp only [wish, repairID_of_valid hv]

/-- Two lists of items, one after the other. -/
theorem first_append {ws ws' : List (Nat → String)} {ids ids' : List String}
    (hlen : ws.length = ids.length)
    (h : ∀ {i : Nat} {id : String}, ids[i]? = some id → ValidRuleID id = true →
      ∃ w, ws[i]? = some w ∧ w 0 = id)
    (h' : ∀ {i : Nat} {id : String}, ids'[i]? = some id → ValidRuleID id = true →
      ∃ w, ws'[i]? = some w ∧ w 0 = id)
    {i : Nat} {id : String} (hid : (ids ++ ids')[i]? = some id) (hv : ValidRuleID id = true) :
    ∃ w, (ws ++ ws')[i]? = some w ∧ w 0 = id := by
  by_cases hi : i < ids.length
  · rw [List.getElem?_append_left hi] at hid
    rw [List.getElem?_append_left (hlen ▸ hi)]
    exact h hid hv
  · rw [List.getElem?_append_right (Nat.not_lt.mp hi)] at hid
    rw [List.getElem?_append_right (hlen ▸ Nat.not_lt.mp hi), hlen]
    exact h' hid hv

/-- An allocation keeps the usable ids exactly when they are unclaimed. -/
theorem kept_iff_unclaimed {ws : List (Nat → String)} {ids ids' : List String}
    (hall : Allotted [] ws ids')
    (hfirst : ∀ {i : Nat} {id : String}, ids[i]? = some id → ValidRuleID id = true →
      ∃ w, ws[i]? = some w ∧ w 0 = id) : Kept ids ids' ↔ Unclaimed ws ids := by
  have hone : ∀ i id, UsableAt ids i id → (ids'[i]? = some id ↔ ¬ Claimed [] ws i id) := by
    intro i id hu
    obtain ⟨w, hw, rfl⟩ := hfirst hu.at_pos hu.valid
    exact hall.first_iff hw
  constructor
  · intro hkept i id hu
    exact (hone i id hu).mp (hkept i id hu)
  · intro hunclaimed i id hu
    exact (hone i id hu).mpr (hunclaimed i id hu)

theorem length_wishes (index : Nat) (items : List α) :
    (wishes K index items).length = (items.map K.id).length := by
  simp only [wishes, List.length_map, List.length_zipIdx]

/-- **Which identities are kept.** The passes keep every usable id, of rules and of items,
if and only if no usable id is claimed by a rule, or an item, that stands before it. An
element asks for its own trimmed id when that is well formed, then for the id generated
from its name and digest, then for that id with the suffixes 2, 3, …; it claims one of
these when all it asks for before that is claimed by elements before it. -/
theorem identity_kept_iff (H : IdentityHash) (p : Phragma.Policy)
    (hrules : (ruleIDs p).length < 2 ^ 63) (hitems : (itemIDs p).length < 2 ^ 63) :
    (Kept (ruleIDs p) (ruleIDs (NormalizeRuleIDs H p).1) ∧
      Kept (itemIDs p) (itemIDs (NormalizePolicyItemIDs H p).1)) ↔
    (Unclaimed (wishes (ruleKind H) 0 p.rules) (ruleIDs p) ∧
      Unclaimed (itemWishes H p) (itemIDs p)) := by
  have hrules' : ([] : List String).length + p.rules.length < 10 ^ 120 := by
    rw [ruleIDs, List.length_map] at hrules
    rw [List.length_nil]
    omega
  refine and_congr ?_ ?_
  · exact kept_iff_unclaimed (allotted_normalizeItems (ruleKind_durable H) hrules')
      (wishes_getElem? (K := ruleKind H))
  · refine kept_iff_unclaimed (allotted_items (by omega)) ?_
    exact first_append (length_wishes (K := hostInputKind H) 0 _)
      (wishes_getElem? (K := hostInputKind H))
      (first_append (length_wishes (K := sourceNatKind H) 0 _)
        (wishes_getElem? (K := sourceNatKind H)) (wishes_getElem? (K := destinationNatKind H)))

theorem identity_kept_iff_copiedRule :
    (ruleIDs copiedRule).length < 2 ^ 63 ∧ (itemIDs copiedRule).length < 2 ^ 63 ∧
      ((Kept (ruleIDs copiedRule) (ruleIDs (NormalizeRuleIDs webHash copiedRule).1) ∧
        Kept (itemIDs copiedRule) (itemIDs (NormalizePolicyItemIDs webHash copiedRule).1)) ↔
      (Unclaimed (wishes (ruleKind webHash) 0 copiedRule.rules) (ruleIDs copiedRule) ∧
        Unclaimed (itemWishes webHash copiedRule) (itemIDs copiedRule))) := by
  have hrules : (ruleIDs copiedRule).length < 2 ^ 63 := by decide
  have hitems : (itemIDs copiedRule).length < 2 ^ 63 := by decide
  exact ⟨hrules, hitems, identity_kept_iff webHash copiedRule hrules hitems⟩

/-- The copy takes the id of the original, which is the only rule that carries it and is
renamed. -/
theorem original_renamed :
    UsableAt (ruleIDs copiedRule) 1 "rule-web-fc5c4e2ffe33" ∧
      ruleIDs (NormalizeRuleIDs webHash copiedRule).1 =
        ["rule-web-fc5c4e2ffe33", "rule-web-fc5c4e2ffe33-2"] ∧
      ¬ Kept (ruleIDs copiedRule) (ruleIDs (NormalizeRuleIDs webHash copiedRule).1) := by
  have husable : UsableAt (ruleIDs copiedRule) 1 "rule-web-fc5c4e2ffe33" := by
    refine ⟨by decide, by decide +kernel, ?_⟩
    intro j hj
    match j with
    | 0 => decide
    | 1 => exact absurd rfl hj
    | j + 2 => exact fun h => by cases h
  have hids : ruleIDs (NormalizeRuleIDs webHash copiedRule).1 =
      ["rule-web-fc5c4e2ffe33", "rule-web-fc5c4e2ffe33-2"] := by decide +kernel
  refine ⟨husable, hids, fun hkept => ?_⟩
  have h := hkept 1 _ husable
  rw [hids] at h
  exact absurd h (by decide)

end Phragma.Policy
