import Mathlib.Data.List.Dedup
import Mathlib.Data.List.Nodup
import Phragma.Lib.Resolve

/-!
# Phragma.Lib.KeyedDiff

**The changes between two lists whose items go by a key.** Both lists are put into maps from keys
to items: what only the new map has was added, what only the old map has was removed, and what
both have with another content was modified. A map is iterated in an order of its own, which is a
parameter here.

Where no two items of a list have one key, `mem_changes_iff` says which changes there are, and
`perm_filter_of_changes` what a diff without changes of a kind says about the lists.
-/

namespace Phragma.Lib

variable {α : Type}

/-- One change, with the position of the item it is about. -/
inductive Change (α : Type)
  | added (after : α) (index : Nat)
  | modified (before after : α) (index : Nat)
  | removed (before : α) (index : Nat)
  deriving DecidableEq, Repr

/-- The item a change shows: the one after it, or the one that was removed. -/
def Change.shown : Change α → α
  | .added a _ => a
  | .modified _ a _ => a
  | .removed b _ => b

/-- The position of the item a change shows. -/
def Change.index : Change α → Nat
  | .added _ i => i
  | .modified _ _ i => i
  | .removed _ i => i

/-- The orders in which the new and the old map are iterated. -/
structure MapOrders where
  new : List String → List String
  old : List String → List String
  perm_new : ∀ keys, (new keys).Perm keys
  perm_old : ∀ keys, (old keys).Perm keys

/-- Both maps in the order their keys were entered. -/
def MapOrders.asEntered : MapOrders := ⟨id, id, fun _ => .refl _, fun _ => .refl _⟩

/-! ### Maps of items

A map is filled in list order, so of two items of one key it has the later one. -/

section Maps

/-- Items under their keys, with their positions. Of two items with one key the later one
counts. -/
def keyed (key : α → Nat → String) (l : List α) : List (String × α × Nat) :=
  tableOf (fun x => key x.1 x.2) id l.zipIdx

/-- The keys of a map. -/
def mapKeys (m : List (String × α × Nat)) : List String := (m.map Prod.fst).dedup

variable [DecidableEq α]

/-- What is found about a key of the new map. -/
def newChange (old new : List (String × α × Nat)) (k : String) : Option (Change α) :=
  match new.lookup k, old.lookup k with
  | some (a, i), none => some (.added a i)
  | some (a, i), some (b, _) => if b = a then none else some (.modified b a i)
  | none, _ => none

/-- What is found about a key of the old map. -/
def goneChange (old new : List (String × α × Nat)) (k : String) : Option (Change α) :=
  match old.lookup k, new.lookup k with
  | some (b, i), none => some (.removed b i)
  | _, _ => none

/-- The changes between two lists. -/
def changes (orders : MapOrders) (key : α → Nat → String) (before after : List α) :
    List (Change α) :=
  let old := keyed key before
  let new := keyed key after
  (orders.new (mapKeys new)).filterMap (newChange old new) ++
    (orders.old (mapKeys old)).filterMap (goneChange old new)

end Maps

/-! ### Lists without two items of one key

Here the map is the list, and changes can be read off the lists. -/

/-- The key of an item is its name, wherever it stands, and names no other item of the list. -/
structure KeyedBy (key : α → Nat → String) (name : α → String) (l : List α) : Prop where
  key_eq : ∀ a ∈ l, ∀ i, key a i = name a
  nodup : (l.map name).Nodup

section Distinct

variable {key : α → Nat → String} {name : α → String} {before after l : List α}

theorem KeyedBy.nodup_list (h : KeyedBy key name l) : l.Nodup := h.nodup.of_map name

theorem KeyedBy.map_keys (h : KeyedBy key name l) :
    l.zipIdx.map (fun x => key x.1 x.2) = l.map name := by
  have hmap : l.zipIdx.map (fun x => key x.1 x.2) = l.zipIdx.map fun x => name x.1 :=
    List.map_congr_left fun x hx => h.key_eq x.1 (List.fst_mem_of_mem_zipIdx hx) x.2
  calc l.zipIdx.map (fun x => key x.1 x.2) = l.zipIdx.map (name ∘ Prod.fst) := hmap
    _ = (l.zipIdx.map Prod.fst).map name := List.map_map.symm
    _ = l.map name := by rw [List.zipIdx_map_fst]

/-- **A lookup finds the one item of a name**, with its position. -/
theorem KeyedBy.lookup_iff (h : KeyedBy key name l) {k : String} {a : α} {i : Nat} :
    (keyed key l).lookup k = some (a, i) ↔ l[i]? = some a ∧ name a = k := by
  constructor
  · intro hlookup
    obtain ⟨x, hx, hkey, rfl⟩ := exists_of_lookup_tableOf hlookup
    have hget : l[i]? = some a := List.mk_mem_zipIdx_iff_getElem?.mp hx
    exact ⟨hget, (h.key_eq a (List.mem_of_getElem? hget) i).symm.trans hkey⟩
  · rintro ⟨hget, rfl⟩
    have hnd : (l.zipIdx.map fun x => key x.1 x.2).Nodup := by
      rw [h.map_keys]
      exact h.nodup
    have hmem : (a, i) ∈ l.zipIdx := List.mk_mem_zipIdx_iff_getElem?.mpr hget
    rw [← h.key_eq a (List.mem_of_getElem? hget) i]
    exact @lookup_tableOf_of_mem _ _ (fun x : α × Nat => key x.1 x.2) id _ hnd _ hmem

theorem KeyedBy.mem_mapKeys (h : KeyedBy key name l) {k : String} :
    k ∈ mapKeys (keyed key l) ↔ k ∈ l.map name := by
  have hkeys : (keyed key l).map Prod.fst = (l.map name).reverse := by
    rw [keyed, tableOf, List.map_reverse, List.map_map, ← h.map_keys]
    rfl
  rw [mapKeys, List.mem_dedup, hkeys, List.mem_reverse]

theorem KeyedBy.lookup_none_iff (h : KeyedBy key name l) {k : String} :
    (keyed key l).lookup k = none ↔ k ∉ l.map name := by
  rw [← h.mem_mapKeys, mapKeys, List.mem_dedup, List.lookup_eq_none_iff]
  refine ⟨fun hne hk => ?_, fun hk p hp => ?_⟩
  · obtain ⟨p, hp, rfl⟩ := List.mem_map.mp hk
    simpa using hne p hp
  · exact bne_iff_ne.mpr fun hkp => hk (hkp ▸ List.mem_map_of_mem hp)

/-- What a change says about the two lists. -/
def Change.Holds (name : α → String) (before after : List α) : Change α → Prop
  | .added a i => after[i]? = some a ∧ name a ∉ before.map name
  | .modified b a i => after[i]? = some a ∧ b ∈ before ∧ name b = name a ∧ b ≠ a
  | .removed b i => before[i]? = some b ∧ name b ∉ after.map name

theorem newChange_iff [DecidableEq α] (hb : KeyedBy key name before)
    (ha : KeyedBy key name after) {k : String} {c : Change α} :
    newChange (keyed key before) (keyed key after) k = some c ↔
      (∃ a i, c = .added a i ∧ after[i]? = some a ∧ name a = k ∧ k ∉ before.map name) ∨
      ∃ b a i, c = .modified b a i ∧ after[i]? = some a ∧ name a = k ∧ b ∈ before ∧
        name b = k ∧ b ≠ a := by
  unfold newChange
  cases hnew : (keyed key after).lookup k with
  | none =>
      have hk := ha.lookup_none_iff.mp hnew
      have hno : ∀ {a : α} {i : Nat}, after[i]? = some a → name a ≠ k := fun hget hname =>
        hk (hname ▸ List.mem_map_of_mem (List.mem_of_getElem? hget))
      refine iff_of_false nofun ?_
      rintro (⟨a, i, -, hget, hname, -⟩ | ⟨b, a, i, -, hget, hname, -⟩)
      · exact hno hget hname
      · exact hno hget hname
  | some ai =>
      obtain ⟨a, i⟩ := ai
      obtain ⟨hget, hname⟩ := ha.lookup_iff.mp hnew
      -- the item and the position of a name are the only ones
      have huniq : ∀ {a' : α} {i' : Nat}, after[i']? = some a' → name a' = k →
          a' = a ∧ i' = i := by
        intro a' i' hget' hname'
        have h := ha.lookup_iff.mpr ⟨hget', hname'⟩
        rw [hnew] at h
        cases h
        exact ⟨rfl, rfl⟩
      cases hold : (keyed key before).lookup k with
      | none =>
          have hk := hb.lookup_none_iff.mp hold
          dsimp only
          constructor
          · rintro ⟨⟩
            exact .inl ⟨a, i, rfl, hget, hname, hk⟩
          · rintro (⟨a', i', rfl, hget', hname', -⟩ | ⟨b, a', i', -, -, -, hmem, hname', -⟩)
            · obtain ⟨rfl, rfl⟩ := huniq hget' hname'
              rfl
            · exact absurd (hname' ▸ List.mem_map_of_mem hmem) hk
      | some bj =>
          obtain ⟨b, j⟩ := bj
          obtain ⟨hgetb, hnameb⟩ := hb.lookup_iff.mp hold
          have hmemb := List.mem_of_getElem? hgetb
          dsimp only
          constructor
          · intro h
            split at h
            · cases h
            · next hne =>
                cases h
                exact .inr ⟨b, a, i, rfl, hget, hname, hmemb, hnameb, hne⟩
          · rintro (⟨a', i', -, -, -, hk⟩ | ⟨b', a', i', rfl, hget', hname', hmem', hnameb', hne⟩)
            · exact absurd (hnameb ▸ List.mem_map_of_mem hmemb) hk
            · obtain ⟨rfl, rfl⟩ := huniq hget' hname'
              obtain rfl : b' = b :=
                List.inj_on_of_nodup_map hb.nodup hmem' hmemb (hnameb'.trans hnameb.symm)
              exact if_neg hne

theorem goneChange_iff (hb : KeyedBy key name before) (ha : KeyedBy key name after) {k : String}
    {c : Change α} : goneChange (keyed key before) (keyed key after) k = some c ↔
      ∃ b i, c = .removed b i ∧ before[i]? = some b ∧ name b = k ∧ k ∉ after.map name := by
  unfold goneChange
  cases hold : (keyed key before).lookup k with
  | none =>
      refine iff_of_false nofun ?_
      rintro ⟨b, i, -, hget, hname, -⟩
      exact hb.lookup_none_iff.mp hold (hname ▸ List.mem_map_of_mem (List.mem_of_getElem? hget))
  | some bi =>
      obtain ⟨b, i⟩ := bi
      obtain ⟨hget, hname⟩ := hb.lookup_iff.mp hold
      cases hnew : (keyed key after).lookup k with
      | none =>
          dsimp only
          constructor
          · rintro ⟨⟩
            exact ⟨b, i, rfl, hget, hname, ha.lookup_none_iff.mp hnew⟩
          · rintro ⟨b', i', rfl, hget', hname', -⟩
            have h := hb.lookup_iff.mpr ⟨hget', hname'⟩
            rw [hold] at h
            cases h
            rfl
      | some aj =>
          refine iff_of_false nofun ?_
          rintro ⟨b', i', -, -, -, hk⟩
          rw [ha.lookup_none_iff.mpr hk] at hnew
          cases hnew

variable [DecidableEq α] {o : MapOrders}

/-- **Which changes there are.** -/
theorem mem_changes_iff (hb : KeyedBy key name before) (ha : KeyedBy key name after)
    {c : Change α} : c ∈ changes o key before after ↔ c.Holds name before after := by
  have hmem : ∀ {a : α} {i : Nat} {l : List α}, l[i]? = some a → name a ∈ l.map name :=
    fun hget => List.mem_map_of_mem (List.mem_of_getElem? hget)
  simp only [changes, List.mem_append, List.mem_filterMap, (o.perm_new _).mem_iff,
    (o.perm_old _).mem_iff, ha.mem_mapKeys, hb.mem_mapKeys, newChange_iff hb ha,
    goneChange_iff hb ha]
  constructor
  · rintro (⟨k, -, ⟨a, i, rfl, hget, rfl, hk⟩ | ⟨b, a, i, rfl, hget, rfl, hmemb, hname, hne⟩⟩ |
      ⟨k, -, b, i, rfl, hget, rfl, hk⟩)
    · exact ⟨hget, hk⟩
    · exact ⟨hget, hmemb, hname, hne⟩
    · exact ⟨hget, hk⟩
  · intro h
    cases c with
    | added a i => exact .inl ⟨name a, hmem h.1, .inl ⟨a, i, rfl, h.1, rfl, h.2⟩⟩
    | modified b a i =>
        exact .inl ⟨name a, hmem h.1, .inr ⟨b, a, i, rfl, h.1, rfl, h.2.1, h.2.2.1, h.2.2.2⟩⟩
    | removed b i => exact .inr ⟨name b, hmem h.1, b, i, rfl, h.1, rfl, h.2⟩

/-- A change that leaves the items of a kind alone. -/
def Change.Spares (p : α → Bool) : Change α → Prop
  | .added a _ => p a = false
  | .modified _ _ _ => False
  | .removed b _ => p b = false

/-- **Changes that spare a kind of items** leave the items of that kind the same, up to their
order. -/
theorem perm_filter_of_changes (hb : KeyedBy key name before) (ha : KeyedBy key name after)
    {p : α → Bool} (h : ∀ c ∈ changes o key before after, c.Spares p) :
    (before.filter p).Perm (after.filter p) := by
  have hspares : ∀ c : Change α, c.Holds name before after → c.Spares p := fun c hc =>
    h c ((mem_changes_iff hb ha).mpr hc)
  refine (List.perm_ext_iff_of_nodup (hb.nodup_list.filter p) (ha.nodup_list.filter p)).mpr
    fun x => ?_
  rw [List.mem_filter, List.mem_filter]
  constructor
  · rintro ⟨hx, hp⟩
    obtain ⟨i, hi⟩ := List.mem_iff_getElem?.mp hx
    by_cases hname : name x ∈ after.map name
    · obtain ⟨y, hy, hyx⟩ := List.mem_map.mp hname
      obtain ⟨j, hj⟩ := List.mem_iff_getElem?.mp hy
      by_cases hne : x = y
      · exact ⟨hne ▸ hy, hp⟩
      · exact (hspares (.modified x y j) ⟨hj, hx, hyx.symm, hne⟩).elim
    · have hgone : p x = false := hspares (.removed x i) ⟨hi, hname⟩
      rw [hp] at hgone
      cases hgone
  · rintro ⟨hx, hp⟩
    obtain ⟨i, hi⟩ := List.mem_iff_getElem?.mp hx
    by_cases hname : name x ∈ before.map name
    · obtain ⟨y, hy, hyx⟩ := List.mem_map.mp hname
      by_cases hne : y = x
      · exact ⟨hne ▸ hy, hp⟩
      · exact (hspares (.modified y x i) ⟨hi, hy, hyx, hne⟩).elim
    · have hnew : p x = false := hspares (.added x i) ⟨hi, hname⟩
      rw [hp] at hnew
      cases hnew

/-- **Lists have no changes between them exactly when they are the same up to their order.** -/
theorem changes_eq_nil_iff (hb : KeyedBy key name before) (ha : KeyedBy key name after) :
    changes o key before after = [] ↔ before.Perm after := by
  constructor
  · intro h
    have hperm := perm_filter_of_changes hb ha (p := fun _ => true) (o := o)
      fun c hc => by
        rw [h] at hc
        cases hc
    rwa [List.filter_true, List.filter_true] at hperm
  · intro hperm
    refine List.eq_nil_iff_forall_not_mem.mpr fun c hc => ?_
    have hnames : ∀ {x : String}, x ∈ before.map name ↔ x ∈ after.map name :=
      (hperm.map name).mem_iff
    have hholds := (mem_changes_iff hb ha).mp hc
    cases c with
    | added a i =>
        exact hholds.2 (hnames.mpr (List.mem_map_of_mem (List.mem_of_getElem? hholds.1)))
    | modified b a i =>
        obtain ⟨hget, hmem, hname, hne⟩ := hholds
        exact hne (List.inj_on_of_nodup_map ha.nodup (hperm.mem_iff.mp hmem)
          (List.mem_of_getElem? hget) hname)
    | removed b i =>
        exact hholds.2 (hnames.mp (List.mem_map_of_mem (List.mem_of_getElem? hholds.1)))

end Distinct

end Phragma.Lib
