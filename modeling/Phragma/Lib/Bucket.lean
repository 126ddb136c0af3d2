import Mathlib.Tactic.Common
import Mathlib.Data.List.Basic

/-!
# Phragma.Lib.Bucket

**Ordered buckets with a sequence counter.** A bucket of a key/value store maps numeric
keys to values, is walked in key order, and hands out fresh keys from a counter of its
own. The entries are kept in strictly increasing key order, so that two buckets with the
same contents are equal and a walk is the list itself.

`Fresh` is the discipline of a bucket whose keys all come from its counter: no key is
above the counter, so the next key handed out is new and goes to the end.
-/

namespace Phragma.Lib

variable {α β : Type}

/-- A bucket: its sequence counter, and its entries in key order. -/
structure Bucket (α : Type) where
  seq : Nat
  entries : List (Nat × α)
  sorted : entries.Pairwise fun a b => a.1 < b.1
  deriving DecidableEq

namespace Bucket

/-- A bucket as it is created. -/
def empty : Bucket α := ⟨0, [], .nil⟩

/-- The entries with `v` stored under `k`, replacing what was there. -/
def insert (k : Nat) (v : α) : List (Nat × α) → List (Nat × α)
  | [] => [(k, v)]
  | e :: es =>
      if k < e.1 then (k, v) :: e :: es
      else if k = e.1 then (k, v) :: es
      else e :: insert k v es

theorem mem_insert {k : Nat} {v : α} {e : Nat × α} : ∀ {es : List (Nat × α)},
    e ∈ insert k v es → e = (k, v) ∨ e ∈ es := by
  intro es
  induction es with
  | nil => simp [insert]
  | cons f es ih =>
      unfold insert
      split_ifs with hlt heq
      · simp
      · intro h
        rcases List.mem_cons.mp h with h | h
        · exact .inl h
        · exact .inr (List.mem_cons_of_mem _ h)
      · intro h
        rcases List.mem_cons.mp h with rfl | h
        · exact .inr List.mem_cons_self
        · exact (ih h).imp_right (List.mem_cons_of_mem _)

theorem sorted_insert (k : Nat) (v : α) : ∀ {es : List (Nat × α)},
    es.Pairwise (fun a b => a.1 < b.1) → (insert k v es).Pairwise fun a b => a.1 < b.1 := by
  intro es
  induction es with
  | nil => intro _; simp [insert]
  | cons f es ih =>
      intro h
      obtain ⟨hf, hes⟩ := List.pairwise_cons.mp h
      unfold insert
      split_ifs with hlt heq
      · refine List.pairwise_cons.mpr ⟨fun e he => ?_, h⟩
        rcases List.mem_cons.mp he with rfl | he
        · exact hlt
        · exact Nat.lt_trans hlt (hf e he)
      · exact List.pairwise_cons.mpr ⟨fun e he => heq ▸ hf e he, hes⟩
      · refine List.pairwise_cons.mpr ⟨fun e he => ?_, ih hes⟩
        rcases mem_insert he with rfl | he
        · exact Nat.lt_of_le_of_ne (Nat.le_of_not_lt hlt) (Ne.symm heq)
        · exact hf e he

/-- A key above all others goes to the end. -/
theorem insert_of_above {k : Nat} (v : α) : ∀ {es : List (Nat × α)}, (∀ e ∈ es, e.1 < k) →
    insert k v es = es ++ [(k, v)] := by
  intro es
  induction es with
  | nil => intro _; rfl
  | cons f es ih =>
      intro h
      have hf := h f List.mem_cons_self
      rw [insert, if_neg (by omega), if_neg (by omega),
        ih fun e he => h e (List.mem_cons_of_mem _ he), List.cons_append]

/-- A key that is in use keeps its place. -/
theorem insert_of_mem {k : Nat} {v w : α} : ∀ {pre post : List (Nat × α)},
    (pre ++ (k, w) :: post).Pairwise (fun a b => a.1 < b.1) →
      insert k v (pre ++ (k, w) :: post) = pre ++ (k, v) :: post := by
  intro pre post
  induction pre with
  | nil =>
      intro _
      simp [insert]
  | cons f pre ih =>
      intro h
      obtain ⟨hf, hes⟩ := List.pairwise_cons.mp h
      have hlt : f.1 < k := hf (k, w) (by simp)
      rw [List.cons_append, insert, if_neg (by omega), if_neg (by omega), ih hes,
        List.cons_append]

theorem lookup_insert_self (k : Nat) (v : α) (es : List (Nat × α)) :
    (insert k v es).lookup k = some v := by
  induction es with
  | nil => simp [insert]
  | cons f es ih =>
      unfold insert
      split_ifs with hlt heq
      · simp
      · simp
      · have hb : (k == f.1) = false := by simpa using heq
        rw [List.lookup_cons, hb, ih]

theorem lookup_insert_of_ne {k k' : Nat} (h : k' ≠ k) (v : α) (es : List (Nat × α)) :
    (insert k v es).lookup k' = es.lookup k' := by
  have hb : (k' == k) = false := by simpa using h
  induction es with
  | nil => simp [insert, List.lookup_cons, hb]
  | cons f es ih =>
      unfold insert
      split_ifs with hlt heq
      · simp [List.lookup_cons, hb]
      · rw [List.lookup_cons, List.lookup_cons, ← heq, hb]
      · rw [List.lookup_cons, List.lookup_cons, ih]

/-! ### Operations -/

/-- `Bucket.Get`: the value of a key. -/
def get (b : Bucket α) (k : Nat) : Option α := b.entries.lookup k

/-- `Bucket.Put`: a value under a key, in place of the old one. -/
def put (b : Bucket α) (k : Nat) (v : α) : Bucket α :=
  ⟨b.seq, insert k v b.entries, sorted_insert k v b.sorted⟩

/-- `Bucket.Delete`: the bucket without a key. -/
def delete (b : Bucket α) (k : Nat) : Bucket α :=
  ⟨b.seq, b.entries.filter fun e => e.1 ≠ k, b.sorted.sublist List.filter_sublist⟩

/-- `Bucket.NextSequence`: the number it hands out is the new counter. -/
def bump (b : Bucket α) : Bucket α := { b with seq := b.seq + 1 }

@[simp] theorem seq_empty : (empty : Bucket α).seq = 0 := rfl
@[simp] theorem get_empty (k : Nat) : (empty : Bucket α).get k = none := rfl
@[simp] theorem seq_put (b : Bucket α) (k : Nat) (v : α) : (b.put k v).seq = b.seq := rfl
theorem entries_put (b : Bucket α) (k : Nat) (v : α) :
    (b.put k v).entries = insert k v b.entries := rfl
theorem entries_delete (b : Bucket α) (k : Nat) :
    (b.delete k).entries = b.entries.filter fun e => e.1 ≠ k := rfl
@[simp] theorem seq_bump (b : Bucket α) : b.bump.seq = b.seq + 1 := rfl
@[simp] theorem entries_bump (b : Bucket α) : b.bump.entries = b.entries := rfl
@[simp] theorem get_bump (b : Bucket α) (k : Nat) : b.bump.get k = b.get k := rfl

@[simp] theorem get_put_self (b : Bucket α) (k : Nat) (v : α) : (b.put k v).get k = some v :=
  lookup_insert_self k v b.entries

theorem get_put_of_ne {k k' : Nat} (h : k' ≠ k) (b : Bucket α) (v : α) :
    (b.put k v).get k' = b.get k' :=
  lookup_insert_of_ne h v b.entries

theorem get_put (b : Bucket α) (k k' : Nat) (v : α) :
    (b.put k v).get k' = if k' = k then some v else b.get k' := by
  split_ifs with h
  · rw [h, get_put_self]
  · exact get_put_of_ne h b v

theorem mem_of_get {b : Bucket α} {k : Nat} {v : α} (h : b.get k = some v) :
    (k, v) ∈ b.entries := by
  obtain ⟨l, r, hl, -⟩ := List.lookup_eq_some_iff.mp h
  rw [hl]
  simp

/-- An entry, in its place. -/
theorem entries_of_get {b : Bucket α} {k : Nat} {v : α} (h : b.get k = some v) :
    ∃ pre post, b.entries = pre ++ (k, v) :: post := by
  obtain ⟨pre, post, hl, -⟩ := List.lookup_eq_some_iff.mp h
  exact ⟨pre, post, hl⟩

theorem entries_put_of_mem {b : Bucket α} {k : Nat} {v w : α} {pre post : List (Nat × α)}
    (h : b.entries = pre ++ (k, w) :: post) : (b.put k v).entries = pre ++ (k, v) :: post := by
  have hs := b.sorted
  rw [h] at hs
  rw [entries_put, h, insert_of_mem hs]

theorem entries_delete_of_mem {b : Bucket α} {k : Nat} {v : α} {pre post : List (Nat × α)}
    (h : b.entries = pre ++ (k, v) :: post) : (b.delete k).entries = pre ++ post := by
  have hs := b.sorted
  rw [h, List.pairwise_append, List.pairwise_cons] at hs
  have hpre : ∀ e ∈ pre, decide (e.1 ≠ k) = true := by
    intro e he
    have := hs.2.2 e he (k, v) List.mem_cons_self
    simp only [ne_eq, decide_eq_true_eq]
    omega
  have hpost : ∀ e ∈ post, decide (e.1 ≠ k) = true := by
    intro e he
    have := hs.2.1.1 e he
    simp only [ne_eq, decide_eq_true_eq]
    omega
  rw [entries_delete, h, List.filter_append, List.filter_cons_of_neg (by simp),
    List.filter_eq_self.mpr hpre, List.filter_eq_self.mpr hpost]

/-! ### Fresh keys

`NextSequence` counts up, and is ahead of every key that was drawn from it. So what is put under it
goes to the end. -/

/-- Every key was handed out by the counter. -/
def Fresh (b : Bucket α) : Prop := ∀ e ∈ b.entries, e.1 ≤ b.seq

theorem fresh_empty : (empty : Bucket α).Fresh := by
  intro e he
  cases he

theorem Fresh.le_of_get {b : Bucket α} (h : b.Fresh) {k : Nat} {v : α}
    (hk : b.get k = some v) : k ≤ b.seq :=
  h _ (mem_of_get hk)

/-- The key handed out next is not in use. -/
theorem Fresh.get_next {b : Bucket α} (h : b.Fresh) : b.get (b.seq + 1) = none := by
  cases hg : b.get (b.seq + 1) with
  | none => rfl
  | some v =>
      have := h.le_of_get hg
      omega

theorem Fresh.bump {b : Bucket α} (h : b.Fresh) : b.bump.Fresh :=
  fun e he => Nat.le_succ_of_le (h e he)

theorem Fresh.put {b : Bucket α} (h : b.Fresh) {k : Nat} (hk : k ≤ b.seq) (v : α) :
    (b.put k v).Fresh := by
  intro e he
  rcases mem_insert he with rfl | he
  · exact hk
  · exact h e he

/-- Storing under the key handed out next appends. -/
theorem Fresh.entries_put_next {b : Bucket α} (h : b.Fresh) (v : α) :
    (b.bump.put (b.seq + 1) v).entries = b.entries ++ [(b.seq + 1, v)] :=
  insert_of_above v fun e he => Nat.lt_succ_of_le (h e he)

end Bucket

end Phragma.Lib
