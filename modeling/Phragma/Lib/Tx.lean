import Mathlib.Tactic.Common

/-!
# Phragma.Lib.Tx

**Transactions that may fail anywhere.** A transaction reads and writes a state, may give
up with an error of its own, and any of its writes may fail under it: the outcomes of the
writes are a list of faults that it consumes in order. `update` runs a transaction the way
an embedded database does. Whatever goes wrong, at a write or at the commit itself, the
state is the one before.

`Yields` is what a transaction can do when nothing goes wrong; its inversion lemmas take a
successful transaction apart, step by step. `update_cases` says that an update either
leaves the state alone or is such a run.
-/

namespace Phragma.Lib

/-- The state a transaction sees, and the faults that are still to come. -/
structure TxState (σ : Type) where
  db : σ
  faults : List Bool

/-- A transaction on `σ` with errors `ε`. -/
def Tx (σ ε α : Type) : Type := TxState σ → Except ε (α × TxState σ)

namespace Tx

variable {σ ε α β : Type}

instance : Monad (Tx σ ε) where
  pure a := fun s => .ok (a, s)
  bind x f := fun s =>
    match x s with
    | .error e => .error e
    | .ok (a, s') => f a s'

theorem bind_apply (x : Tx σ ε α) (f : α → Tx σ ε β) (s : TxState σ) :
    (x >>= f) s = match x s with
      | .error e => .error e
      | .ok (a, s') => f a s' := rfl

/-- The state as the transaction sees it. -/
def get : Tx σ ε σ := fun s => .ok (s.db, s)

/-- Give up. -/
def fail (e : ε) : Tx σ ε α := fun _ => .error e

/-- Give up unless `ok`. -/
def check (ok : Bool) (e : ε) : Tx σ ε Unit := if ok then pure () else fail e

/-- Give up with `e` when there is no value. -/
def require (x : Option α) (e : ε) : Tx σ ε α :=
  match x with
  | some a => pure a
  | none => fail e

/-- Give up with the error of a computation that failed. -/
def lift : Except ε α → Tx σ ε α
  | .ok a => pure a
  | .error e => fail e

/-- A write; `broken` is its error when it fails. -/
def modify (broken : ε) (f : σ → σ) : Tx σ ε Unit := fun s =>
  match s.faults with
  | true :: _ => .error broken
  | false :: fs => .ok ((), ⟨f s.db, fs⟩)
  | [] => .ok ((), ⟨f s.db, []⟩)

/-- `t` only when `b`. -/
def whenTrue (b : Bool) (t : Tx σ ε Unit) : Tx σ ε Unit := if b then t else pure ()

/-- Run `t` on every element. -/
def each (t : β → Tx σ ε Unit) : List β → Tx σ ε Unit
  | [] => pure ()
  | b :: bs => do
      t b
      each t bs

/-- Run a transaction against the database. -/
def update (broken : ε) (faults : List Bool) (t : Tx σ ε α) (s : σ) : Except ε α × σ :=
  match t ⟨s, faults⟩ with
  | .error e => (.error e, s)
  | .ok (a, s') => if s'.faults.head? = some true then (.error broken, s) else (.ok a, s'.db)

/-! ### What a transaction can do -/

/-- From `s` the transaction can end with `a` in `s'`. -/
def Yields (t : Tx σ ε α) (s : σ) (a : α) (s' : σ) : Prop :=
  ∃ fs fs', t ⟨s, fs⟩ = .ok (a, ⟨s', fs'⟩)

variable {s s' : σ} {a : α} {b : β} {e : ε}

theorem yields_bind {x : Tx σ ε α} {f : α → Tx σ ε β} (h : (x >>= f).Yields s b s') :
    ∃ a s₁, x.Yields s a s₁ ∧ (f a).Yields s₁ b s' := by
  obtain ⟨fs, fs', h⟩ := h
  rw [bind_apply] at h
  cases hx : x ⟨s, fs⟩ with
  | error e => rw [hx] at h; cases h
  | ok r =>
      obtain ⟨a, ⟨s₁, fs₁⟩⟩ := r
      rw [hx] at h
      exact ⟨a, s₁, ⟨fs, fs₁, hx⟩, ⟨fs₁, fs', h⟩⟩

theorem yields_pure {r : α} (h : (pure a : Tx σ ε α).Yields s r s') : r = a ∧ s' = s := by
  obtain ⟨fs, fs', h⟩ := h
  simp only [pure, Except.ok.injEq, Prod.mk.injEq, TxState.mk.injEq] at h
  exact ⟨h.1.symm, h.2.1.symm⟩

theorem not_yields_fail (h : (fail e : Tx σ ε α).Yields s a s') : False := by
  obtain ⟨fs, fs', h⟩ := h
  cases h

theorem yields_modify {f : σ → σ} {u : Unit} (h : (modify e f).Yields s u s') : s' = f s := by
  obtain ⟨fs, fs', h⟩ := h
  unfold modify at h
  split at h
  · cases h
  · simp only [Except.ok.injEq, Prod.mk.injEq, TxState.mk.injEq] at h
    exact h.2.1.symm
  · simp only [Except.ok.injEq, Prod.mk.injEq, TxState.mk.injEq] at h
    exact h.2.1.symm

theorem yields_whenTrue {c : Bool} {t : Tx σ ε Unit} {u : Unit}
    (h : (whenTrue c t).Yields s u s') : (c = true ∧ t.Yields s u s') ∨ (c = false ∧ s' = s) := by
  unfold whenTrue at h
  cases c with
  | true => exact .inl ⟨rfl, h⟩
  | false => exact .inr ⟨rfl, (yields_pure h).2⟩

/-! The inversion of a sequence, by its first step. -/

theorem yields_get_bind {f : σ → Tx σ ε β} (h : (get >>= f).Yields s b s') :
    (f s).Yields s b s' := by
  obtain ⟨fs, fs', h⟩ := h
  exact ⟨fs, fs', h⟩

theorem yields_modify_bind {g : σ → σ} {f : Unit → Tx σ ε β}
    (h : (modify e g >>= f).Yields s b s') : (f ()).Yields (g s) b s' := by
  obtain ⟨u, s₁, h1, h2⟩ := yields_bind h
  rwa [yields_modify h1] at h2

theorem yields_check_bind {ok : Bool} {f : Unit → Tx σ ε β}
    (h : (check ok e >>= f).Yields s b s') : ok = true ∧ (f ()).Yields s b s' := by
  obtain ⟨u, s₁, h1, h2⟩ := yields_bind h
  unfold check at h1
  split_ifs at h1 with hok
  · obtain ⟨-, rfl⟩ := yields_pure h1
    exact ⟨hok, h2⟩
  · exact (not_yields_fail h1).elim

theorem yields_require_bind {x : Option α} {f : α → Tx σ ε β}
    (h : (require x e >>= f).Yields s b s') : ∃ a, x = some a ∧ (f a).Yields s b s' := by
  obtain ⟨a, s₁, h1, h2⟩ := yields_bind h
  cases x with
  | none => exact (not_yields_fail h1).elim
  | some c =>
      obtain ⟨rfl, rfl⟩ := yields_pure h1
      exact ⟨a, rfl, h2⟩

theorem yields_lift_bind {x : Except ε α} {f : α → Tx σ ε β}
    (h : (lift x >>= f).Yields s b s') : ∃ a, x = .ok a ∧ (f a).Yields s b s' := by
  obtain ⟨a, s₁, h1, h2⟩ := yields_bind h
  cases x with
  | error e => exact (not_yields_fail h1).elim
  | ok c =>
      obtain ⟨rfl, rfl⟩ := yields_pure h1
      exact ⟨a, rfl, h2⟩

/-- A list of writes is their composition, in order. -/
theorem yields_each_modify {g : β → σ → σ} {bs : List β} {u : Unit}
    (h : (each (fun b => modify e (g b)) bs).Yields s u s') :
    s' = bs.foldl (fun s b => g b s) s := by
  induction bs generalizing s with
  | nil => exact (yields_pure h).2
  | cons b bs ih => exact ih (yields_modify_bind h)

/-- **An update is all or nothing**: it fails and leaves the state alone, or it is a run of
its transaction. -/
theorem update_cases (broken : ε) (faults : List Bool) (t : Tx σ ε α) (s : σ) :
    (∃ e, update broken faults t s = (.error e, s)) ∨
      ∃ a s', update broken faults t s = (.ok a, s') ∧ t.Yields s a s' := by
  unfold update
  cases ht : t ⟨s, faults⟩ with
  | error e => exact .inl ⟨e, rfl⟩
  | ok r =>
      obtain ⟨a, ⟨s', fs'⟩⟩ := r
      by_cases hf : fs'.head? = some true
      · simp only [hf, if_true]
        exact .inl ⟨broken, rfl⟩
      · simp only [hf, if_false]
        exact .inr ⟨a, s', rfl, faults, fs', ht⟩

theorem update_ok {broken : ε} {faults : List Bool} {t : Tx σ ε α}
    (h : (update broken faults t s).1 = .ok a) : t.Yields s a (update broken faults t s).2 := by
  rcases update_cases broken faults t s with ⟨e', he⟩ | ⟨a', s', he, hy⟩
  · rw [he] at h; cases h
  · rw [he] at h ⊢
    cases h
    exact hy

/-! ### Runs without faults -/

/-- The transaction goes through from `s` when no write fails. -/
def Runs (t : Tx σ ε α) (s : σ) (a : α) (s' : σ) : Prop := t ⟨s, []⟩ = .ok (a, ⟨s', []⟩)

theorem Runs.bind {x : Tx σ ε α} {f : α → Tx σ ε β} {s₁ : σ} (hx : x.Runs s a s₁)
    (hf : (f a).Runs s₁ b s') : (x >>= f).Runs s b s' := by
  unfold Runs at hx hf ⊢
  rw [bind_apply, hx]
  exact hf

theorem runs_pure (a : α) (s : σ) : (pure a : Tx σ ε α).Runs s a s := rfl

theorem runs_get (s : σ) : (get : Tx σ ε σ).Runs s s s := rfl

theorem runs_modify (e : ε) (f : σ → σ) (s : σ) : (modify e f).Runs s () (f s) := rfl

theorem runs_lift {x : Except ε α} (h : x = .ok a) (s : σ) : (lift x : Tx σ ε α).Runs s a s := by
  rw [h]; rfl

theorem runs_each_modify (e : ε) (g : β → σ → σ) (bs : List β) (s : σ) :
    (each (fun b => modify e (g b)) bs).Runs s () (bs.foldl (fun s b => g b s) s) := by
  induction bs generalizing s with
  | nil => rfl
  | cons b bs ih => exact (runs_modify e (g b) s).bind (ih (g b s))

/-- An update whose writes all succeed commits. -/
theorem Runs.update {t : Tx σ ε α} (h : t.Runs s a s') (broken : ε) :
    update broken [] t s = (.ok a, s') := by
  unfold Runs at h
  simp only [Tx.update, h, List.head?_nil, reduceCtorEq, if_false]

end Tx

end Phragma.Lib
