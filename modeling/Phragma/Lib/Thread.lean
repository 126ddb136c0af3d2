import Phragma.Lib.Machine

/-!
# Phragma.Lib.Thread

**Concurrent programs over a shared state with one mutex.** A thread is a tree of atomic
actions on the shared state, each with a label, and of operations on the mutex. A pool runs
its threads in any order: a schedule names, step after step, the thread that moves, and a
thread that waits for the mutex stays where it is.

Two rules reason about a thread among others. If every thread keeps an invariant and changes
the state only as the relation `G` says (`Keeps`), then a thread that is correct when the
state may change along `G` between any two of its actions (`Meets`) is correct in every run
(`Pool.history_meets`). And a thread that cannot come to a result without a certain action
(`Through`) has taken that action when it has come to it (`Pool.history_through`).

`alone` is a thread that nobody interferes with.
-/

namespace Phragma.Lib

/-- A program over `σ` with results `ο`, whose actions carry labels `ℓ`. -/
inductive Thread (σ ℓ ο : Type)
  | ret (o : ο)
  /-- One atomic action: write the state, and go on by the state it found. -/
  | act (label : ℓ) (write : σ → σ) (next : σ → Thread σ ℓ ο)
  | lock (next : Thread σ ℓ ο)
  | unlock (next : Thread σ ℓ ο)

namespace Thread

variable {σ ℓ ο α : Type}

/-- An action that only reads. -/
def view (label : ℓ) (next : σ → Thread σ ℓ ο) : Thread σ ℓ ο := act label id next

/-- An action with an answer. -/
def transact (label : ℓ) (f : σ → α × σ) (next : α → Thread σ ℓ ο) : Thread σ ℓ ο :=
  act label (fun s => (f s).2) fun s => next (f s).1

/-- Give the mutex back at the end. -/
def deferUnlock : Thread σ ℓ ο → Thread σ ℓ ο
  | ret o => unlock (ret o)
  | act label write next => act label write fun s => (next s).deferUnlock
  | lock next => lock next.deferUnlock
  | unlock next => unlock next.deferUnlock

/-- A program that holds the mutex while it runs. -/
def locked (t : Thread σ ℓ ο) : Thread σ ℓ ο := lock t.deferUnlock

/-- The result and the final state of a thread that runs alone. -/
def alone : Thread σ ℓ ο → σ → ο × σ
  | ret o, s => (o, s)
  | act _ write next, s => (next s).alone (write s)
  | lock next, s => next.alone s
  | unlock next, s => next.alone s

theorem alone_view (label : ℓ) (next : σ → Thread σ ℓ ο) (s : σ) :
    (view label next).alone s = (next s).alone s := rfl

theorem alone_transact (label : ℓ) (f : σ → α × σ) (next : α → Thread σ ℓ ο) (s : σ) :
    (transact label f next).alone s = (next (f s).1).alone (f s).2 := rfl

/-! ### Assertions about threads -/

/-- From states with `I`, every action leads to a state with `I` that `G` allows. -/
def Keeps (I : σ → Prop) (G : σ → σ → Prop) : Thread σ ℓ ο → Prop
  | ret _ => True
  | act _ write next => ∀ s, I s → I (write s) ∧ G s (write s) ∧ (next s).Keeps I G
  | lock next => next.Keeps I G
  | unlock next => next.Keeps I G

/-- Whatever `G` does to the state before each action: an action taken in a state with `I`
and `C` has the effect `E`. -/
def Meets (I : σ → Prop) (G : σ → σ → Prop) (C : ℓ → σ → Prop) (E : ℓ → σ → σ → Prop) :
    Thread σ ℓ ο → σ → Prop
  | ret _, _ => True
  | act label write next, s => ∀ s', G s s' → I s' → C label s' →
      E label s' (write s') ∧ (next s').Meets I G C E (write s')
  | lock next, s => next.Meets I G C E s
  | unlock next, s => next.Meets I G C E s

/-- No result with `Q` is reached but through an action with the effect `P`. -/
def Through (P : σ → σ → Prop) (Q : ο → Prop) : Thread σ ℓ ο → Prop
  | ret o => ¬ Q o
  | act _ write next => ∀ s, P s (write s) ∨ (next s).Through P Q
  | lock next => next.Through P Q
  | unlock next => next.Through P Q

variable {I : σ → Prop} {G : σ → σ → Prop} {C : ℓ → σ → Prop} {E : ℓ → σ → σ → Prop}
  {P : σ → σ → Prop} {Q : ο → Prop}

theorem keeps_ret (o : ο) : (ret o : Thread σ ℓ ο).Keeps I G := trivial

theorem meets_ret (o : ο) (s : σ) : (ret o : Thread σ ℓ ο).Meets I G C E s := trivial

theorem through_ret {o : ο} (h : ¬ Q o) : (ret o : Thread σ ℓ ο).Through P Q := h

theorem keeps_act {label : ℓ} {write : σ → σ} {next : σ → Thread σ ℓ ο}
    (h : ∀ s, I s → I (write s) ∧ G s (write s) ∧ (next s).Keeps I G) :
    (act label write next).Keeps I G := h

theorem keeps_view (hrefl : ∀ s, G s s) {label : ℓ} {next : σ → Thread σ ℓ ο}
    (h : ∀ s, I s → (next s).Keeps I G) : (view label next).Keeps I G :=
  fun s hs => ⟨hs, hrefl s, h s hs⟩

theorem keeps_transact {label : ℓ} {f : σ → α × σ} {next : α → Thread σ ℓ ο}
    (hf : ∀ s, I s → I (f s).2 ∧ G s (f s).2) (h : ∀ a, (next a).Keeps I G) :
    (transact label f next).Keeps I G :=
  fun s hs => ⟨(hf s hs).1, (hf s hs).2, h _⟩

theorem Keeps.deferUnlock {t : Thread σ ℓ ο} (h : t.Keeps I G) : t.deferUnlock.Keeps I G := by
  induction t with
  | ret o => trivial
  | act label write next ih =>
      intro s hs
      obtain ⟨hI, hG, hnext⟩ := h s hs
      exact ⟨hI, hG, ih s hnext⟩
  | lock next ih => exact ih h
  | unlock next ih => exact ih h

theorem Keeps.locked {t : Thread σ ℓ ο} (h : t.Keeps I G) : t.locked.Keeps I G := h.deferUnlock

theorem Meets.deferUnlock {t : Thread σ ℓ ο} {s : σ} (h : t.Meets I G C E s) :
    t.deferUnlock.Meets I G C E s := by
  induction t generalizing s with
  | ret o => trivial
  | act label write next ih =>
      intro s' hG hI hC
      obtain ⟨hE, hnext⟩ := h s' hG hI hC
      exact ⟨hE, ih s' hnext⟩
  | lock next ih => exact ih h
  | unlock next ih => exact ih h

theorem Meets.locked {t : Thread σ ℓ ο} {s : σ} (h : t.Meets I G C E s) :
    t.locked.Meets I G C E s := h.deferUnlock

theorem Through.deferUnlock {t : Thread σ ℓ ο} (h : t.Through P Q) :
    t.deferUnlock.Through P Q := by
  induction t with
  | ret o => exact h
  | act label write next ih => exact fun s => (h s).imp_right (ih s)
  | lock next ih => exact ih h
  | unlock next ih => exact ih h

theorem Through.locked {t : Thread σ ℓ ο} (h : t.Through P Q) : t.locked.Through P Q :=
  h.deferUnlock

theorem meets_view {label : ℓ} {next : σ → Thread σ ℓ ο} {s : σ} (hE : ∀ s, E label s s)
    (h : ∀ s', G s s' → I s' → C label s' → (next s').Meets I G C E s') :
    (view label next).Meets I G C E s :=
  fun s' hG hI hC => ⟨hE s', h s' hG hI hC⟩

theorem meets_transact {label : ℓ} {f : σ → α × σ} {next : α → Thread σ ℓ ο} {s : σ}
    (h : ∀ s', G s s' → I s' → C label s' →
      E label s' (f s').2 ∧ (next (f s').1).Meets I G C E (f s').2) :
    (transact label f next).Meets I G C E s := h

theorem through_view {label : ℓ} {next : σ → Thread σ ℓ ο} (h : ∀ s, (next s).Through P Q) :
    (view label next).Through P Q := fun s => .inr (h s)

theorem through_transact {label : ℓ} {f : σ → α × σ} {next : α → Thread σ ℓ ο}
    (h : ∀ s, P s (f s).2 ∨ (next (f s).1).Through P Q) :
    (transact label f next).Through P Q := h

/-- What `G` does to the state leaves a thread as correct as it was. -/
theorem Meets.stable (htrans : ∀ a b c, G a b → G b c → G a c) {t : Thread σ ℓ ο} {s s' : σ}
    (h : t.Meets I G C E s) (hG : G s s') : t.Meets I G C E s' := by
  induction t generalizing s with
  | ret o => trivial
  | act label write next ih => exact fun r hr hI hC => h r (htrans _ _ _ hG hr) hI hC
  | lock next ih => exact ih h hG
  | unlock next ih => exact ih h hG

end Thread

/-! ### Pools -/

/-- Threads over one shared state; `holder` is the thread that has the mutex. -/
structure Pool (σ ℓ ο : Type) where
  shared : σ
  holder : Option Nat
  threads : List (Thread σ ℓ ο)

namespace Pool

variable {σ ℓ ο : Type}

/-- Let thread `i` move: its action's label, and the pool after it. -/
def step (i : Nat) (p : Pool σ ℓ ο) : Option ℓ × Pool σ ℓ ο :=
  match p.threads[i]? with
  | some (.act label write next) =>
      (some label,
        { p with shared := write p.shared, threads := p.threads.set i (next p.shared) })
  | some (.lock next) =>
      match p.holder with
      | none => (none, { p with holder := some i, threads := p.threads.set i next })
      | some _ => (none, p)
  | some (.unlock next) => (none, { p with holder := none, threads := p.threads.set i next })
  | _ => (none, p)

/-- The record of a run. -/
abbrev run (p : Pool σ ℓ ο) (schedule : List Nat) : List (Event Nat (Pool σ ℓ ο) (Option ℓ)) :=
  history step p schedule

variable {p : Pool σ ℓ ο} {i j : Nat}

/-- What a step can do. -/
theorem step_cases (i : Nat) (p : Pool σ ℓ ο) :
    step i p = (none, p) ∨
      (∃ next holder, (p.threads[i]? = some (.lock next) ∨ p.threads[i]? = some (.unlock next)) ∧
        step i p = (none, ⟨p.shared, holder, p.threads.set i next⟩)) ∨
      ∃ label write next, p.threads[i]? = some (.act label write next) ∧
        step i p = (some label, ⟨write p.shared, p.holder, p.threads.set i (next p.shared)⟩) := by
  unfold step
  split
  · next label write next h => exact .inr (.inr ⟨label, write, next, h, rfl⟩)
  · next next h =>
      split
      · exact .inr (.inl ⟨next, some i, .inl h, rfl⟩)
      · exact .inl rfl
  · next next h => exact .inr (.inl ⟨next, none, .inr h, rfl⟩)
  · exact .inl rfl

theorem getElem?_set_self_of_eq {l : List (Thread σ ℓ ο)} {t t' : Thread σ ℓ ο}
    (h : l[i]? = some t) : (l.set i t')[i]? = some t' := by
  rw [List.getElem?_set_self (List.getElem?_eq_some_iff.mp h).1]

/-- A thread stays where it is while another moves. -/
theorem step_other (h : j ≠ i) : (step j p).2.threads[i]? = p.threads[i]? := by
  rcases step_cases j p with heq | ⟨next, holder, -, heq⟩ | ⟨label, write, next, -, heq⟩
  · rw [heq]
  · rw [heq]
    exact List.getElem?_set_ne h
  · rw [heq]
    exact List.getElem?_set_ne h

/-- Only an action changes the shared state. -/
theorem step_none (h : (step i p).1 = none) : (step i p).2.shared = p.shared := by
  rcases step_cases i p with heq | ⟨next, holder, -, heq⟩ | ⟨label, write, next, -, heq⟩
  · rw [heq]
  · rw [heq]
  · rw [heq] at h
    cases h

section

variable {I : σ → Prop} {G : σ → σ → Prop} {C : ℓ → σ → Prop} {E : ℓ → σ → σ → Prop}

/-- The shared state has `I`, and every thread keeps it and moves along `G`. -/
structure Well (I : σ → Prop) (G : σ → σ → Prop) (p : Pool σ ℓ ο) : Prop where
  shared : I p.shared
  threads : ∀ t ∈ p.threads, t.Keeps I G

theorem Well.step (hrefl : ∀ s, G s s) (h : p.Well I G) (i : Nat) :
    (Pool.step i p).2.Well I G ∧ G p.shared (Pool.step i p).2.shared := by
  have hset : ∀ t : Thread σ ℓ ο, t.Keeps I G → ∀ t' ∈ p.threads.set i t, t'.Keeps I G := by
    intro t ht t' ht'
    rcases List.mem_or_eq_of_mem_set ht' with hmem | rfl
    · exact h.threads t' hmem
    · exact ht
  rcases step_cases i p with heq | ⟨next, holder, ht, heq⟩ | ⟨label, write, next, ht, heq⟩
  · rw [heq]
    exact ⟨h, hrefl _⟩
  · rw [heq]
    have hnext : next.Keeps I G := by
      rcases ht with ht | ht
      · exact h.threads (.lock next) (List.mem_of_getElem? ht)
      · exact h.threads (.unlock next) (List.mem_of_getElem? ht)
    exact ⟨⟨h.shared, hset _ hnext⟩, hrefl _⟩
  · rw [heq]
    obtain ⟨hI, hG, hnext⟩ := h.threads _ (List.mem_of_getElem? ht) p.shared h.shared
    exact ⟨⟨hI, hset _ hnext⟩, hG⟩

/-- Thread `i` is correct from here on. -/
def Correct (I : σ → Prop) (G : σ → σ → Prop) (C : ℓ → σ → Prop) (E : ℓ → σ → σ → Prop) (i : Nat)
    (p : Pool σ ℓ ο) : Prop :=
  ∃ t, p.threads[i]? = some t ∧ t.Meets I G C E p.shared

/-- A correct thread stays correct, and its actions have their effect. -/
theorem Correct.step (hrefl : ∀ s, G s s) (htrans : ∀ a b c, G a b → G b c → G a c)
    (hwell : p.Well I G) (h : p.Correct I G C E i)
    (hC : j = i → ∀ label, (Pool.step j p).1 = some label → C label p.shared) :
    (Pool.step j p).2.Correct I G C E i ∧
      (j = i → ∀ label, (Pool.step j p).1 = some label →
        E label p.shared (Pool.step j p).2.shared) := by
  obtain ⟨t, ht, hm⟩ := h
  by_cases hj : j = i
  · subst hj
    rcases step_cases j p with heq | ⟨next, holder, hl, heq⟩ | ⟨label, write, next, ha, heq⟩
    · rw [heq]
      exact ⟨⟨t, ht, hm⟩, fun _ _ h => by cases h⟩
    · rw [heq]
      refine ⟨⟨next, getElem?_set_self_of_eq ht, ?_⟩, fun _ _ h => by cases h⟩
      rcases hl with hl | hl
      · rw [ht] at hl
        cases hl
        exact hm
      · rw [ht] at hl
        cases hl
        exact hm
    · rw [heq] at hC ⊢
      rw [ht] at ha
      cases ha
      obtain ⟨hE, hnext⟩ := hm p.shared (hrefl _) hwell.shared (hC rfl label rfl)
      exact ⟨⟨_, getElem?_set_self_of_eq ht, hnext⟩, fun _ _ h => by cases h; exact hE⟩
  · refine ⟨⟨t, (step_other hj).trans ht, ?_⟩, fun h => (hj h).elim⟩
    exact hm.stable htrans (hwell.step hrefl j).2

/-- **A thread that is correct under interference is correct in every run.** -/
theorem history_meets (hrefl : ∀ s, G s s) (htrans : ∀ a b c, G a b → G b c → G a c)
    (hwell : p.Well I G) (h : p.Correct I G C E i) {schedule : List Nat}
    (hC : ∀ ev ∈ p.run schedule, ev.input = i → ∀ label, ev.output = some label →
      C label ev.before.shared) :
    ∀ ev ∈ p.run schedule, ev.input = i → ∀ label, ev.output = some label →
      E label ev.before.shared ev.after.shared := by
  have hinv : ∀ ev ∈ p.run schedule,
      (ev.before.Well I G ∧ ev.before.Correct I G C E i) ∧
        ev.after.Well I G ∧ ev.after.Correct I G C E i :=
    history_invariant_of_events (I := fun q => q.Well I G ∧ q.Correct I G C E i)
      (fun j _ hCev hq => ⟨(hq.1.step hrefl j).1, (hq.2.step hrefl htrans hq.1 hCev).1⟩) hC
      ⟨hwell, h⟩
  intro ev hev hi label hlabel
  obtain ⟨⟨hw, hc⟩, -⟩ := hinv ev hev
  have hexec := (history_event hev).2
  have hCev : ev.input = i → ∀ label, (Pool.step ev.input ev.before).1 = some label →
      C label ev.before.shared := by
    rw [hexec]
    exact hC ev hev
  have hE := (hc.step hrefl htrans hw hCev).2 hi label (by rw [hexec]; exact hlabel)
  rwa [hexec] at hE

end

/-- **A thread that has come to a result has come there through an action with the effect
`P`.** -/
theorem history_through {P : σ → σ → Prop} {Q : ο → Prop} {t : Thread σ ℓ ο}
    (ht : p.threads[i]? = some t) (h : t.Through P Q) {schedule : List Nat} {o : ο}
    (hend : (final step p schedule).threads[i]? = some (.ret o)) (ho : Q o) :
    ∃ ev ∈ p.run schedule, ev.input = i ∧ P ev.before.shared ev.after.shared := by
  induction schedule generalizing p t with
  | nil =>
      rw [final, ht] at hend
      cases hend
      exact (h ho).elim
  | cons j schedule ih =>
      have hlater : ∀ {t' : Thread σ ℓ ο}, (step j p).2.threads[i]? = some t' → t'.Through P Q →
          ∃ ev ∈ p.run (j :: schedule), ev.input = i ∧ P ev.before.shared ev.after.shared := by
        intro t' ht' h'
        obtain ⟨ev, hev, hrest⟩ := ih ht' h' hend
        exact ⟨ev, List.mem_cons_of_mem _ hev, hrest⟩
      by_cases hj : j = i
      · subst hj
        rcases step_cases j p with heq | ⟨next, holder, hl, heq⟩ | ⟨label, write, next, ha, heq⟩
        · exact hlater (by rw [heq]; exact ht) h
        · refine hlater (by rw [heq]; exact getElem?_set_self_of_eq ht) ?_
          rcases hl with hl | hl
          · rw [ht] at hl
            cases hl
            exact h
          · rw [ht] at hl
            cases hl
            exact h
        · rw [ht] at ha
          cases ha
          rcases h p.shared with hP | hnext
          · refine ⟨_, List.mem_cons_self, rfl, ?_⟩
            rw [heq]
            exact hP
          · exact hlater (by rw [heq]; exact getElem?_set_self_of_eq ht) hnext
      · exact hlater ((step_other hj).trans ht) h

end Pool

-- From here on threads are reasoned about by the lemmas: unfolding an assertion about a given
-- program would run the program.
attribute [irreducible] Thread.Keeps Thread.Meets Thread.Through

end Phragma.Lib
