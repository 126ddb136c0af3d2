import Phragma.Lib.Thread

/-!
# Phragma.Lib.Mutex

**Critical sections.** If every thread of a pool writes under the mutex only, a thread runs as
if alone from the moment it has the mutex to the moment it gives it back
(`Pool.critical_section`).

Where some actions do write without the mutex, `Guards` exempts them, and the rule asks of the
run that none of them changes the state during the critical section.
-/

namespace Phragma.Lib

namespace Thread

variable {σ ℓ ο α : Type}

/-- A program without operations on the mutex. -/
def Plain : Thread σ ℓ ο → Prop
  | ret _ => True
  | act _ _ next => ∀ s, (next s).Plain
  | lock _ => False
  | unlock _ => False

/-- The mutex is taken and given back in turn, and every action without it has `F`; `held`
tells whether the thread has the mutex. -/
def Guards (F : ℓ → σ → σ → Prop) : Bool → Thread σ ℓ ο → Prop
  | held, ret _ => held = false
  | held, act label write next =>
      ∀ s, (held = false → F label s (write s)) ∧ (next s).Guards F held
  | held, lock next => held = false ∧ next.Guards F true
  | held, unlock next => held = true ∧ next.Guards F false

variable {F : ℓ → σ → σ → Prop}

theorem plain_ret (o : ο) : (ret o : Thread σ ℓ ο).Plain := trivial

theorem plain_act {label : ℓ} {write : σ → σ} {next : σ → Thread σ ℓ ο}
    (h : ∀ s, (next s).Plain) : (act label write next).Plain := h

theorem plain_view {label : ℓ} {next : σ → Thread σ ℓ ο} (h : ∀ s, (next s).Plain) :
    (view label next).Plain := h

theorem plain_transact {label : ℓ} {f : σ → α × σ} {next : α → Thread σ ℓ ο}
    (h : ∀ a, (next a).Plain) : (transact label f next).Plain := fun s => h (f s).1

theorem guards_ret (o : ο) : (ret o : Thread σ ℓ ο).Guards F false := rfl

theorem guards_view {label : ℓ} {next : σ → Thread σ ℓ ο} (hF : ∀ s, F label s s)
    (h : ∀ s, (next s).Guards F false) : (view label next).Guards F false :=
  fun s => ⟨fun _ => hF s, h s⟩

theorem guards_transact {label : ℓ} {f : σ → α × σ} {next : α → Thread σ ℓ ο}
    (hF : ∀ s, F label s (f s).2) (h : ∀ a, (next a).Guards F false) :
    (transact label f next).Guards F false :=
  fun s => ⟨fun _ => hF s, h (f s).1⟩

theorem Plain.guards_deferUnlock {t : Thread σ ℓ ο} (h : t.Plain) :
    t.deferUnlock.Guards F true := by
  induction t with
  | ret o => exact ⟨rfl, rfl⟩
  | act label write next ih => exact fun s => ⟨nofun, ih s (h s)⟩
  | lock next ih => exact h.elim
  | unlock next ih => exact h.elim

/-- What a program does under the mutex is guarded. -/
theorem Plain.guards_locked {t : Thread σ ℓ ο} (h : t.Plain) : t.locked.Guards F false :=
  ⟨rfl, h.guards_deferUnlock⟩

/-- Who is in a critical section has the mutex. -/
theorem Guards.held {t : Thread σ ℓ ο} {held : Bool} (s : σ) (hplain : t.Plain)
    (h : t.deferUnlock.Guards F held) : held = true := by
  induction t with
  | ret o => exact h.1
  | act label write next ih => exact ih s (hplain s) (h s).2
  | lock next ih => exact hplain.elim
  | unlock next ih => exact hplain.elim

end Thread

namespace Pool

variable {σ ℓ ο : Type} {p : Pool σ ℓ ο} {i j : Nat} {F : ℓ → σ → σ → Prop}

/-- Every thread guards its writes, and the holder is who has the mutex. -/
def Disciplined (F : ℓ → σ → σ → Prop) (p : Pool σ ℓ ο) : Prop :=
  ∀ (k : Nat) (t : Thread σ ℓ ο), p.threads[k]? = some t → t.Guards F (p.holder = some k)

/-- The threads after one of them has moved. -/
theorem set_cases {l : List (Thread σ ℓ ο)} {k : Nat} {t t' : Thread σ ℓ ο}
    (h : (l.set i t')[k]? = some t) : k = i ∧ t = t' ∨ k ≠ i ∧ l[k]? = some t := by
  by_cases hk : k = i
  · subst hk
    rw [List.getElem?_set_self'] at h
    cases hl : l[k]? with
    | none => rw [hl] at h; cases h
    | some u => rw [hl] at h; cases h; exact .inl ⟨rfl, rfl⟩
  · rw [List.getElem?_set_ne (Ne.symm hk)] at h
    exact .inr ⟨hk, h⟩

theorem Disciplined.step (h : p.Disciplined F) (j : Nat) : (Pool.step j p).2.Disciplined F := by
  unfold Pool.step
  split
  · next label write next hj =>
      -- an action: the holder stays
      intro k t hk
      rcases set_cases hk with ⟨rfl, rfl⟩ | ⟨-, hk⟩
      · exact (h k _ hj p.shared).2
      · exact h k t hk
  · next next hj =>
      split
      · next hholder =>
          intro k t hk
          rcases set_cases hk with ⟨rfl, rfl⟩ | ⟨hne, hk⟩
          · have := (h k _ hj).2
            simpa using this
          · have hfree := h k t hk
            have hother : ¬ some j = some k := fun heq => hne (Option.some.inj heq).symm
            simpa [hholder, hother] using hfree
      · exact h
  · next next hj =>
      have hmine : p.holder = some j := by simpa using (h j _ hj).1
      intro k t hk
      rcases set_cases hk with ⟨rfl, rfl⟩ | ⟨hne, hk⟩
      · simpa using (h k _ hj).2
      · have hfree := h k t hk
        have hother : ¬ some j = some k := fun heq => hne (Option.some.inj heq).symm
        simpa [hmine, hother] using hfree
  · exact h

theorem Disciplined.final (h : p.Disciplined F) (schedule : List Nat) :
    (Lib.final Pool.step p schedule).Disciplined F :=
  final_invariant (C := fun _ => True) (fun j _ _ hq => hq.step j) (fun _ _ => trivial) h

/-- While thread `i` holds the mutex, the others neither take it nor write what they guard. -/
theorem Disciplined.step_other (h : p.Disciplined F) (hi : p.holder = some i) (hj : j ≠ i) :
    (Pool.step j p).2.holder = some i ∧
      ∀ label, (Pool.step j p).1 = some label → F label p.shared (Pool.step j p).2.shared := by
  have hfree : ¬ p.holder = some j := by
    rw [hi]
    exact fun heq => hj (Option.some.inj heq).symm
  unfold Pool.step
  split
  · next label write next ht =>
      refine ⟨hi, fun label' hlabel => ?_⟩
      cases hlabel
      exact (h j _ ht p.shared).1 (by simpa using hfree)
  · next next ht =>
      split
      · next hnone => rw [hi] at hnone; cases hnone
      · exact ⟨hi, fun label hlabel => by cases hlabel⟩
  · next next ht => exact (hfree (by simpa using (h j _ ht).1)).elim
  · exact ⟨hi, fun label hlabel => by cases hlabel⟩

/-- A thread that is not where it was has moved at some step. -/
theorem exists_move {t : Thread σ ℓ ο} (ht : p.threads[i]? = some t) {schedule : List Nat}
    (hend : (final step p schedule).threads[i]? ≠ some t) :
    ∃ early late, schedule = early ++ i :: late ∧
      (final step p early).threads[i]? = some t ∧
      (step i (final step p early)).2.threads[i]? ≠ some t := by
  induction schedule generalizing p with
  | nil => exact (hend ht).elim
  | cons j schedule ih =>
      by_cases hmoved : (step j p).2.threads[i]? = some t
      · obtain ⟨early, late, rfl, hbefore, hafter⟩ := ih hmoved hend
        exact ⟨j :: early, late, rfl, hbefore, hafter⟩
      · have hj : j = i := by
          by_contra hne
          exact hmoved ((Pool.step_other hne).trans ht)
        subst hj
        exact ⟨[], schedule, rfl, ht, hmoved⟩

/-- A thread that has returned stays there. -/
theorem final_ret {o : ο} (h : p.threads[i]? = some (.ret o)) (schedule : List Nat) :
    (final step p schedule).threads[i]? = some (.ret o) := by
  refine final_invariant (I := fun q : Pool σ ℓ ο => q.threads[i]? = some (.ret o))
    (C := fun _ => True) (fun j q _ hq => ?_) (fun _ _ => trivial) h
  by_cases hj : j = i
  · subst hj
    simp only [step, hq]
  · exact (Pool.step_other hj).trans hq

/-- **A thread runs alone while it holds the mutex**, if nobody else writes meanwhile: it
returns what it would return alone, in the state it would leave alone. -/
theorem critical_section {t : Thread σ ℓ ο} (hplain : t.Plain) (hd : p.Disciplined F)
    (hholder : p.holder = some i) (ht : p.threads[i]? = some t.deferUnlock) {schedule : List Nat}
    (hquiet : ∀ ev ∈ p.run schedule, ev.before.holder = some i → ev.input ≠ i →
      ev.after.shared = ev.before.shared) {o : ο}
    (hend : (final step p schedule).threads[i]? = some (.ret o)) :
    ∃ between returned rest, p.run schedule = between ++ returned :: rest ∧
      (∀ ev ∈ between, ev.before.holder = some i) ∧ returned.input = i ∧
      returned.after.threads[i]? = some (.ret o) ∧
      t.alone p.shared = (o, returned.after.shared) := by
  induction schedule generalizing p t with
  | nil =>
      rw [final, ht] at hend
      cases t with
      | ret o' => cases hend
      | act label write next => cases hend
      | lock next => exact hplain.elim
      | unlock next => exact hplain.elim
  | cons j schedule ih =>
      -- what the rest of the run says, once this step has been accounted for
      have hlater : ∀ {t' : Thread σ ℓ ο}, t'.Plain → (step j p).2.holder = some i →
          (step j p).2.threads[i]? = some t'.deferUnlock →
          t'.alone (step j p).2.shared = t.alone p.shared →
          ∃ between returned rest, p.run (j :: schedule) = between ++ returned :: rest ∧
            (∀ ev ∈ between, ev.before.holder = some i) ∧ returned.input = i ∧
            returned.after.threads[i]? = some (.ret o) ∧
            t.alone p.shared = (o, returned.after.shared) := by
        intro t' hplain' hholder' ht' halone
        obtain ⟨between, returned, rest, hrun, hbetween, hinput, hret, hresult⟩ :=
          ih hplain' (hd.step j) hholder' ht'
            (fun ev hev => hquiet ev (List.mem_cons_of_mem _ hev)) hend
        refine ⟨⟨j, p, (step j p).1, (step j p).2⟩ :: between, returned, rest, ?_, ?_, hinput, hret,
          halone ▸ hresult⟩
        · rw [run, history, ← run, hrun]
          rfl
        · intro ev hev
          rcases List.mem_cons.mp hev with rfl | hev
          · exact hholder
          · exact hbetween ev hev
      by_cases hj : j = i
      · subst hj
        cases t with
        | ret o' =>
            -- the mutex is given back and the thread returns
            have hstep : step j p = (none, { p with
                holder := none, threads := p.threads.set j (.ret o') }) := by
              simp only [step, ht, Thread.deferUnlock]
            have hret : (step j p).2.threads[j]? = some (.ret o') := by
              rw [hstep]
              exact getElem?_set_self_of_eq ht
            have hsame := final_ret hret schedule
            rw [final] at hend
            rw [hsame] at hend
            cases hend
            refine ⟨[], _, _, rfl, fun _ hev => absurd hev List.not_mem_nil, rfl, hret, ?_⟩
            rw [hstep]
            rfl
        | act label write next =>
            have hstep : step j p = (some label, { p with
                shared := write p.shared
                threads := p.threads.set j (next p.shared).deferUnlock }) := by
              simp only [step, ht, Thread.deferUnlock]
            refine hlater (hplain p.shared) ?_ ?_ ?_
            · rw [hstep]
              exact hholder
            · rw [hstep]
              exact getElem?_set_self_of_eq ht
            · rw [hstep]
              rfl
        | lock next => exact hplain.elim
        | unlock next => exact hplain.elim
      · obtain ⟨hholder', -⟩ := hd.step_other hholder hj
        refine hlater hplain hholder' ((Pool.step_other hj).trans ht) ?_
        have := hquiet _ List.mem_cons_self hholder hj
        rw [this]

/-- A thread that came to a result has entered its critical section. -/
theorem exists_enter {t : Thread σ ℓ ο} (ht : p.threads[i]? = some t.locked) {schedule : List Nat}
    {o : ο} (hend : (final step p schedule).threads[i]? = some (.ret o)) :
    ∃ early late, schedule = early ++ i :: late ∧
      (step i (final step p early)).2.threads[i]? = some t.deferUnlock := by
  obtain ⟨early, late, rfl, hbefore, hafter⟩ := exists_move ht (by rw [hend]; intro h; cases h)
  refine ⟨early, late, rfl, ?_⟩
  rcases step_cases i (final step p early) with heq | ⟨next, holder, hl, heq⟩ | ⟨_, _, _, ha, -⟩
  · rw [heq] at hafter
    exact (hafter hbefore).elim
  · rw [heq]
    rw [hbefore] at hl
    rcases hl with hl | hl
    · cases hl
      exact getElem?_set_self_of_eq hbefore
    · cases hl
  · rw [hbefore] at ha
    cases ha

/-- **A critical section that begins with a read** and has come to a result `o`: `o`, and the
state it was returned in, are what the thread comes to alone from the state it read. -/
theorem critical_read {label : ℓ} {next : σ → Thread σ ℓ ο} (hplain : ∀ s, (next s).Plain)
    (hd : p.Disciplined F) (ht : p.threads[i]? = some (Thread.view label next).locked)
    {schedule : List Nat}
    (hquiet : ∀ before read rest, p.run schedule = before ++ read :: rest → read.input = i →
      read.output = some label → ∀ ev ∈ rest, ev.before.holder = some i → ev.input ≠ i →
        ev.after.shared = ev.before.shared) {o : ο}
    (hend : (final step p schedule).threads[i]? = some (.ret o)) :
    ∃ before read between returned rest,
      p.run schedule = before ++ read :: (between ++ returned :: rest) ∧ read.input = i ∧
      read.output = some label ∧ (∀ ev ∈ between, ev.before.holder = some i) ∧
      returned.input = i ∧ returned.after.threads[i]? = some (.ret o) ∧
      (next read.before.shared).alone read.before.shared = (o, returned.after.shared) := by
  obtain ⟨early, late, rfl, henter⟩ := exists_enter ht hend
  rw [final_append, final] at hend
  have hview : (Thread.view label next).Plain := Thread.plain_view hplain
  obtain ⟨early', late', rfl, hbefore, -⟩ := exists_move henter (by rw [hend]; intro h; cases h)
  rw [final_append, final] at hend
  -- the pool at the read
  set q := final step (step i (final step p early)).2 early' with hq
  have hdq : q.Disciplined F := ((hd.final early).step i).final early'
  have hholder : q.holder = some i := by
    simpa using Thread.Guards.held q.shared hview (hdq i _ hbefore)
  have hstep : step i q = (some label, { q with
      threads := q.threads.set i (next q.shared).deferUnlock }) := by
    simp only [step, hbefore, Thread.view, Thread.deferUnlock, id]
  have hrun : p.run (early ++ i :: (early' ++ i :: late')) =
      (p.run (early ++ i :: early')) ++ ⟨i, q, (step i q).1, (step i q).2⟩ ::
        (step i q).2.run late' := by
    have hsplit : early ++ i :: (early' ++ i :: late') = (early ++ i :: early') ++ i :: late' := by
      simp
    rw [hsplit, run, history_append, final_append]
    rfl
  have hlate := hquiet _ _ _ hrun rfl (by rw [hstep])
  obtain ⟨between, returned, rest, hrest, hbetween, hinput, hret, halone⟩ :=
    critical_section (hplain q.shared) (hdq.step i) (by rw [hstep]; exact hholder)
      (by rw [hstep]; exact getElem?_set_self_of_eq hbefore) hlate hend
  rw [hrest] at hrun
  refine ⟨_, _, between, returned, rest, hrun, rfl, by rw [hstep], hbetween, hinput, hret, ?_⟩
  rw [← halone, hstep]

end Pool

-- As for the other assertions about threads: use the lemmas.
attribute [irreducible] Thread.Plain Thread.Guards

end Phragma.Lib
