import Phragma.Store.Effects

/-!
# Phragma.Store.Versions

Policy versions along a run of the store.

The running pointer and the last-known-good pointer move together, and only to versions
that are completely recorded (`PointersAgree`). Versions are written once, under numbers
that the bucket's counter hands out: `VersionsKept` relates any earlier state of a run to
any later one. `version_store_runs` puts together what holds of every run, whichever of its
calls fail and wherever in their transaction they do.
-/

namespace Phragma.Store

open Lib Go Policy

variable {H : IdentityHash} {D : Digest}

/-- A version with its policy and its metadata. -/
def Recorded (db : DB) (id : Nat) : Prop :=
  (∃ p, db.versions.get id = some p) ∧ ∃ info, db.versionInfo.get id = some info

/-- Both pointers are unset, or both name one recorded version. -/
structure PointersAgree (db : DB) : Prop where
  agree : db.running = db.lastKnown
  recorded : ∀ id, db.running = some id → Recorded db id

/-- Every version of `db` has the same policy in `db'`. -/
def VersionsKept (db db' : DB) : Prop :=
  ∀ id p, db.versions.get id = some p → db'.versions.get id = some p

theorem VersionsKept.refl (db : DB) : VersionsKept db db := fun _ _ h => h

theorem VersionsKept.trans {a b c : DB} (hab : VersionsKept a b) (hbc : VersionsKept b c) :
    VersionsKept a c := fun id p h => hbc id p (hab id p h)

/-- What the runs keep: both pointers are right, and version numbers come from the counter. -/
structure VersionsWell (db : DB) : Prop where
  pointers : PointersAgree db
  fresh : db.versions.Fresh

theorem versionsWell_empty : VersionsWell {} where
  pointers := ⟨rfl, fun _ h => by cases h⟩
  fresh := Bucket.fresh_empty

/-! ### One transition

A transition adds a version under the next number or leaves all of them alone, and it moves both
pointers to one version or neither. -/

section

variable {clock : Nat → Time} {db db' : DB} {op : Op} {r : Reply}

/-- A transition leaves the versions alone, or adds one under the next number and returns
that number. -/
theorem Effect.versions (h : Effect H D clock db op r db') :
    (db'.versions = db.versions ∧ ∀ id, r ≠ .version id) ∨
      ∃ p, db'.versions = db.versions.bump.put (db.versions.seq + 1) p ∧
        r = .version (db.versions.seq + 1) := by
  cases h with
  | commitVersion => exact .inr ⟨_, rfl, rfl⟩
  | prepare => exact .inr ⟨_, rfl, rfl⟩
  | _ => exact .inl ⟨rfl, fun id h => by cases h⟩

theorem Effect.seq_le (h : Effect H D clock db op r db') :
    db.versions.seq ≤ db'.versions.seq := by
  rcases h.versions with ⟨heq, -⟩ | ⟨p, heq, -⟩
  · rw [heq]
  · rw [heq]
    exact Nat.le_succ _

theorem Effect.versionsKept (h : Effect H D clock db op r db') (hf : db.versions.Fresh) :
    VersionsKept db db' := by
  intro id p hget
  rcases h.versions with ⟨heq, -⟩ | ⟨q, heq, -⟩
  · rw [heq]
    exact hget
  · have hle := hf.le_of_get hget
    rw [heq, Bucket.get_put_of_ne (by omega)]
    exact hget

theorem Effect.fresh (h : Effect H D clock db op r db') (hf : db.versions.Fresh) :
    db'.versions.Fresh := by
  rcases h.versions with ⟨heq, -⟩ | ⟨p, heq, -⟩
  · rw [heq]
    exact hf
  · rw [heq]
    exact hf.bump.put le_rfl p

/-- Metadata is never removed. -/
theorem Effect.versionInfo (h : Effect H D clock db op r db') {id : Nat} {info : VersionInfo}
    (hget : db.versionInfo.get id = some info) : ∃ info', db'.versionInfo.get id = some info' := by
  have hput : ∀ k v, ∃ info', (db.versionInfo.put k v).get id = some info' := by
    intro k v
    rw [Bucket.get_put]
    split_ifs
    · exact ⟨v, rfl⟩
    · exact ⟨info, hget⟩
  cases h with
  | recover chain source kept =>
      rcases kept with rfl | ⟨i, -, rfl⟩
      · exact ⟨info, hget⟩
      · exact hput _ _
  | commitVersion => exact hput _ _
  | prepare => exact hput _ _
  | activate => exact hput _ _
  | markVersionState => exact hput _ _
  | _ => exact ⟨info, hget⟩

theorem Effect.recorded (h : Effect H D clock db op r db') (hf : db.versions.Fresh) {id : Nat}
    (hr : Recorded db id) : Recorded db' id := by
  obtain ⟨⟨p, hp⟩, ⟨info, hinfo⟩⟩ := hr
  exact ⟨⟨p, h.versionsKept hf id p hp⟩, h.versionInfo hinfo⟩

/-- A transition leaves both pointers alone, or moves both to one recorded version. -/
theorem Effect.pointers (h : Effect H D clock db op r db') (hdb : PointersAgree db) :
    (db'.running = db.running ∧ db'.lastKnown = db.lastKnown) ∨
      ∃ id, db'.running = some id ∧ db'.lastKnown = some id ∧ Recorded db' id := by
  cases h with
  | recover chain source kept =>
      -- the pointer is recovered only when it is missing, and then there is no running version
      unfold lastKnownSource at source
      cases hr : db.running with
      | none =>
          rw [← hdb.agree, hr] at source
          cases source
      | some id =>
          rw [← hdb.agree, hr] at source
          cases source
  | commitVersion =>
      exact .inr ⟨_, rfl, rfl, ⟨_, Bucket.get_put_self _ _ _⟩, ⟨_, Bucket.get_put_self _ _ _⟩⟩
  | activate version metadata tip =>
      exact .inr ⟨_, rfl, rfl, ⟨_, version⟩, ⟨_, Bucket.get_put_self _ _ _⟩⟩
  | _ => exact .inl ⟨rfl, rfl⟩

theorem Effect.versionsWell (h : Effect H D clock db op r db') (hdb : VersionsWell db) :
    VersionsWell db' := by
  refine ⟨?_, h.fresh hdb.fresh⟩
  rcases h.pointers hdb.pointers with ⟨hrun, hlast⟩ | ⟨id, hrun, hlast, hrec⟩
  · refine ⟨by rw [hrun, hlast, hdb.pointers.agree], fun id hid => ?_⟩
    rw [hrun] at hid
    exact h.recorded hdb.fresh (hdb.pointers.recorded id hid)
  · refine ⟨hrun.trans hlast.symm, fun id' hid' => ?_⟩
    rw [hrun] at hid'
    cases hid'
    exact hrec

/-- Preparing a version and marking its state touch neither pointer nor the candidate. -/
theorem Effect.frame (h : Effect H D clock db op r db')
    (hop : (∃ p identity action comment artifacts sourceVersion approvalID revision,
        op = .preparePolicyApply p identity action comment artifacts sourceVersion approvalID
          revision) ∨ ∃ id state detail, op = .markVersionState id state detail) :
    db'.running = db.running ∧ db'.lastKnown = db.lastKnown ∧ db'.candidate = db.candidate := by
  rcases hop with ⟨p, identity, action, comment, artifacts, source, approvalID, revision, rfl⟩ |
    ⟨id, state, detail, rfl⟩
  · cases h with
    | prepare => exact ⟨rfl, rfl, rfl⟩
  · cases h with
    | markVersionState => exact ⟨rfl, rfl, rfl⟩

end

/-! ### Calls

A call that fails changes nothing, so what holds of transitions holds of calls. -/

theorem exec_versionsWell (c : Call) {db : DB} (h : VersionsWell db) :
    VersionsWell (exec H D c db).2 :=
  exec_invariant (fun _ _ heff hI => heff.versionsWell hI) h

theorem exec_versionsKept (c : Call) {db : DB} (h : VersionsWell db) :
    VersionsKept db (exec H D c db).2 := by
  rcases exec_cases (H := H) (D := D) c db with ⟨e, he⟩ | ⟨r, db', hr, heff⟩
  · rw [he]
    exact .refl db
  · rw [hr]
    exact heff.versionsKept h.fresh

theorem exec_seq_le (c : Call) (db : DB) :
    db.versions.seq ≤ (exec H D c db).2.versions.seq := by
  rcases exec_cases (H := H) (D := D) c db with ⟨e, he⟩ | ⟨r, db', hr, heff⟩
  · rw [he]
  · rw [hr]
    exact heff.seq_le

/-- The number a call hands out is the counter after it, and one more than before. -/
theorem exec_version {c : Call} {db : DB} {id : Nat}
    (h : (exec H D c db).1 = .ok (.version id)) :
    id = db.versions.seq + 1 ∧ (exec H D c db).2.versions.seq = id := by
  rcases exec_cases (H := H) (D := D) c db with ⟨e, he⟩ | ⟨r, db', hr, heff⟩
  · rw [he] at h
    cases h
  · rw [hr] at h ⊢
    cases h
    rcases heff.versions with ⟨-, hne⟩ | ⟨p, heq, hid⟩
    · exact (hne id rfl).elim
    · cases hid
      exact ⟨rfl, by rw [heq]; rfl⟩

/-! ### Runs

What was recorded once is read back as long as the store lives. -/

/-- What holds of every run of the store, given by its recorded calls. -/
structure VersionRun (run : List CallEvent) : Prop where
  pointers : ∀ ev ∈ run, PointersAgree ev.before ∧ PointersAgree ev.after
  kept : ∀ ev ∈ run, VersionsKept ev.before ev.after
  kept_later : run.Pairwise fun a b => VersionsKept a.after b.before
  fresh_id : ∀ ev ∈ run, ∀ id, ev.output = .ok (.version id) → ev.before.versions.get id = none
  increasing : run.Pairwise fun a b =>
    ∀ i j, a.output = .ok (.version i) → b.output = .ok (.version j) → i < j
  prepare_frame : ∀ ev ∈ run, ∀ p identity action comment artifacts sourceVersion approvalID revision,
    ev.input.op = .preparePolicyApply p identity action comment artifacts sourceVersion approvalID
      revision →
    ev.after.running = ev.before.running ∧ ev.after.lastKnown = ev.before.lastKnown ∧
      ev.after.candidate = ev.before.candidate
  mark_frame : ∀ ev ∈ run, ∀ id state detail, ev.input.op = .markVersionState id state detail →
    ev.after.running = ev.before.running ∧ ev.after.lastKnown = ev.before.lastKnown ∧
      ev.after.candidate = ev.before.candidate
  unchanged : ∀ ev ∈ run, ∀ e, ev.output = .error e → ev.after = ev.before

theorem versionsWell_history (calls : List Call) :
    ∀ ev ∈ storeHistory H D calls, VersionsWell ev.before ∧ VersionsWell ev.after :=
  history_invariant (C := fun _ : Call => True) (fun c _ _ h => exec_versionsWell c h)
    (fun _ _ => trivial) versionsWell_empty

theorem history_kept (calls : List Call) :
    (storeHistory H D calls).Pairwise fun a b => VersionsKept a.after b.before :=
  history_pairwise (fun c _ h => exec_versionsWell c h) VersionsKept.refl
    (fun _ _ _ hab hbc => hab.trans hbc) (fun c _ h => exec_versionsKept c h) versionsWell_empty

theorem history_increasing (calls : List Call) :
    (storeHistory H D calls).Pairwise fun a b =>
      ∀ i j, a.output = .ok (.version i) → b.output = .ok (.version j) → i < j := by
  have hseq : (storeHistory H D calls).Pairwise fun a b =>
      a.after.versions.seq ≤ b.before.versions.seq :=
    history_pairwise (I := fun _ => True) (R := fun a b : DB => a.versions.seq ≤ b.versions.seq)
      (fun _ _ _ => trivial) (fun _ => le_rfl) (fun _ _ _ => le_trans)
      (fun c s _ => exec_seq_le c s) trivial
  refine hseq.imp_of_mem fun {a b} ha hb hle i j hi hj => ?_
  have hea := (history_event ha).2
  have heb := (history_event hb).2
  have hia := exec_version (H := H) (D := D) (c := a.input) (by rw [hea]; exact hi)
  have hjb := exec_version (H := H) (D := D) (c := b.input) (by rw [heb]; exact hj)
  rw [hea] at hia
  calc i = a.after.versions.seq := hia.2.symm
    _ ≤ b.before.versions.seq := hle
    _ < j := by rw [hjb.1]; exact Nat.lt_succ_self _

/-- **The version store is a state machine.** -/
theorem version_store_runs (calls : List Call) : VersionRun (storeHistory H D calls) where
  pointers ev hev :=
    ⟨(versionsWell_history calls ev hev).1.pointers, (versionsWell_history calls ev hev).2.pointers⟩
  kept ev hev := by
    have hk := exec_versionsKept (H := H) (D := D) ev.input (versionsWell_history calls ev hev).1
    rwa [(history_event hev).2] at hk
  kept_later := history_kept calls
  fresh_id ev hev id hid := by
    have hv := exec_version (H := H) (D := D) (c := ev.input) (by rw [(history_event hev).2]; exact hid)
    rw [hv.1]
    exact (versionsWell_history calls ev hev).1.fresh.get_next
  increasing := history_increasing calls
  prepare_frame ev hev p identity action comment artifacts source approvalID revision hop := by
    rcases event_cases hev with ⟨-, hsame⟩ | ⟨r, -, heff⟩
    · rw [hsame]
      exact ⟨rfl, rfl, rfl⟩
    · exact heff.frame (.inl ⟨_, _, _, _, _, _, _, _, hop⟩)
  mark_frame ev hev id state detail hop := by
    rcases event_cases hev with ⟨-, hsame⟩ | ⟨r, -, heff⟩
    · rw [hsame]
      exact ⟨rfl, rfl, rfl⟩
    · exact heff.frame (.inr ⟨_, _, _, hop⟩)
  unchanged ev hev e he := by
    rcases event_cases hev with ⟨-, hsame⟩ | ⟨r, hr, -⟩
    · exact hsame
    · rw [he] at hr
      cases hr

end Phragma.Store
