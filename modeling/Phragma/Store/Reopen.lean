import Phragma.Store.Tamper

/-!
# Phragma.Store.Reopen

What opening a database makes of its audit log.

`Open` runs `backfillAuditHashes` every time: an entry without a hash is linked to the entry before
it and given a hash, whoever left it without one. The migration was made for logs that have no
hashes at all, which it completes and then leaves alone. On a log that was tampered with it seals
what it finds, unless some entry that still has its hash does not fit (`Disordered`).

`reopen_audit` says exactly when a log that does not verify is still refused after the database was
opened again, and what becomes of a log without hashes.
-/

namespace Phragma.Store

open Lib Go Policy

variable {D : Digest}

/-! ### The completed log -/

/-- An entry without a hash, linked to the hash before it. -/
def completed (D : Digest) (previousHash : GoString) (key : Nat) (e : AuditEntry) : AuditEntry :=
  let e := { e with id := if e.id = 0 then key else e.id, previousHash, entryHash := [] }
  { e with entryHash := auditEntryHash D e }

/-- The hash an entry counts with, for the entry after it. -/
def countedHash (D : Digest) (previousHash : GoString) (e : Nat × AuditEntry) : GoString :=
  if e.2.entryHash ≠ [] then e.2.entryHash else (completed D previousHash e.1 e.2).entryHash

/-- The log from a hash on, with the hashes that it lacks. -/
def completedLog (D : Digest) : GoString → List (Nat × AuditEntry) → List (Nat × AuditEntry)
  | _, [] => []
  | p, e :: rest =>
      (if e.2.entryHash ≠ [] then e else (e.1, (completed D p e.1 e.2).decoded)) ::
        completedLog D (countedHash D p e) rest

/-- **The back-fill completes the log**, in place. -/
theorem foldl_backfillUpdates {p : GoString} {done rest : List (Nat × AuditEntry)}
    {audit : Bucket AuditEntry} (h : audit.entries = done ++ rest) :
    ((backfillUpdates D p rest).foldl (fun b u => b.put u.1 u.2.decoded) audit).entries =
      done ++ completedLog D p rest := by
  induction rest generalizing p done audit with
  | nil => exact h
  | cons e rest ih =>
      obtain ⟨key, e⟩ := e
      rw [backfillUpdates, completedLog, countedHash]
      by_cases hhash : e.entryHash ≠ []
      · rw [if_pos hhash, if_pos hhash, if_pos hhash, List.append_cons]
        exact ih (by rw [h, List.append_cons])
      · rw [if_neg hhash, if_neg hhash, if_neg hhash, List.append_cons]
        exact ih (by rw [Bucket.entries_put_of_mem h, List.append_cons]; rfl)

theorem entries_backfilled (audit : Bucket AuditEntry) :
    (backfilled D audit).entries = completedLog D [] audit.entries := by
  have h : audit.entries = [] ++ audit.entries := rfl
  exact foldl_backfillUpdates h

/-! ### Which logs can be completed -/

/-- An entry that does not fit after a hash, and that the back-fill does not make fit: it has a hash
and does not verify, or has none and is misnumbered. -/
def OutOfPlace (D : Digest) (previousHash : GoString) (e : Nat × AuditEntry) : Prop :=
  if e.2.entryHash ≠ [] then e.2.previousHash ≠ previousHash ∨ ¬ Sealed D e
  else e.2.id ≠ 0 ∧ e.2.id ≠ e.1

/-- The hash before the rest of a log. -/
def countedTip (D : Digest) (p : GoString) (es : List (Nat × AuditEntry)) : GoString :=
  es.foldl (countedHash D) p

/-- Some entry of the log is out of place. -/
def Disordered (D : Digest) (audit : Bucket AuditEntry) : Prop :=
  ∃ pre e post, audit.entries = pre ++ e :: post ∧ OutOfPlace D (countedTip D [] pre) e

theorem valid_completed {p : GoString} {key : Nat} {e : AuditEntry} (hp : p.Valid) (he : e.Valid) :
    (completed D p key e).Valid :=
  ⟨he.actor, he.actorRole, he.authSource, he.action, he.detail, hp, valid_auditEntryHash D _⟩

theorem valid_countedHash {p : GoString} {e : Nat × AuditEntry} (hp : p.Valid) (he : e.2.Valid) :
    (countedHash D p e).Valid := by
  unfold countedHash
  split
  · exact he.entryHash
  · exact (valid_completed hp he).entryHash

theorem sealed_completed {p : GoString} {key : Nat} {e : AuditEntry} :
    Sealed D (key, completed D p key e) ↔ e.id = 0 ∨ e.id = key := by
  have hid : (completed D p key e).id = if e.id = 0 then key else e.id := rfl
  constructor
  · intro h
    have hkey := h.id_eq
    rw [hid] at hkey
    by_cases h0 : e.id = 0
    · exact .inl h0
    · rw [if_neg h0] at hkey
      exact .inr hkey
  · intro h
    refine ⟨?_, rfl⟩
    rw [hid]
    by_cases h0 : e.id = 0
    · exact if_pos h0
    · rw [if_neg h0]
      exact h.resolve_left h0

/-- The completed log is a chain exactly when every entry is in place. -/
theorem chain_completedLog {p : GoString} {es : List (Nat × AuditEntry)} (hp : p.Valid)
    (hv : ∀ e ∈ es, e.2.Valid) :
    Chain D p (completedLog D p es) ↔
      ∀ pre e post, es = pre ++ e :: post → ¬ OutOfPlace D (countedTip D p pre) e := by
  induction es generalizing p with
  | nil =>
      refine ⟨fun _ pre e post h => ?_, fun _ => trivial⟩
      cases pre <;> cases h
  | cons e es ih =>
      have hve := hv e List.mem_cons_self
      have hrest := ih (valid_countedHash (D := D) hp hve) fun f hf => hv f (List.mem_cons_of_mem _ hf)
      -- the first entry is in place: its own hash counts, or the one it is given
      have hhead : Chain D p (completedLog D p (e :: es)) ↔
          ¬ OutOfPlace D p e ∧ Chain D (countedHash D p e) (completedLog D (countedHash D p e) es) := by
        rw [completedLog]
        unfold OutOfPlace
        by_cases hhash : e.2.entryHash ≠ []
        · rw [if_pos hhash, if_pos hhash, not_or, not_not, not_not]
          have hcount : countedHash D p e = e.2.entryHash := if_pos hhash
          rw [hcount]
          exact and_assoc.symm
        · rw [if_neg hhash, if_neg hhash, (valid_completed hp hve).decoded_eq]
          have hcount : countedHash D p e = (completed D p e.1 e.2).entryHash := if_neg hhash
          rw [hcount, not_and_or, not_not, not_not, ← sealed_completed (D := D) (p := p)]
          exact ⟨fun h => h.2, fun h => ⟨rfl, h⟩⟩
      rw [hhead, hrest]
      constructor
      · rintro ⟨hfirst, hothers⟩ pre f post heq
        cases pre with
        | nil =>
            obtain ⟨rfl, -⟩ := List.cons.inj heq
            exact hfirst
        | cons g pre =>
            obtain ⟨rfl, hes⟩ := List.cons.inj heq
            exact hothers pre f post hes
      · intro h
        refine ⟨h [] e es rfl, fun pre f post heq => ?_⟩
        exact h (e :: pre) f post (by rw [heq, List.cons_append])

theorem chain_backfilled {audit : Bucket AuditEntry} (hv : ∀ e ∈ audit.entries, e.2.Valid) :
    Chain D [] (backfilled D audit).entries ↔ ¬ Disordered D audit := by
  rw [entries_backfilled, chain_completedLog (fun r hr => by cases hr) hv]
  constructor
  · rintro h ⟨pre, e, post, heq, hout⟩
    exact h pre e post heq hout
  · exact fun h pre e post heq hout => h ⟨pre, e, post, heq, hout⟩

/-! ### Opening -/

theorem backfillAuditHashes_runs (db : DB) :
    (backfillAuditHashes D).Runs db () { db with audit := backfilled D db.audit } := by
  have hruns := Tx.runs_each_modify Error.bolt
    (fun (u : Nat × AuditEntry) (db : DB) => { db with audit := db.audit.put u.1 u.2.decoded })
    (backfillUpdates D [] db.audit.entries) db
  rw [foldl_putAudit] at hruns
  exact (Tx.runs_get db).bind hruns

/-- The recovery of the last-known-good pointer leaves the log alone and nothing to recover. -/
theorem backfillLastKnownGood_runs (db : DB) :
    ∃ db', backfillLastKnownGood.Runs db () db' ∧ db'.audit = db.audit ∧
      lastKnownSource db' = none := by
  cases hsource : lastKnownSource db with
  | none =>
      refine ⟨db, (Tx.runs_get db).bind ?_, rfl, hsource⟩
      simp only [hsource]
      exact Tx.runs_pure () db
  | some running =>
      -- the marker is missing: the running version is taken, and its record mended
      have hbind : ∀ {db'}, (recoverLastKnown running).Runs db () db' →
          backfillLastKnownGood.Runs db () db' := by
        intro db' h
        refine (Tx.runs_get db).bind ?_
        simp only [hsource]
        exact h
      have hrecover : ∀ {db'}, (recoverInfo running (db.versionInfo.get running)).Runs
          { db with lastKnown := some running } () db' →
          (recoverLastKnown running).Runs db () db' := fun h =>
        (Tx.runs_modify Error.bolt _ db).bind ((Tx.runs_get _).bind h)
      cases hinfo : db.versionInfo.get running with
      | none =>
          refine ⟨{ db with lastKnown := some running }, hbind (hrecover ?_), rfl, rfl⟩
          rw [hinfo]
          exact Tx.runs_pure () _
      | some info =>
          cases hneeds : info.needsRecovery with
          | false =>
              refine ⟨{ db with lastKnown := some running }, hbind (hrecover ?_), rfl, rfl⟩
              rw [hinfo, recoverInfo, hneeds]
              exact Tx.runs_pure () _
          | true =>
              refine ⟨{ db with
                lastKnown := some running
                versionInfo := db.versionInfo.put running info.recovered.decoded },
                hbind (hrecover ?_), rfl, rfl⟩
              rw [hinfo, recoverInfo, hneeds]
              rfl

/-- A database whose log can be completed opens, with the completed log. -/
theorem Open_runs {db : DB} (hchain : Chain D [] (backfilled D db.audit).entries) :
    ∃ db', (Open D).Runs db () db' ∧ db'.audit = backfilled D db.audit ∧
      lastKnownSource db' = none := by
  obtain ⟨db', hruns, haudit, hsource⟩ :=
    backfillLastKnownGood_runs { db with audit := backfilled D db.audit }
  refine ⟨db', ?_, haudit, hsource⟩
  exact (Tx.runs_modify Error.bolt id db).bind ((backfillAuditHashes_runs db).bind
    ((Tx.runs_get _).bind ((Tx.runs_lift (auditTipHash_ok.mpr ⟨hchain, rfl⟩) _).bind hruns)))

/-- Opening changes nothing when there is nothing to complete or to recover. -/
theorem Open_runs_self {db : DB} (hchain : Chain D [] db.audit.entries)
    (hsource : lastKnownSource db = none) : (Open D).Runs db () db := by
  have hback : backfilled D db.audit = db.audit := backfilled_of_chain hchain
  have hruns : backfillLastKnownGood.Runs db () db := by
    refine (Tx.runs_get db).bind ?_
    simp only [hsource]
    exact Tx.runs_pure () db
  have hfill := backfillAuditHashes_runs (D := D) db
  rw [hback] at hfill
  exact (Tx.runs_modify Error.bolt id db).bind (hfill.bind
    ((Tx.runs_get _).bind ((Tx.runs_lift (auditTipHash_ok.mpr ⟨hchain, rfl⟩) _).bind hruns)))

/-- A database opens only if its log can be completed, and then with the completed log. -/
theorem Open_yields {db db' : DB} {u : Unit} (h : (Open D).Yields db u db') :
    Chain D [] (backfilled D db.audit).entries ∧ db'.audit = backfilled D db.audit := by
  have heffect : Effect IdentityHash.zero D (fun _ => .zero) db .reopen .done db' := Open_ok h
  cases heffect with
  | reopen hchain => exact ⟨hchain, rfl⟩
  | recover hchain => exact ⟨hchain, rfl⟩

theorem not_rejected_of_chain {audit : Bucket AuditEntry} (h : Chain D [] audit.entries) :
    ¬ Rejected D audit := by
  rintro ⟨err, herr⟩
  rw [auditIntegrityReport_ok.mpr ⟨h, rfl⟩] at herr
  cases herr

/-- **When a refused log is still refused**: exactly when it cannot be completed. -/
theorem rejected_reopened_iff {db : DB} (hv : ∀ e ∈ db.audit.entries, e.2.Valid)
    (hrejected : Rejected D db.audit) :
    (∀ faults, Rejected D (Tx.update .bolt faults (Open D) db).2.audit) ↔
      Disordered D db.audit := by
  constructor
  · intro h
    by_contra hordered
    obtain ⟨db', hruns, haudit, -⟩ := Open_runs ((chain_backfilled hv).mpr hordered)
    have hstill := h []
    rw [hruns.update, haudit] at hstill
    exact not_rejected_of_chain ((chain_backfilled hv).mpr hordered) hstill
  · intro hdis faults
    rcases Tx.update_cases Error.bolt faults (Open D) db with ⟨err, hfail⟩ | ⟨u, db', -, hy⟩
    · rw [hfail]
      exact hrejected
    · exact ((chain_backfilled hv).mp (Open_yields hy).1 hdis).elim

/-! ### Logs without hashes -/

/-- An entry with the hashes it lacked: everything else is as it was, but that an entry which had no
number has that of its key. -/
structure Migrates (old new : Nat × AuditEntry) : Prop where
  key : new.1 = old.1
  id : new.2.id = if old.2.id = 0 then old.1 else old.2.id
  time : new.2.time = old.2.time
  actor : new.2.actor = old.2.actor
  actorRole : new.2.actorRole = old.2.actorRole
  authSource : new.2.authSource = old.2.authSource
  action : new.2.action = old.2.action
  detail : new.2.detail = old.2.detail
  version : new.2.version = old.2.version

theorem migrates_completedLog {p : GoString} {es : List (Nat × AuditEntry)} (hp : p.Valid)
    (hv : ∀ e ∈ es, e.2.Valid) (hnone : ∀ e ∈ es, e.2.entryHash = []) :
    List.Forall₂ Migrates es (completedLog D p es) := by
  induction es generalizing p with
  | nil => exact .nil
  | cons e es ih =>
      have hve := hv e List.mem_cons_self
      have hhash : ¬ e.2.entryHash ≠ [] := not_not.mpr (hnone e List.mem_cons_self)
      rw [completedLog, if_neg hhash, (valid_completed hp hve).decoded_eq]
      refine .cons ⟨rfl, rfl, rfl, rfl, rfl, rfl, rfl, rfl, rfl⟩ ?_
      exact ih (valid_countedHash hp hve) (fun f hf => hv f (List.mem_cons_of_mem _ hf))
        fun f hf => hnone f (List.mem_cons_of_mem _ hf)

theorem disordered_of_legacy {audit : Bucket AuditEntry}
    (hnone : ∀ e ∈ audit.entries, e.2.entryHash = []) :
    ¬ Disordered D audit ↔ ∀ e ∈ audit.entries, e.2.id = 0 ∨ e.2.id = e.1 := by
  have hout : ∀ p, ∀ e ∈ audit.entries, OutOfPlace D p e ↔ e.2.id ≠ 0 ∧ e.2.id ≠ e.1 := by
    intro p e he
    unfold OutOfPlace
    rw [if_neg (not_not.mpr (hnone e he))]
  constructor
  · intro h e he
    by_contra hbad
    obtain ⟨pre, post, heq⟩ := List.append_of_mem he
    exact h ⟨pre, e, post, heq, (hout _ e he).mpr (not_or.mp hbad)⟩
  · rintro h ⟨pre, e, post, heq, hbad⟩
    have he : e ∈ audit.entries := by
      rw [heq]
      exact List.mem_append_right _ List.mem_cons_self
    obtain ⟨h0, hkey⟩ := (hout _ e he).mp hbad
    exact (h e he).elim h0 hkey

/-- **A log without hashes** is completed once and for all, exactly when its entries are numbered by
their keys. -/
theorem legacy_migrated_iff {db : DB} (hv : ∀ e ∈ db.audit.entries, e.2.Valid)
    (hnone : ∀ e ∈ db.audit.entries, e.2.entryHash = []) :
    (∃ db', Tx.update .bolt [] (Open D) db = (.ok (), db') ∧ ¬ Rejected D db'.audit ∧
        List.Forall₂ Migrates db.audit.entries db'.audit.entries ∧
        Tx.update .bolt [] (Open D) db' = (.ok (), db')) ↔
      ∀ e ∈ db.audit.entries, e.2.id = 0 ∨ e.2.id = e.1 := by
  rw [← disordered_of_legacy (D := D) hnone, ← chain_backfilled hv]
  constructor
  · rintro ⟨db', hopen, -⟩
    exact (Open_yields (Tx.update_ok (congrArg Prod.fst hopen))).1
  · intro hchain
    obtain ⟨db', hruns, haudit, hsource⟩ := Open_runs hchain
    have hchain' : Chain D [] db'.audit.entries := haudit ▸ hchain
    refine ⟨db', hruns.update _, not_rejected_of_chain hchain', ?_,
      (Open_runs_self hchain' hsource).update _⟩
    rw [haudit, entries_backfilled]
    exact migrates_completedLog (fun r hr => by cases hr) hv hnone

/-- **Opening a database again.** A log that does not verify is still refused afterwards, whichever
writes fail, exactly when some entry of it is out of place: one that has a hash and does not verify
after the one before it, an entry without a hash counting with the one it would get; or one without
a hash that is misnumbered. A log without hashes whose entries are numbered by their keys is
completed, verifies, keeps everything else, and is left alone from then on. -/
theorem reopen_audit (D : Digest) (db : DB) (hv : ∀ e ∈ db.audit.entries, e.2.Valid) :
    (Rejected D db.audit →
        ((∀ faults, Rejected D (Tx.update .bolt faults (Open D) db).2.audit) ↔
          Disordered D db.audit)) ∧
      ((∀ e ∈ db.audit.entries, e.2.entryHash = []) →
        ((∃ db', Tx.update .bolt [] (Open D) db = (.ok (), db') ∧ ¬ Rejected D db'.audit ∧
            List.Forall₂ Migrates db.audit.entries db'.audit.entries ∧
            Tx.update .bolt [] (Open D) db' = (.ok (), db')) ↔
          ∀ e ∈ db.audit.entries, e.2.id = 0 ∨ e.2.id = e.1)) :=
  ⟨fun hrejected => rejected_reopened_iff hv hrejected, fun hnone => legacy_migrated_iff hv hnone⟩

/-- The log of one login of `ops`. -/
def sampleLog : Bucket AuditEntry :=
  (final (exec IdentityHash.zero sampleDigest) {}
    [appendCall (sampleEntry (GoString.ofString "ops") "login")]).audit

/-- The same with another actor, and the hash blanked. -/
def tamperedLog : Bucket AuditEntry :=
  sampleLog.put 1 { sampleEntry [.char runeError] "login" with id := 1 }

theorem valid_tamperedLog : ∀ e ∈ tamperedLog.entries, e.2.Valid := by
  have hentries : tamperedLog.entries =
      [(1, { sampleEntry [.char runeError] "login" with id := 1 })] := by decide +kernel
  intro e he
  rw [hentries] at he
  rw [List.mem_singleton.mp he]
  exact ⟨by decide, by decide, by decide, by decide, by decide, by decide, by decide⟩

theorem tamperedLog_rejected : Rejected sampleDigest tamperedLog :=
  ⟨.message "audit integrity entry 1: missing entry hash", by decide +kernel⟩

/-- **Opening launders**: the tampered log is refused, and after the database was opened it
verifies. -/
theorem open_launders :
    Rejected sampleDigest tamperedLog ∧
      ¬ ∀ faults, Rejected sampleDigest
        (Tx.update .bolt faults (Open sampleDigest) { audit := tamperedLog }).2.audit := by
  refine ⟨tamperedLog_rejected, fun h => ?_⟩
  obtain ⟨err, herr⟩ := h []
  have hok : (auditIntegrityReport sampleDigest (Tx.update .bolt [] (Open sampleDigest)
      { audit := tamperedLog }).2.audit).isOk = true := by decide +kernel
  rw [herr] at hok
  cases hok

/-- The tampered log is in order as far as the condition goes. -/
theorem reopen_audit_tampered : Rejected sampleDigest tamperedLog ∧
    ((∀ faults, Rejected sampleDigest
        (Tx.update .bolt faults (Open sampleDigest) { audit := tamperedLog }).2.audit) ↔
      Disordered sampleDigest tamperedLog) :=
  ⟨tamperedLog_rejected,
    (reopen_audit sampleDigest { audit := tamperedLog } valid_tamperedLog).1 tamperedLog_rejected⟩

end Phragma.Store
