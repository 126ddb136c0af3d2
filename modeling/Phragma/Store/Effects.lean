import Phragma.Store.Operations

/-!
# Phragma.Store.Effects

What a successful operation does to the database, as a relation with one case per outcome.

`Effect` is the step relation of the store: every transition, with what the operation found
and everything it left. A case names the guards that were passed as well as the new database, so that
an invariant is proved of the cases and never looks into a transaction. `perform_effect` shows that the transactions of `Operations` do
nothing else, and `exec_cases` adds the other half of a transaction: a call that returns an
error changes nothing. Everything about runs is derived from these two.
-/

namespace Phragma.Store

open Lib Go Policy

variable (H : IdentityHash) (D : Digest)

/-- The approval under `key` can be consumed by the given id and revision. -/
structure Consumable (db : DB) (id candidateRevision : GoString) (key : Nat)
    (a : ChangeApproval) : Prop where
  id_key : parseApprovalID id.trimSpace = some key
  get_key : db.approvals.get key = some a
  unconsumed : a.consumed = false
  revision_ne : candidateRevision.trimSpace ≠ []
  revision_eq : a.candidateRevision = candidateRevision.trimSpace

/-- The database after a version was prepared, before its approval and its audit entry. -/
def DB.prepared (db : DB) (p : Phragma.Policy) (info : VersionInfo) : DB :=
  { db with
    versions := db.versions.bump.put (db.versions.seq + 1) p
    versionInfo := db.versionInfo.put (db.versions.seq + 1) info }

/-- The database with `id` as the running version. -/
def DB.activate (db : DB) (id : Nat) : DB :=
  { db with running := some id, lastKnown := some id, candidate := none }

/-- The log after `backfillAuditHashes`. -/
def backfilled (audit : Bucket AuditEntry) : Bucket AuditEntry :=
  (backfillUpdates D [] audit.entries).foldl (fun b u => b.put u.1 u.2.decoded) audit

/-- **The transitions of the store.** A case of an operation that writes to the log has the tip that
the log verified to (`tip`), and the log extended by one sealed entry; what a case does not mention
stays as it was. -/
inductive Effect (clock : Nat → Time) (db : DB) : Op → Reply → DB → Prop
  /-- Opening finds both pointers as they should be. -/
  | reopen (chain : Chain D [] (backfilled D db.audit).entries) (source : lastKnownSource db = none) :
      Effect clock db .reopen .done { db with audit := backfilled D db.audit }
  /-- Opening recovers the last-known-good pointer. -/
  | recover {running : Nat} {infos : Bucket VersionInfo}
      (chain : Chain D [] (backfilled D db.audit).entries)
      (source : lastKnownSource db = some running)
      (kept : infos = db.versionInfo ∨ ∃ info, db.versionInfo.get running = some info ∧
        infos = db.versionInfo.put running info.recovered.decoded) :
      Effect clock db .reopen .done
        { db with
          audit := backfilled D db.audit, lastKnown := some running, versionInfo := infos }
  /-- A candidate is stored, with its ids normalized. -/
  | setCandidate {p : Phragma.Policy} :
      Effect clock db (.setCandidate p) .done
        { db with candidate := some (normalizeIdentities H p) }
  /-- A candidate is stored by an edit that started from the present one, or that names none. -/
  | setCandidateWithAudit {p : Phragma.Policy} {expected hash : GoString} {e : AuditEntry}
      (current : expected = [] ∨ expected = candidateRevision D db)
      (tip : auditTipHash D db.audit = .ok hash) :
      Effect clock db (.setCandidateWithAuditIfRevision p expected e)
        (.revision (candidateBlobRevision D (normalizeIdentities H p)))
        { db with
          candidate := some (normalizeIdentities H p)
          audit := extendLog D hash (clock 0)
            { e with detail := appendPolicyIdentityAuditDetail H p e.detail } db.audit }
  /-- An approval is given, for the candidate that is there. -/
  | createChangeApproval {revision comment hash : GoString} {identity : ActorIdentity}
      {ackRisk ackRuntime : Bool} (current : revision.trimSpace = candidateRevision D db)
      (tip : auditTipHash D db.audit = .ok hash) :
      Effect clock db (.createChangeApproval revision identity comment ackRisk ackRuntime)
        (.approval (newApproval (db.approvals.seq + 1) revision.trimSpace identity
          comment.trimSpace ackRisk ackRuntime (clock 0)))
        { db with
          approvals := db.approvals.bump.put (db.approvals.seq + 1)
            (newApproval (db.approvals.seq + 1) revision.trimSpace identity
              comment.trimSpace ackRisk ackRuntime (clock 0)).decoded
          audit := extendLog D hash (clock 1) (approvalEntry (db.approvals.seq + 1)
            revision.trimSpace identity comment.trimSpace (clock 0)) db.audit }
  /-- An approval is used up. No entry records it: the caller's own entry does. -/
  | consumeChangeApproval {id revision : GoString} {identity : ActorIdentity}
      {version key : Nat} {a : ChangeApproval} (consumable : Consumable db id revision key a) :
      Effect clock db (.consumeChangeApproval id revision identity version)
        (.approval (a.consume identity version (clock 0)))
        { db with
          approvals := db.approvals.put key (a.consume identity version (clock 0)).decoded }
  /-- A version is recorded and becomes the running one. -/
  | commitVersion {p : Phragma.Policy} {identity : ActorIdentity} {comment : GoString} :
      Effect clock db (.commitVersionWithIdentity p identity comment)
        (.version (db.versions.seq + 1))
        ((db.prepared (normalizeIdentities H p) (bootstrapInfo (db.versions.seq + 1) (clock 0)
          identity (appendPolicyIdentityAuditDetail H p comment)).decoded).activate
            (db.versions.seq + 1))
  /-- A version is prepared, with or without an approval. -/
  | prepare {p : Phragma.Policy} {identity : ActorIdentity} {action comment : GoString}
      {artifacts : List VersionArtifact} {sourceVersion : Nat}
      {approvalID revision hash : GoString} {approvals : Bucket ChangeApproval}
      (consumed : (approvalID.trimSpace = [] ∧ approvals = db.approvals) ∨
        (approvalID.trimSpace ≠ [] ∧ ∃ key a, Consumable db approvalID revision key a ∧
          approvals = db.approvals.put key
            (a.consume identity (db.versions.seq + 1) (clock 1)).decoded))
      (tip : auditTipHash D db.audit = .ok hash) :
      Effect clock db (.preparePolicyApply p identity action comment artifacts sourceVersion
          approvalID revision)
        (.version (db.versions.seq + 1))
        { db.prepared (normalizeIdentities H p) (preparedInfo D (db.versions.seq + 1) (clock 0)
            identity action (appendPolicyIdentityAuditDetail H p comment) artifacts
            sourceVersion).decoded with
          approvals
          audit := extendLog D hash (clock 2)
            (versionEntry identity (action ++ GoString.ofString "-intent")
              (appendPolicyIdentityAuditDetail H p comment) (db.versions.seq + 1)) db.audit }
  /-- A prepared version becomes the running one, and the candidate goes. -/
  | activate {id : Nat} {identity : ActorIdentity} {action comment hash : GoString}
      {p : Phragma.Policy} {info : VersionInfo} (version : db.versions.get id = some p)
      (metadata : db.versionInfo.get id = some info)
      (tip : auditTipHash D db.audit = .ok hash) :
      Effect clock db (.activatePreparedVersion id identity action comment) .done
        { db.activate id with
          versionInfo := db.versionInfo.put id (info.activated (clock 0)).decoded
          audit := extendLog D hash (clock 1) (versionEntry identity action comment id) db.audit }
  /-- What became of a version is noted; no pointer moves. -/
  | markVersionState {id : Nat} {state detail : GoString} {info : VersionInfo}
      (metadata : db.versionInfo.get id = some info) :
      Effect clock db (.markVersionState id state detail) .done
        { db with
          versionInfo := db.versionInfo.put id
            ({ info with state := state.trimSpace, stateDetail := detail.trimSpace } :
              VersionInfo).decoded }
  /-- An entry of its own. -/
  | appendAudit {e : AuditEntry} {hash : GoString} (tip : auditTipHash D db.audit = .ok hash) :
      Effect clock db (.appendAudit e) .done
        { db with audit := extendLog D hash (clock 0) e db.audit }
  /-- The role marker is overwritten. -/
  | setHighAvailabilityState {state : HighAvailabilityState} :
      Effect clock db (.setHighAvailabilityState state) .done
        { db with haState := some state.decoded }
  /-- The role marker is overwritten, and an entry says so. -/
  | setHighAvailabilityStateWithAudit {state : HighAvailabilityState} {hash : GoString}
      {e : AuditEntry} (tip : auditTipHash D db.audit = .ok hash) :
      Effect clock db (.setHighAvailabilityStateWithAudit state e) .done
        { db with haState := some state.decoded, audit := extendLog D hash (clock 0) e db.audit }

variable {H D} {clock : Nat → Time} {db db' : DB}

/-- A transaction that answers nothing: what remains is the transaction itself. -/
theorem done_ok {t : Tx DB Error Unit} {r : Reply} (h : (done t).Yields db r db') :
    r = .done ∧ t.Yields db () db' := by
  obtain ⟨u, s₁, ht, hr⟩ := Tx.yields_bind h
  obtain ⟨rfl, rfl⟩ := Tx.yields_pure hr
  exact ⟨rfl, ht⟩

/-- A transaction whose answer is wrapped into a reply. -/
theorem returning_ok {α : Type} {f : α → Reply} {t : Tx DB Error α} {r : Reply}
    (h : (returning f t).Yields db r db') : ∃ a, r = f a ∧ t.Yields db a db' := by
  obtain ⟨a, s₁, ht, hr⟩ := Tx.yields_bind h
  obtain ⟨rfl, rfl⟩ := Tx.yields_pure hr
  exact ⟨a, rfl, ht⟩

/-! ### One operation at a time

Each transaction is taken apart from its first step on: reads and writes are passed over
(`Tx.yields_get_bind`, `Tx.yields_modify_bind`), and each guard leaves what it has checked. What is
left in the end is the new database, field by field. -/

/-- The edit was made from the stored revision, or named none, and the entry that records it tells
what became of the ids. -/
theorem SetCandidateWithAuditIfRevision_ok {now : Time} {p : Phragma.Policy}
    {expected r : GoString} {e : AuditEntry}
    (h : (SetCandidateWithAuditIfRevision H D now p expected e).Yields db r db') :
    (expected = [] ∨ expected = candidateRevision D db) ∧
      r = candidateBlobRevision D (normalizeIdentities H p) ∧
      ∃ hash, auditTipHash D db.audit = .ok hash ∧
        db' = { db with
          candidate := some (normalizeIdentities H p)
          audit := extendLog D hash now
            { e with detail := appendPolicyIdentityAuditDetail H p e.detail } db.audit } := by
  obtain ⟨hcur, h⟩ := Tx.yields_check_bind (Tx.yields_get_bind h)
  obtain ⟨u, s₁, happ, h⟩ := Tx.yields_bind (Tx.yields_modify_bind h)
  obtain ⟨hash, htip, rfl⟩ := appendAuditTx_ok D happ
  obtain ⟨rfl, rfl⟩ := Tx.yields_pure h
  exact ⟨by simpa using hcur, rfl, hash, htip, rfl⟩

/-- An approval is created for the stored revision only. -/
theorem CreateChangeApproval_ok {revision comment : GoString} {identity : ActorIdentity}
    {ackRisk ackRuntime : Bool} {a : ChangeApproval}
    (h : (CreateChangeApproval D clock revision identity comment ackRisk ackRuntime).Yields
      db a db') :
    Effect H D clock db (.createChangeApproval revision identity comment ackRisk ackRuntime)
      (.approval a) db' := by
  obtain ⟨-, h⟩ := Tx.yields_check_bind h
  obtain ⟨-, h⟩ := Tx.yields_check_bind h
  obtain ⟨hcur, h⟩ := Tx.yields_check_bind (Tx.yields_get_bind h)
  have h := Tx.yields_modify_bind (Tx.yields_get_bind (Tx.yields_modify_bind h))
  obtain ⟨u, s₁, happ, h⟩ := Tx.yields_bind h
  obtain ⟨hash, htip, rfl⟩ := appendAuditTx_ok D happ
  obtain ⟨rfl, rfl⟩ := Tx.yields_pure h
  exact .createChangeApproval (by simpa using hcur) htip

/-- The approval was there, unused and given for this revision. Only its own record changes. -/
theorem consumeChangeApprovalTx_ok {id revision : GoString} {identity : ActorIdentity}
    {version : Nat} {consumedAt : Time} {r : ChangeApproval}
    (h : (consumeChangeApprovalTx id revision identity version consumedAt).Yields db r db') :
    ∃ key a, Consumable db id revision key a ∧ r = a.consume identity version consumedAt ∧
      db' = { db with
        approvals := db.approvals.put key (a.consume identity version consumedAt).decoded } := by
  obtain ⟨-, h⟩ := Tx.yields_check_bind h
  obtain ⟨key, hkey, h⟩ := Tx.yields_require_bind h
  obtain ⟨a, hget, h⟩ := Tx.yields_require_bind (Tx.yields_get_bind h)
  obtain ⟨hfree, h⟩ := Tx.yields_check_bind h
  obtain ⟨hrev, h⟩ := Tx.yields_check_bind h
  have h := Tx.yields_modify_bind h
  obtain ⟨rfl, rfl⟩ := Tx.yields_pure h
  simp only [ne_eq, Bool.and_eq_true, decide_eq_true_eq] at hrev
  exact ⟨key, a, ⟨hkey, hget, by simpa using hfree, hrev.1, hrev.2⟩, rfl, rfl⟩

/-- A version is recorded under the next number and is the running one from then on. -/
theorem CommitVersionWithIdentity_ok {now : Time} {p : Phragma.Policy} {identity : ActorIdentity}
    {comment : GoString} {id : Nat}
    (h : (CommitVersionWithIdentity H now p identity comment).Yields db id db') :
    id = db.versions.seq + 1 ∧
      db' = (db.prepared (normalizeIdentities H p) (bootstrapInfo (db.versions.seq + 1) now
        identity (appendPolicyIdentityAuditDetail H p comment)).decoded).activate
          (db.versions.seq + 1) := by
  have h := Tx.yields_modify_bind (Tx.yields_get_bind (Tx.yields_modify_bind h))
  have h := Tx.yields_modify_bind (Tx.yields_modify_bind (Tx.yields_modify_bind h))
  exact Tx.yields_pure (Tx.yields_modify_bind h)

/-- The approval that a prepared version uses up is that of its request. -/
theorem consumeNamedApproval_ok {approvalID revision : GoString} {identity : ActorIdentity}
    {version : Nat} {u : Unit}
    (h : (consumeNamedApproval clock approvalID revision identity version).Yields db u db') :
    ∃ key a, Consumable db approvalID revision key a ∧
      db' = { db with
        approvals := db.approvals.put key (a.consume identity version (clock 1)).decoded } := by
  obtain ⟨r, s₁, hc, h⟩ := Tx.yields_bind h
  obtain ⟨key, a, hcons, -, rfl⟩ := consumeChangeApprovalTx_ok hc
  obtain ⟨-, rfl⟩ := Tx.yields_pure h
  exact ⟨key, a, hcons, rfl⟩

/-- A version is prepared together with the use of its approval, or without one if the request names
none. -/
theorem PreparePolicyApply_ok {p : Phragma.Policy} {identity : ActorIdentity}
    {action comment : GoString} {artifacts : List VersionArtifact} {sourceVersion : Nat}
    {approvalID revision : GoString} {id : Nat}
    (h : (PreparePolicyApplyWithIdentityAndApproval H D clock p identity action comment artifacts
      sourceVersion approvalID revision).Yields db id db') :
    Effect H D clock db (.preparePolicyApply p identity action comment artifacts sourceVersion
      approvalID revision) (.version id) db' := by
  have h := Tx.yields_modify_bind (Tx.yields_get_bind (Tx.yields_modify_bind h))
  obtain ⟨u, s₁, happroval, h⟩ := Tx.yields_bind (Tx.yields_modify_bind h)
  obtain ⟨u', s₂, happ, h⟩ := Tx.yields_bind h
  obtain ⟨hash, htip, rfl⟩ := appendAuditTx_ok D happ
  obtain ⟨rfl, rfl⟩ := Tx.yields_pure h
  rcases Tx.yields_whenTrue happroval with ⟨hid, hnamed⟩ | ⟨hid, rfl⟩
  · obtain ⟨key, a, hcons, rfl⟩ := consumeNamedApproval_ok hnamed
    refine .prepare (.inr ⟨by simpa using hid, key, a, ?_, rfl⟩) htip
    exact ⟨hcons.id_key, hcons.get_key, hcons.unconsumed, hcons.revision_ne, hcons.revision_eq⟩
  · exact .prepare (.inl ⟨by simpa using hid, rfl⟩) htip

/-- Only a recorded version with metadata is activated. -/
theorem ActivatePreparedVersion_ok {id : Nat} {identity : ActorIdentity}
    {action comment : GoString} {u : Unit}
    (h : (ActivatePreparedVersion D clock id identity action comment).Yields db u db') :
    Effect H D clock db (.activatePreparedVersion id identity action comment) .done db' := by
  obtain ⟨p, hp, h⟩ := Tx.yields_require_bind (Tx.yields_get_bind h)
  obtain ⟨info, hinfo, h⟩ := Tx.yields_require_bind h
  have h := Tx.yields_modify_bind (Tx.yields_modify_bind (Tx.yields_modify_bind h))
  obtain ⟨hash, htip, rfl⟩ := appendAuditTx_ok D (Tx.yields_modify_bind h)
  exact .activate hp hinfo htip

/-- So is one marked. -/
theorem MarkVersionState_ok {id : Nat} {state detail : GoString} {u : Unit}
    (h : (MarkVersionState id state detail).Yields db u db') :
    Effect H D clock db (.markVersionState id state detail) .done db' := by
  obtain ⟨info, hinfo, h⟩ := Tx.yields_require_bind (Tx.yields_get_bind h)
  obtain rfl := Tx.yields_modify h
  exact .markVersionState hinfo

/-- An entry is appended to a log that verifies. -/
theorem AppendAudit_ok {e : AuditEntry} {u : Unit}
    (h : (appendAuditTx D (clock 0) e).Yields db u db') :
    Effect H D clock db (.appendAudit e) .done db' := by
  obtain ⟨hash, htip, rfl⟩ := appendAuditTx_ok D h
  exact .appendAudit htip

/-- Writes to the log are writes to the database. -/
theorem foldl_putAudit (us : List (Nat × AuditEntry)) (db : DB) :
    us.foldl (fun db u => { db with audit := db.audit.put u.1 u.2.decoded }) db =
      { db with audit := us.foldl (fun b u => b.put u.1 u.2.decoded) db.audit } := by
  induction us generalizing db with
  | nil => rfl
  | cons u us ih => exact ih _

/-- The migration changes nothing but the log. -/
theorem backfillAuditHashes_ok {u : Unit} (h : (backfillAuditHashes D).Yields db u db') :
    db' = { db with audit := backfilled D db.audit } := by
  have h := Tx.yields_get_bind h
  rw [Tx.yields_each_modify h, foldl_putAudit]
  rfl

/-- The recovery sets the pointer, and rewrites the metadata of the running version at most. -/
theorem recoverLastKnown_ok {running : Nat} {u : Unit}
    (h : (recoverLastKnown running).Yields db u db') :
    ∃ infos, (infos = db.versionInfo ∨ ∃ info, db.versionInfo.get running = some info ∧
        infos = db.versionInfo.put running info.recovered.decoded) ∧
      db' = { db with lastKnown := some running, versionInfo := infos } := by
  have h := Tx.yields_get_bind (Tx.yields_modify_bind h)
  cases hinfo : db.versionInfo.get running with
  | none =>
      simp only [hinfo, recoverInfo] at h
      exact ⟨_, .inl rfl, (Tx.yields_pure h).2⟩
  | some info =>
      simp only [hinfo, recoverInfo] at h
      rcases Tx.yields_whenTrue h with ⟨-, h⟩ | ⟨-, rfl⟩
      · exact ⟨_, .inr ⟨info, rfl, rfl⟩, Tx.yields_modify h⟩
      · exact ⟨_, .inl rfl, rfl⟩

/-- Opening goes on only if the completed log verifies, and then recovers the pointer, or finds
nothing to recover. Whether it does is read off the database before the migration, which leaves the
pointers alone. -/
theorem Open_ok {u : Unit} (h : (Open D).Yields db u db') :
    Effect H D clock db .reopen .done db' := by
  obtain ⟨u', s₁, hback, h⟩ := Tx.yields_bind (Tx.yields_modify_bind h)
  obtain rfl := backfillAuditHashes_ok hback
  obtain ⟨hash, htip, h⟩ := Tx.yields_lift_bind (Tx.yields_get_bind h)
  have hchain := (auditTipHash_ok.mp htip).1
  have h := Tx.yields_get_bind h
  cases hsrc : lastKnownSource db with
  | none =>
      -- the migrated log is not looked at
      have hsrc' : lastKnownSource { db with audit := backfilled D db.audit } = none := hsrc
      simp only [id_eq, hsrc'] at h
      obtain ⟨-, rfl⟩ := Tx.yields_pure h
      exact .reopen hchain hsrc
  | some running =>
      have hsrc' : lastKnownSource { db with audit := backfilled D db.audit } = some running := hsrc
      simp only [id_eq, hsrc'] at h
      obtain ⟨infos, hinfos, rfl⟩ := recoverLastKnown_ok h
      exact .recover hchain hsrc hinfos

/-! ### Every operation

The relation has one case for each way an operation can succeed, so the cases of the two go side by
side. -/

/-- **The transactions do what the relation says**, and nothing else. -/
theorem perform_effect {op : Op} {r : Reply} (h : (perform H D clock op).Yields db r db') :
    Effect H D clock db op r db' := by
  cases op with
  | reopen =>
      obtain ⟨rfl, ht⟩ := done_ok h
      exact Open_ok ht
  | setCandidate p =>
      obtain ⟨rfl, ht⟩ := done_ok h
      obtain rfl := Tx.yields_modify ht
      exact .setCandidate
  | setCandidateWithAuditIfRevision p expected e =>
      obtain ⟨r, rfl, ht⟩ := returning_ok h
      obtain ⟨hcur, rfl, hash, htip, rfl⟩ := SetCandidateWithAuditIfRevision_ok ht
      exact .setCandidateWithAudit hcur htip
  | createChangeApproval revision identity comment ackRisk ackRuntime =>
      obtain ⟨a, rfl, ht⟩ := returning_ok h
      exact CreateChangeApproval_ok ht
  | consumeChangeApproval id revision identity version =>
      obtain ⟨a, rfl, ht⟩ := returning_ok h
      obtain ⟨key, a, hcons, rfl, rfl⟩ := consumeChangeApprovalTx_ok ht
      exact .consumeChangeApproval hcons
  | commitVersionWithIdentity p identity comment =>
      obtain ⟨id, rfl, ht⟩ := returning_ok h
      obtain ⟨rfl, rfl⟩ := CommitVersionWithIdentity_ok ht
      exact .commitVersion
  | preparePolicyApply p identity action comment artifacts sourceVersion approvalID revision =>
      obtain ⟨id, rfl, ht⟩ := returning_ok h
      exact PreparePolicyApply_ok ht
  | activatePreparedVersion id identity action comment =>
      obtain ⟨rfl, ht⟩ := done_ok h
      exact ActivatePreparedVersion_ok ht
  | markVersionState id state detail =>
      obtain ⟨rfl, ht⟩ := done_ok h
      exact MarkVersionState_ok ht
  | appendAudit e =>
      obtain ⟨rfl, ht⟩ := done_ok h
      exact AppendAudit_ok ht
  | setHighAvailabilityState state =>
      obtain ⟨rfl, ht⟩ := done_ok h
      obtain rfl := Tx.yields_modify ht
      exact .setHighAvailabilityState
  | setHighAvailabilityStateWithAudit state e =>
      obtain ⟨rfl, ht⟩ := done_ok h
      obtain ⟨hash, htip, rfl⟩ := appendAuditTx_ok D (Tx.yields_modify_bind ht)
      exact .setHighAvailabilityStateWithAudit htip

/-- **A call either fails and changes nothing, or is a transition.** -/
theorem exec_cases (c : Call) (db : DB) :
    (∃ e, exec H D c db = (.error e, db)) ∨
      ∃ r db', exec H D c db = (.ok r, db') ∧ Effect H D c.clock db c.op r db' := by
  rcases Tx.update_cases .bolt c.faults (perform H D c.clock c.op) db with ⟨e, he⟩ | ⟨r, db', hr, hy⟩
  · exact .inl ⟨e, he⟩
  · exact .inr ⟨r, db', hr, perform_effect hy⟩

/-- A property that every transition keeps is kept by every call. -/
theorem exec_invariant {I : DB → Prop} {c : Call} {db : DB}
    (h : ∀ r db', Effect H D c.clock db c.op r db' → I db → I db') (hI : I db) :
    I (exec H D c db).2 := by
  rcases exec_cases c db with ⟨e, he⟩ | ⟨r, db', hr, heff⟩
  · rw [he]
    exact hI
  · rw [hr]
    exact h r db' heff hI

/-- A recorded call failed and changed nothing, or is a transition. -/
theorem event_cases {calls : List Call} {ev : CallEvent} (h : ev ∈ storeHistory H D calls) :
    ((∃ e, ev.output = .error e) ∧ ev.after = ev.before) ∨
      ∃ r, ev.output = .ok r ∧
        Effect H D ev.input.clock ev.before ev.input.op r ev.after := by
  have he := (history_event h).2
  rcases exec_cases (H := H) (D := D) ev.input ev.before with ⟨e, heq⟩ | ⟨r, db', heq, heff⟩
  · obtain ⟨ho, ha⟩ := Prod.mk.inj (he.symm.trans heq)
    exact .inl ⟨⟨e, ho⟩, ha⟩
  · obtain ⟨ho, ha⟩ := Prod.mk.inj (he.symm.trans heq)
    exact .inr ⟨r, ho, ha ▸ heff⟩

end Phragma.Store
