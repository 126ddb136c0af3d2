import Phragma.Lib.Machine
import Phragma.Store.Audit
import Mathlib.Data.List.Sort

/-!
# Phragma.Store.Operations

The operations of the store, each one transaction on the database, and runs of them.

A transaction may fail at any of its writes and at its commit; `exec` runs one call under a
given list of faults and given clock readings, and `Lib.history` records a run of calls.
Transactions of the database exclude each other, so every interleaving of concurrent callers
is such a run.

Every operation has a lemma `…_ok` that says what a successful call found and what it left;
the results about runs use these and never look into an operation again.
-/

namespace Phragma.Store

open Lib Go Policy

variable (H : IdentityHash) (D : Digest)

/-! ### The candidate

There is one candidate for everybody. Who edits it names the revision that the edit started from,
and the edit is refused if another one came first. -/

/-- `SetCandidate`: store a candidate, whatever was there. Ids are normalized on the way in, so a
stored policy always has them. -/
def SetCandidate (p : Phragma.Policy) : Tx DB Error Unit :=
  Tx.modify .bolt fun db => { db with candidate := some (normalizeIdentities H p) }

/-- `SetCandidateWithAuditIfRevision`; `SetCandidateWithAudit` is the case of an empty
`expected`. -/
def SetCandidateWithAuditIfRevision (now : Time) (p : Phragma.Policy) (expected : GoString)
    (e : AuditEntry) : Tx DB Error GoString := do
  let next := normalizeIdentities H p
  let db ← Tx.get
  Tx.check (expected = [] || expected = candidateRevision D db) .candidateRevisionConflict
  Tx.modify .bolt fun db => { db with candidate := some next }
  appendAuditTx D now { e with detail := appendPolicyIdentityAuditDetail H p e.detail }
  pure (candidateBlobRevision D next)

/-! ### Change approvals

An approval names the candidate it was given for by its revision, and is consumed in the transaction
that prepares the version. -/

/-- The loop of `parseApprovalID`, in 64-bit arithmetic. -/
def parseDigits : Nat → GoString → Option Nat
  | parsed, [] => some parsed
  | parsed, r :: rest =>
      if r.toChar < '0' ∨ '9' < r.toChar then none
      else parseDigits ((parsed * 10 + (r.toChar.toNat - '0'.toNat)) % 2 ^ 64) rest

/-- `parseApprovalID`: the key of an approval. Only the number counts, so several texts name one
approval. -/
def parseApprovalID (id : GoString) : Option Nat :=
  (parseDigits 0 id).bind fun parsed => if parsed = 0 then none else some parsed

/-- The record of a new approval. -/
def newApproval (id : Nat) (candidateRevision : GoString) (identity : ActorIdentity)
    (comment : GoString) (ackRisk ackRuntime : Bool) (now : Time) : ChangeApproval where
  id := sprintD id
  candidateRevision
  actor := identity.name
  actorRole := identity.role
  authSource := identity.authSource
  comment
  ackRisk
  ackRuntime
  createdAt := now

/-- The audit entry of a new approval. -/
def approvalEntry (id : Nat) (candidateRevision : GoString) (identity : ActorIdentity)
    (comment : GoString) (now : Time) : AuditEntry where
  time := now
  actor := identity.name
  actorRole := identity.role
  authSource := identity.authSource
  action := GoString.ofString "change-approval-create"
  detail := GoString.ofString "approval " ++ sprintD id ++ GoString.ofString " for candidate " ++
    candidateRevision ++ GoString.ofString ": " ++ comment

/-- `CreateChangeApproval`, with the two checks it makes before its transaction. -/
def CreateChangeApproval (clock : Nat → Time) (candidateRevision : GoString)
    (identity : ActorIdentity) (comment : GoString) (ackRisk ackRuntime : Bool) :
    Tx DB Error ChangeApproval := do
  let revision := candidateRevision.trimSpace
  let comment := comment.trimSpace
  Tx.check (revision ≠ []) (.message "candidate revision is required")
  Tx.check (comment ≠ []) (.message "approval comment is required")
  let db ← Tx.get
  Tx.check (revision = Store.candidateRevision D db) .changeApprovalRevisionMismatch
  Tx.modify .bolt fun db => { db with approvals := db.approvals.bump }
  let db ← Tx.get
  let id := db.approvals.seq
  let approval := newApproval id revision identity comment ackRisk ackRuntime (clock 0)
  Tx.modify .bolt fun db => { db with approvals := db.approvals.put id approval.decoded }
  appendAuditTx D (clock 1) (approvalEntry id revision identity comment (clock 0))
  pure approval

/-- An approval bound to a version. -/
def ChangeApproval.consume (a : ChangeApproval) (identity : ActorIdentity) (version : Nat)
    (consumedAt : Time) : ChangeApproval :=
  { a with
    consumed := true
    consumedVersion := version
    consumedAt
    consumedBy := identity.name
    consumedByRole := identity.role
    consumedByAuthSource := identity.authSource }

/-- `consumeChangeApprovalTx`: look up the approval, refuse it if it was used or given for another
revision, and mark it as used. -/
def consumeChangeApprovalTx (id candidateRevision : GoString) (identity : ActorIdentity)
    (version : Nat) (consumedAt : Time) : Tx DB Error ChangeApproval := do
  let id := id.trimSpace
  let revision := candidateRevision.trimSpace
  Tx.check (id ≠ []) .changeApprovalNotFound
  let key ← Tx.require (parseApprovalID id) .changeApprovalNotFound
  let db ← Tx.get
  let approval ← Tx.require (db.approvals.get key) .changeApprovalNotFound
  Tx.check (!approval.consumed) .changeApprovalConsumed
  Tx.check (revision ≠ [] && approval.candidateRevision = revision)
    .changeApprovalRevisionMismatch
  let approval := approval.consume identity version consumedAt
  Tx.modify .bolt fun db => { db with approvals := db.approvals.put key approval.decoded }
  pure approval

/-! ### Versions

A version is written before the engines are called and activated after they have taken it. In
between it is prepared, and nothing points to it. -/

/-- The order `normalizeVersionArtifacts` sorts by. -/
def VersionArtifact.less (a b : VersionArtifact) : Bool :=
  if a.engine ≠ b.engine then decide (a.engine.bytes < b.engine.bytes)
  else if a.name ≠ b.name then decide (a.name.bytes < b.name.bytes)
  else decide (a.sha256.bytes < b.sha256.bytes)

/-- The texts of an artifact, trimmed. -/
def VersionArtifact.trimmed (a : VersionArtifact) : VersionArtifact :=
  { a with
    engine := a.engine.trimSpace
    name := a.name.trimSpace
    sha256 := a.sha256.trimSpace }

/-- `normalizeVersionArtifacts`: trimmed, without blank ones, in a fixed order, so that the digest
of the set does not depend on who rendered first. -/
def normalizeVersionArtifacts (artifacts : List VersionArtifact) : List VersionArtifact :=
  ((artifacts.map VersionArtifact.trimmed).filter fun a => a ≠ {}).insertionSort
    fun a b => b.less a = false

/-- The text `versionArtifactSetHash` hashes for one artifact. -/
def VersionArtifact.hashed (a : VersionArtifact) : GoString :=
  let nul := Rune.char (Char.ofNat 0)
  a.engine ++ nul :: (a.name ++ nul :: (a.sha256 ++ nul :: (sprintD a.sizeBytes ++ [nul])))

/-- `versionArtifactSetHash`: one digest for all artifacts of a version, none if there are none. -/
def versionArtifactSetHash (artifacts : List VersionArtifact) : GoString :=
  if artifacts = [] then []
  else (D.hex ((normalizeVersionArtifacts artifacts).flatMap VersionArtifact.hashed)).map .char

/-- The metadata `CommitVersionWithIdentity` records. -/
def bootstrapInfo (id : Nat) (now : Time) (identity : ActorIdentity) (comment : GoString) :
    VersionInfo where
  id
  createdAt := now
  actor := identity.name
  actorRole := identity.role
  authSource := identity.authSource
  comment
  action := GoString.ofString "bootstrap"
  state := GoString.ofString "active"
  activatedAt := now
  stateDetail := GoString.ofString "Store-only version activated as last-known-good."

/-- `CommitVersionWithIdentity`: record a policy as a version and make it the running one in the
same transaction, without the engines. -/
def CommitVersionWithIdentity (now : Time) (p : Phragma.Policy) (identity : ActorIdentity)
    (comment : GoString) : Tx DB Error Nat := do
  let comment := appendPolicyIdentityAuditDetail H p comment
  Tx.modify .bolt fun db => { db with versions := db.versions.bump }
  let db ← Tx.get
  let id := db.versions.seq
  Tx.modify .bolt fun db =>
    { db with versions := db.versions.put id (normalizeIdentities H p) }
  Tx.modify .bolt fun db =>
    { db with versionInfo := db.versionInfo.put id (bootstrapInfo id now identity comment).decoded }
  Tx.modify .bolt fun db => { db with running := some id }
  Tx.modify .bolt fun db => { db with lastKnown := some id }
  Tx.modify .bolt fun db => { db with candidate := none }
  pure id

/-- The metadata of a prepared version. -/
def preparedInfo (id : Nat) (now : Time) (identity : ActorIdentity) (action comment : GoString)
    (artifacts : List VersionArtifact) (sourceVersion : Nat) : VersionInfo where
  id
  createdAt := now
  actor := identity.name
  actorRole := identity.role
  authSource := identity.authSource
  comment
  action
  sourceVersion
  state := GoString.ofString "prepared"
  artifactSetSHA256 := versionArtifactSetHash D (normalizeVersionArtifacts artifacts)
  artifacts := normalizeVersionArtifacts artifacts
  stateDetail :=
    GoString.ofString "Durable intent recorded; waiting for runtime engine apply."

/-- The audit entry of an action on a version. -/
def versionEntry (identity : ActorIdentity) (action detail : GoString) (version : Nat) :
    AuditEntry where
  actor := identity.name
  actorRole := identity.role
  authSource := identity.authSource
  action
  detail
  version

/-- The approval a prepared version consumes, if it names one. -/
def consumeNamedApproval (clock : Nat → Time) (approvalID candidateRevision : GoString)
    (identity : ActorIdentity) (version : Nat) : Tx DB Error Unit := do
  let _ ← consumeChangeApprovalTx approvalID candidateRevision identity version (clock 1)
  pure ()

/-- `PreparePolicyApplyWithIdentityAndApproval`; `PreparePolicyApplyWithIdentity` is the case
without an approval. -/
def PreparePolicyApplyWithIdentityAndApproval (clock : Nat → Time) (p : Phragma.Policy)
    (identity : ActorIdentity) (action comment : GoString) (artifacts : List VersionArtifact)
    (sourceVersion : Nat) (approvalID candidateRevision : GoString) : Tx DB Error Nat := do
  let comment := appendPolicyIdentityAuditDetail H p comment
  Tx.modify .bolt fun db => { db with versions := db.versions.bump }
  let db ← Tx.get
  let id := db.versions.seq
  Tx.modify .bolt fun db =>
    { db with versions := db.versions.put id (normalizeIdentities H p) }
  let info := preparedInfo D id (clock 0) identity action comment artifacts sourceVersion
  Tx.modify .bolt fun db => { db with versionInfo := db.versionInfo.put id info.decoded }
  Tx.whenTrue (approvalID.trimSpace ≠ [])
    (consumeNamedApproval clock approvalID candidateRevision identity id)
  appendAuditTx D (clock 2)
    (versionEntry identity (action ++ GoString.ofString "-intent") comment id)
  pure id

/-- The metadata of a version that is made the running one. -/
def VersionInfo.activated (info : VersionInfo) (now : Time) : VersionInfo :=
  { info with
    state := GoString.ofString "active"
    activatedAt := now
    stateDetail := GoString.ofString
      "Runtime engine apply completed; version activated as last-known-good." }

/-- `ActivatePreparedVersion`: the prepared version becomes the running and the last-known-good one,
the candidate goes, and the log says so, all in one transaction. -/
def ActivatePreparedVersion (clock : Nat → Time) (id : Nat) (identity : ActorIdentity)
    (action comment : GoString) : Tx DB Error Unit := do
  let db ← Tx.get
  let _ ← Tx.require (db.versions.get id)
    (.message ("prepared version " ++ decimal id ++ " not found"))
  let info ← Tx.require (db.versionInfo.get id)
    (.message ("prepared version " ++ decimal id ++ " metadata not found"))
  Tx.modify .bolt fun db =>
    { db with versionInfo := db.versionInfo.put id (info.activated (clock 0)).decoded }
  Tx.modify .bolt fun db => { db with running := some id }
  Tx.modify .bolt fun db => { db with lastKnown := some id }
  Tx.modify .bolt fun db => { db with candidate := none }
  appendAuditTx D (clock 1) (versionEntry identity action comment id)

/-- `MarkVersionState`: what became of a version, for the record. The pointers stay. -/
def MarkVersionState (id : Nat) (state detail : GoString) : Tx DB Error Unit := do
  let db ← Tx.get
  let info ← Tx.require (db.versionInfo.get id)
    (.message ("version " ++ decimal id ++ " metadata not found"))
  let info := { info with state := state.trimSpace, stateDetail := detail.trimSpace }
  Tx.modify .bolt fun db => { db with versionInfo := db.versionInfo.put id info.decoded }

/-! ### The HA marker

The role of the node is one record that is overwritten whole. -/

/-- `SetHighAvailabilityState`: overwrite the role marker. -/
def SetHighAvailabilityState (state : HighAvailabilityState) : Tx DB Error Unit :=
  Tx.modify .bolt fun db => { db with haState := some state.decoded }

/-- `SetHighAvailabilityStateWithAudit`: the same, together with an entry in the log. -/
def SetHighAvailabilityStateWithAudit (now : Time) (state : HighAvailabilityState)
    (e : AuditEntry) : Tx DB Error Unit := do
  Tx.modify .bolt fun db => { db with haState := some state.decoded }
  appendAuditTx D now e

/-! ### Opening

Opening a store repairs what older builds left: entries without hashes, and a running version
without a last-known-good one. -/

/-- Whether `backfillLastKnownGood` has anything to fill in. -/
def VersionInfo.needsRecovery (info : VersionInfo) : Bool :=
  info.state = [] || (info.activatedAt.isZero && !info.createdAt.isZero) || info.stateDetail = []

/-- What `backfillLastKnownGood` fills in. -/
def VersionInfo.recovered (info : VersionInfo) : VersionInfo :=
  { info with
    state := if info.state = [] then GoString.ofString "active" else info.state
    activatedAt :=
      if info.activatedAt.isZero && !info.createdAt.isZero then info.createdAt
      else info.activatedAt
    stateDetail :=
      if info.stateDetail = [] then
        GoString.ofString "Recovered last-known-good pointer from the running policy version."
      else info.stateDetail }

/-- The metadata part of `backfillLastKnownGood`. -/
def recoverInfo (running : Nat) : Option VersionInfo → Tx DB Error Unit
  | none => pure ()
  | some info =>
      Tx.whenTrue info.needsRecovery
        (Tx.modify .bolt fun db =>
          { db with versionInfo := db.versionInfo.put running info.recovered.decoded })

/-- The recovery of the pointer from the running version. -/
def recoverLastKnown (running : Nat) : Tx DB Error Unit := do
  Tx.modify .bolt fun db => { db with lastKnown := some running }
  let db ← Tx.get
  recoverInfo running (db.versionInfo.get running)

/-- The version `backfillLastKnownGood` recovers the pointer from, if there is one. -/
def lastKnownSource (db : DB) : Option Nat :=
  match db.lastKnown, db.running with
  | none, some running => (db.versions.get running).map fun _ => running
  | _, _ => none

/-- `backfillLastKnownGood`: where there is a running version and no last-known-good one, the
running version becomes it. -/
def backfillLastKnownGood : Tx DB Error Unit := do
  let db ← Tx.get
  match lastKnownSource db with
  | none => pure ()
  | some running => recoverLastKnown running

/-- `Open`: create the buckets that are missing, complete the hashes of an old log, verify it
and recover the last-known-good pointer. -/
def Open : Tx DB Error Unit := do
  Tx.modify .bolt id
  backfillAuditHashes D
  let db ← Tx.get
  let _ ← Tx.lift (auditTipHash D db.audit)
  backfillLastKnownGood

/-! ### Reading -/

/-- `GetRunning`: a fresh node has an empty policy with version 0. -/
def GetRunning (db : DB) : Except Error (Phragma.Policy × Nat) :=
  match db.running with
  | none => .ok ({}, 0)
  | some id =>
      match db.versions.get id with
      | none => .error (.message ("running version " ++ decimal id ++ " missing from store"))
      | some p => .ok (p, id)

/-- `GetVersion`: the policy that was recorded under a number. -/
def GetVersion (db : DB) (id : Nat) : Except Error Phragma.Policy :=
  match db.versions.get id with
  | none => .error (.message ("version " ++ decimal id ++ " not found"))
  | some p => .ok p

/-- `GetVersionInfo`: the metadata of a version, and whether it is the last-known-good one. -/
def GetVersionInfo (db : DB) (id : Nat) : Except Error (VersionInfo × Bool) :=
  match db.versionInfo.get id with
  | none => .error (.message ("version " ++ decimal id ++ " metadata not found"))
  | some info =>
      .ok ({ info with state := if info.state = [] then GoString.ofString "unknown" else info.state },
        info.id ≠ 0 && info.id = metaVersionID db.lastKnown)

/-! ### Calls and runs

A call is one transaction with what the outside world adds to it: its times, and the writes that the
database refuses. A run is a list of calls. -/

/-- The operations of the store that write. -/
inductive Op
  | reopen
  | setCandidate (p : Phragma.Policy)
  | setCandidateWithAuditIfRevision (p : Phragma.Policy) (expected : GoString) (e : AuditEntry)
  | createChangeApproval (candidateRevision : GoString) (identity : ActorIdentity)
      (comment : GoString) (ackRisk ackRuntime : Bool)
  | consumeChangeApproval (id candidateRevision : GoString) (identity : ActorIdentity)
      (version : Nat)
  | commitVersionWithIdentity (p : Phragma.Policy) (identity : ActorIdentity)
      (comment : GoString)
  | preparePolicyApply (p : Phragma.Policy) (identity : ActorIdentity)
      (action comment : GoString) (artifacts : List VersionArtifact) (sourceVersion : Nat)
      (approvalID candidateRevision : GoString)
  | activatePreparedVersion (id : Nat) (identity : ActorIdentity) (action comment : GoString)
  | markVersionState (id : Nat) (state detail : GoString)
  | appendAudit (e : AuditEntry)
  | setHighAvailabilityState (state : HighAvailabilityState)
  | setHighAvailabilityStateWithAudit (state : HighAvailabilityState) (e : AuditEntry)

/-- What an operation returns. -/
inductive Reply
  | done
  | revision (r : GoString)
  | approval (a : ChangeApproval)
  | version (id : Nat)

/-- A transaction as an operation that returns nothing. -/
def done (t : Tx DB Error Unit) : Tx DB Error Reply := do
  t
  pure .done

/-- A transaction as an operation with a result. -/
def returning {α : Type} (f : α → Reply) (t : Tx DB Error α) : Tx DB Error Reply := do
  let a ← t
  pure (f a)

/-- The transaction of an operation, for given readings of the clock. -/
def perform (clock : Nat → Time) : Op → Tx DB Error Reply
  | .reopen => done (Open D)
  | .setCandidate p => done (SetCandidate H p)
  | .setCandidateWithAuditIfRevision p expected e =>
      returning .revision (SetCandidateWithAuditIfRevision H D (clock 0) p expected e)
  | .createChangeApproval revision identity comment ackRisk ackRuntime =>
      returning .approval
        (CreateChangeApproval D clock revision identity comment ackRisk ackRuntime)
  | .consumeChangeApproval id revision identity version =>
      returning .approval (consumeChangeApprovalTx id revision identity version (clock 0))
  | .commitVersionWithIdentity p identity comment =>
      returning .version (CommitVersionWithIdentity H (clock 0) p identity comment)
  | .preparePolicyApply p identity action comment artifacts sourceVersion approvalID revision =>
      returning .version (PreparePolicyApplyWithIdentityAndApproval H D clock p identity action
        comment artifacts sourceVersion approvalID revision)
  | .activatePreparedVersion id identity action comment =>
      done (ActivatePreparedVersion D clock id identity action comment)
  | .markVersionState id state detail => done (MarkVersionState id state detail)
  | .appendAudit e => done (appendAuditTx D (clock 0) e)
  | .setHighAvailabilityState state => done (SetHighAvailabilityState state)
  | .setHighAvailabilityStateWithAudit state e =>
      done (SetHighAvailabilityStateWithAudit D (clock 0) state e)

/-- A call: an operation, the clock it reads and the faults it meets. -/
structure Call where
  op : Op
  clock : Nat → Time
  faults : List Bool

/-- One call on the database. -/
def exec (c : Call) (db : DB) : Except Error Reply × DB :=
  Tx.update .bolt c.faults (perform H D c.clock c.op) db

/-- A recorded call. -/
abbrev CallEvent := Event Call DB (Except Error Reply)

/-- The record of a run from an empty database. -/
def storeHistory (calls : List Call) : List CallEvent := history (exec H D) {} calls

end Phragma.Store
