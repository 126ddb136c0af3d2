import Phragma.Lib.Bucket
import Phragma.Lib.Tx
import Phragma.Go.Json
import Phragma.Go.Time
import Phragma.Policy.RuleIdentity

/-!
# Phragma.Store.Model

The records and buckets of the policy store (`internal/store/store.go`).

A bucket holds encoded records. The model keeps what `json.Unmarshal` makes of them:
every text that is written passes through `jsonString`, which is where a byte that is not
UTF-8 is lost (`decoded`). Policies are protobuf messages and survive their encoding.

`Digest` stands for SHA-256, printed as hexadecimal digits, of a text and of an encoded
policy. Nothing is assumed of it here but that a digest is not the empty text; the results
that need more name it.
-/

namespace Phragma.Store

open Lib Go

/-- SHA-256 as lower-case hexadecimal digits. -/
structure Digest where
  /-- Of a byte sequence. -/
  hex : GoString → List Char
  /-- Of the protobuf encoding of a policy. -/
  policy : Phragma.Policy → List Char
  hex_ne_nil : ∀ s, hex s ≠ []

/-- `fmt.Sprintf("%d", n)`: a number in decimal, as it stands in ids and details. -/
def sprintD (n : Nat) : GoString := GoString.ofString (decimal n)

/-! ### Errors

Callers tell some errors apart (`errors.Is`) and pass the others on as texts, so the former are
constructors of their own. -/

/-- What the store's operations return as an error. -/
inductive Error
  | candidateRevisionConflict
  | changeApprovalNotFound
  | changeApprovalConsumed
  | changeApprovalRevisionMismatch
  /-- A write or a commit that the database refused. -/
  | bolt
  | message (text : String)
  deriving DecidableEq, Repr

/-- The text of an error; a database error has its own. -/
def Error.text : Error → String
  | .candidateRevisionConflict => "candidate revision conflict"
  | .changeApprovalNotFound => "change approval not found"
  | .changeApprovalConsumed => "change approval already consumed"
  | .changeApprovalRevisionMismatch => "change approval candidate revision mismatch"
  | .bolt => ""
  | .message text => text

/-! ### Records

Texts are `GoString`s: a request may bring bytes that are not UTF-8, and what becomes of these
matters for the hashes of the log. Absent fields have Go's zero values. -/

/-- `ActorIdentity`: who makes a change, in which role, and by what kind of authentication. -/
structure ActorIdentity where
  name : GoString := []
  role : GoString := []
  authSource : GoString := []
  deriving DecidableEq, Repr

/-- `VersionArtifact`: one file that the engines were given for a version, by its digest. -/
structure VersionArtifact where
  engine : GoString := []
  name : GoString := []
  sizeBytes : Nat := 0
  sha256 : GoString := []
  deriving DecidableEq, Repr

/-- `VersionInfo`; its `LastKnownGood` is computed on reading and never stored. -/
structure VersionInfo where
  id : Nat := 0
  createdAt : Time := .zero
  actor : GoString := []
  actorRole : GoString := []
  authSource : GoString := []
  comment : GoString := []
  action : GoString := []
  sourceVersion : Nat := 0
  state : GoString := []
  artifactSetSHA256 : GoString := []
  artifacts : List VersionArtifact := []
  activatedAt : Time := .zero
  stateDetail : GoString := []
  deriving DecidableEq

/-- `AuditEntry`: who did what, to which version, with the hash of the entry before it and its
own. -/
structure AuditEntry where
  id : Nat := 0
  time : Time := .zero
  actor : GoString := []
  actorRole : GoString := []
  authSource : GoString := []
  action : GoString := []
  detail : GoString := []
  version : Nat := 0
  previousHash : GoString := []
  entryHash : GoString := []
  deriving DecidableEq

/-- `ChangeApproval`: a consent to apply the candidate of one revision. It is good for one apply, of
which it then names the version and who made it. -/
structure ChangeApproval where
  id : GoString := []
  candidateRevision : GoString := []
  actor : GoString := []
  actorRole : GoString := []
  authSource : GoString := []
  comment : GoString := []
  ackRisk : Bool := false
  ackRuntime : Bool := false
  createdAt : Time := .zero
  consumed : Bool := false
  consumedVersion : Nat := 0
  consumedAt : Time := .zero
  consumedBy : GoString := []
  consumedByRole : GoString := []
  consumedByAuthSource : GoString := []
  deriving DecidableEq

/-- `HighAvailabilityState`: the local role marker, and how it came about. The evidence that
only reports read is left out. -/
structure HighAvailabilityState where
  role : GoString := []
  previousRole : GoString := []
  activatedAt : Time := .zero
  actor : GoString := []
  actorRole : GoString := []
  authSource : GoString := []
  comment : GoString := []
  source : GoString := []
  runningPolicyVersion : Nat := 0
  lastKnownGoodVersion : Nat := 0
  peerID : GoString := []
  deriving DecidableEq

/-! ### Records as they are read back

What is read is not always what was written: a byte that is not UTF-8 comes back as the replacement
character. A record is written `decoded`, so that reading it is no step of its own. -/

/-- A stored artifact, as it is read back. -/
def VersionArtifact.decoded (a : VersionArtifact) : VersionArtifact :=
  { a with
    engine := jsonString a.engine
    name := jsonString a.name
    sha256 := jsonString a.sha256 }

/-- Stored metadata of a version. Times and numbers survive as they are. -/
def VersionInfo.decoded (v : VersionInfo) : VersionInfo :=
  { v with
    actor := jsonString v.actor
    actorRole := jsonString v.actorRole
    authSource := jsonString v.authSource
    comment := jsonString v.comment
    action := jsonString v.action
    state := jsonString v.state
    artifactSetSHA256 := jsonString v.artifactSetSHA256
    artifacts := v.artifacts.map VersionArtifact.decoded
    stateDetail := jsonString v.stateDetail }

/-- A stored entry of the log. Its own hash passes through the encoding too. -/
def AuditEntry.decoded (e : AuditEntry) : AuditEntry :=
  { e with
    actor := jsonString e.actor
    actorRole := jsonString e.actorRole
    authSource := jsonString e.authSource
    action := jsonString e.action
    detail := jsonString e.detail
    previousHash := jsonString e.previousHash
    entryHash := jsonString e.entryHash }

/-- A stored approval. -/
def ChangeApproval.decoded (a : ChangeApproval) : ChangeApproval :=
  { a with
    id := jsonString a.id
    candidateRevision := jsonString a.candidateRevision
    actor := jsonString a.actor
    actorRole := jsonString a.actorRole
    authSource := jsonString a.authSource
    comment := jsonString a.comment
    consumedBy := jsonString a.consumedBy
    consumedByRole := jsonString a.consumedByRole
    consumedByAuthSource := jsonString a.consumedByAuthSource }

/-- The stored role marker. -/
def HighAvailabilityState.decoded (s : HighAvailabilityState) : HighAvailabilityState :=
  { s with
    role := jsonString s.role
    previousRole := jsonString s.previousRole
    actor := jsonString s.actor
    actorRole := jsonString s.actorRole
    authSource := jsonString s.authSource
    comment := jsonString s.comment
    source := jsonString s.source
    peerID := jsonString s.peerID }

/-- The texts of an audit entry are UTF-8. -/
structure AuditEntry.Valid (e : AuditEntry) : Prop where
  actor : e.actor.Valid
  actorRole : e.actorRole.Valid
  authSource : e.authSource.Valid
  action : e.action.Valid
  detail : e.detail.Valid
  previousHash : e.previousHash.Valid
  entryHash : e.entryHash.Valid

/-- Whatever is read back is UTF-8. -/
theorem AuditEntry.valid_decoded (e : AuditEntry) : e.decoded.Valid :=
  ⟨valid_jsonString _, valid_jsonString _, valid_jsonString _, valid_jsonString _,
    valid_jsonString _, valid_jsonString _, valid_jsonString _⟩

/-- An entry of UTF-8 texts is read back as it was. -/
theorem AuditEntry.Valid.decoded_eq {e : AuditEntry} (h : e.Valid) : e.decoded = e := by
  cases e
  simp only [AuditEntry.decoded, jsonString_eq_self h.actor, jsonString_eq_self h.actorRole,
    jsonString_eq_self h.authSource, jsonString_eq_self h.action, jsonString_eq_self h.detail,
    jsonString_eq_self h.previousHash, jsonString_eq_self h.entryHash]

/-! ### The database

One value for the whole file. bbolt runs one writing transaction at a time and a reading one on a
snapshot, so nothing here is concurrent. -/

/-- The buckets of the store. The `meta` bucket is its three keys, the `candidate` bucket
its one; the retained reports and backup snapshots take no part in what follows. -/
structure DB where
  running : Option Nat := none
  lastKnown : Option Nat := none
  /-- The HA marker. -/
  haState : Option HighAvailabilityState := none
  versions : Bucket Phragma.Policy := .empty
  versionInfo : Bucket VersionInfo := .empty
  candidate : Option Phragma.Policy := none
  audit : Bucket AuditEntry := .empty
  approvals : Bucket ChangeApproval := .empty
  deriving DecidableEq

/-- `metaVersionID`, and the number under `keyRunning` in `candidateRevisionTx`. -/
def metaVersionID (pointer : Option Nat) : Nat := pointer.getD 0

/-- `candidateBlobRevision`: the revision of a candidate is the digest of its encoding, so that two
candidates have the same one exactly when they are the same policy. -/
def candidateBlobRevision (D : Digest) (p : Phragma.Policy) : GoString :=
  GoString.ofString "sha256:" ++ (D.policy p).map .char

/-- `candidateRevisionTx`: the digest of the candidate, or a token for the running version
when there is none. -/
def candidateRevision (D : Digest) (db : DB) : GoString :=
  match db.candidate with
  | some p => candidateBlobRevision D p
  | none => GoString.ofString "none:" ++ sprintD (metaVersionID db.running)

/-- Numbers, revisions and whatever is made of them are UTF-8. -/
theorem valid_sprintD (n : Nat) : (sprintD n).Valid := GoString.valid_ofString _

theorem valid_candidateBlobRevision (D : Digest) (p : Phragma.Policy) :
    (candidateBlobRevision D p).Valid :=
  GoString.valid_append.mpr ⟨GoString.valid_ofString _, GoString.valid_map_char _⟩

theorem valid_candidateRevision (D : Digest) (db : DB) : (candidateRevision D db).Valid := by
  unfold candidateRevision
  cases db.candidate with
  | some p => exact valid_candidateBlobRevision D p
  | none => exact GoString.valid_append.mpr ⟨GoString.valid_ofString _, valid_sprintD _⟩

/-! ### Reports of a normalization in an audit detail

A policy is stored with the ids of its items normalized. What the normalization did is said at the
end of the detail of the entry that records the change, if it did anything. -/

/-- The three counters of one kind of item. -/
def reportCounters (kind : String) (r : Policy.IdentityReport) : String :=
  kind ++ "added=" ++ decimal r.added ++ " " ++ kind ++ "normalized=" ++ decimal r.normalized ++
    " " ++ kind ++ "deduped=" ++ decimal r.deduped

/-- Append a suffix to a detail, or use it alone when the detail is blank. -/
def appendSuffix (detail : GoString) (suffix : String) : GoString :=
  if detail.trimSpace = [] then GoString.ofString suffix
  else detail ++ GoString.ofString "; " ++ GoString.ofString suffix

/-- `appendRuleIdentityAuditDetail`: how many ids of rules were added, trimmed and made unique. -/
def appendRuleIdentityAuditDetail (detail : GoString) (report : Policy.IdentityReport) : GoString :=
  if !report.changed then detail
  else appendSuffix detail ("rule-id-backfill " ++ reportCounters "" report)

/-- `appendPolicyItemIdentityAuditDetail`: the same of the items that are not rules, each kind with
counters of its own. -/
def appendPolicyItemIdentityAuditDetail (detail : GoString)
    (report : Policy.PolicyItemIdentityReport) : GoString :=
  if !report.changed then detail
  else appendSuffix detail ("policy-item-id-backfill " ++
    reportCounters "host_input_" report.hostInput ++ " " ++
    reportCounters "source_nat_" report.sourceNat ++ " " ++
    reportCounters "destination_nat_" report.destinationNat)

/-- `appendPolicyIdentityAuditDetail`, for the reports of normalizing `p`. -/
def appendPolicyIdentityAuditDetail (H : Policy.IdentityHash) (p : Phragma.Policy)
    (detail : GoString) : GoString :=
  let rules := Policy.NormalizeRuleIDs H p
  let items := Policy.NormalizePolicyItemIDs H rules.1
  appendPolicyItemIdentityAuditDetail (appendRuleIdentityAuditDetail detail rules.2) items.2

theorem valid_appendSuffix {detail : GoString} (h : detail.Valid) (suffix : String) :
    (appendSuffix detail suffix).Valid := by
  unfold appendSuffix
  split_ifs
  · exact GoString.valid_ofString _
  · exact GoString.valid_append.mpr
      ⟨GoString.valid_append.mpr ⟨h, GoString.valid_ofString _⟩, GoString.valid_ofString _⟩

theorem valid_appendPolicyIdentityAuditDetail (H : Policy.IdentityHash) (p : Phragma.Policy)
    {detail : GoString} (h : detail.Valid) :
    (appendPolicyIdentityAuditDetail H p detail).Valid := by
  unfold appendPolicyIdentityAuditDetail appendPolicyItemIdentityAuditDetail
    appendRuleIdentityAuditDetail
  dsimp only
  split_ifs
  · exact h
  · exact valid_appendSuffix h _
  · exact valid_appendSuffix h _
  · exact valid_appendSuffix (valid_appendSuffix h _) _

end Phragma.Store
