import Phragma.Engines.Supervisor
import Phragma.Renderers.RenderAll
import Phragma.Store.Versions

/-!
# Phragma.Apiserver.Apply

The commit path of the policy server (`internal/apiserver/policy.go`): `Commit`, `Rollback`
and `ApplyReplicatedPolicy`, which all end in `apply`.

`apply` validates and renders, records the target version and its audit intent in one
transaction of the store, switches the engines, and then activates the version. Whatever
fails is recorded on a best-effort basis. The outside of the server (the engines' answers,
faults of the database, clocks, the caller's identity) is an `Env` per call; the risk
assessment and the runtime readiness check, which can only refuse a call, are parameters of
the server.

A call returns an `Outcome`: its result and, in order, what it did to the outside world.
-/

namespace Phragma.Apiserver

open Lib Go Policy Engines Renderers Store

/-! ### The server -/

/-- gRPC status codes. -/
inductive Code
  | invalidArgument
  | failedPrecondition
  | notFound
  | alreadyExists
  | internal
  | permissionDenied
  | unauthenticated
  deriving DecidableEq, Repr

/-- A gRPC error. -/
structure Status where
  code : Code
  message : String
  deriving DecidableEq, Repr

/-- `PolicyServer`, with the deployment it runs in. -/
structure Server where
  H : IdentityHash
  D : Digest
  renderers : OtherRenderers
  opts : Renderers.Options
  sup : Supervisor
  /-- Whether `policy.Impact` of a running and a target policy is high. -/
  impactHigh : Phragma.Policy → Phragma.Policy → Bool
  /-- `RuntimeReadiness`, of a target and a running policy, when it is set. -/
  readiness : Option (Phragma.Policy → Phragma.Policy → Except String (List String))

/-- The server's pipeline, `renderers.Pipeline(opts)`. -/
def Server.render (S : Server) (p : Phragma.Policy) : Except String (Artifacts String) :=
  RenderAll S.renderers S.H S.opts p

/-- The engines `controld` registers, in apply order, in live and in dry-run mode. -/
def controldSupervisor : Supervisor :=
  ⟨[NftablesName, RoutesName, SuricataName, VectorName, FRRName, StrongswanName, WireguardName,
    NetdevName]⟩

/-- The transactions of one call. -/
inductive StoreStep
  | prepare
  | activate
  | mark
  | failureAudit
  | stage
  deriving DecidableEq, Repr

/-- What a call meets outside the server. -/
structure Env where
  identity : ActorIdentity
  /-- The answer of `authz.RequireStepUp`. -/
  stepUp : Option Status
  outcomes : Outcomes String
  clock : StoreStep → Nat → Time
  faults : StoreStep → List Bool

/-- The store, and the config each engine holds. -/
structure World where
  db : DB
  hold : String → Option String

/-- What a call does to the outside world. -/
inductive Action
  /-- The version and its audit intent are committed. -/
  | durable (id : Nat) (db : DB)
  /-- An engine's `Apply`. -/
  | engine (call : Engines.Call String)
  /-- The activation of the prepared version. -/
  | activation (result : Except Error Unit)
  /-- `OnCommit`. -/
  | onCommit

/-- The result of a call, and what it did, in order. -/
structure Outcome where
  result : Except Status (Nat × Nat × VersionInfo × Bool)
  actions : List Action

/-! ### Refusals

`apply` works out everything that can refuse a call before it writes. Each check is named by the
stage that is reported. -/

/-- `requireRuntimeAcknowledgement`: warnings of the runtime need to be acknowledged, and so does
that there is no answer. -/
def requireRuntimeAcknowledgement (action : String)
    (check : Option (Phragma.Policy → Phragma.Policy → Except String (List String)))
    (target running : Phragma.Policy) (ackRuntime : Bool) : Except String Unit :=
  match check with
  | none => .ok ()
  | some check =>
      match check target running with
      | .error err =>
          if ackRuntime then .ok ()
          else .error ("runtime readiness status unavailable requires ack_runtime before " ++
            action ++ ": " ++ err)
      | .ok items =>
          if items = [] || ackRuntime then .ok ()
          else .error ("runtime readiness warnings require ack_runtime before " ++ action ++ ": " ++
            join items "; ")

/-- `requireHighRiskAcknowledgement`: high risk needs to be acknowledged. -/
def requireHighRiskAcknowledgement (action : String) (high ackRisk : Bool) : Except String Unit :=
  if !high || ackRisk then .ok ()
  else if action = "rollback" then
    .error "high-risk rollback impact requires ack_risk before rollback"
  else .error "high-risk policy impact requires ack_risk before commit"

/-- The check for an approval before anything is written. -/
def requireApproval (action approvalID : String) : Except String Unit :=
  if action = "commit" && trimSpace approvalID = "" then
    .error "change approval is required before commit"
  else .ok ()

/-- `policy.Validate`, as a check. -/
def validated (p : Phragma.Policy) : Except String Unit :=
  if Validate p = [] then .ok () else .error (join (Validate p) "; ")

/-- A check of `apply`, named by its stage. -/
def stage {α : Type} (name : String) (x : Except String α) : Except (String × String) α :=
  x.mapError fun err => (name, err)

/-- What `apply` works out before it writes anything. -/
structure Plan where
  artifacts : Artifacts String
  prevArtifacts : Artifacts String
  prevVersion : Nat

/-- The checks of `apply` up to the durable intent, in order. -/
def Server.plan (S : Server) (env : Env) (p : Phragma.Policy) (action : String)
    (ackRisk ackRuntime : Bool) (approvalID : String) (db : DB) :
    Except (String × String) Plan := do
  let _ ← stage "validation" (validated p)
  let artifacts ← stage "render" (S.render p)
  let _ ← stage "engine validation" (S.sup.Validate env.outcomes artifacts)
  let running ← stage "read running" ((GetRunning db).mapError Error.text)
  let _ ← stage "risk acknowledgement"
    (requireHighRiskAcknowledgement action (S.impactHigh running.1 p) ackRisk)
  let _ ← stage "runtime acknowledgement"
    (requireRuntimeAcknowledgement action S.readiness p running.1 ackRuntime)
  let prevArtifacts ← stage "render previous" (S.render running.1)
  let _ ← stage "approval" (requireApproval action approvalID)
  pure ⟨artifacts, prevArtifacts, running.2⟩

/-- The stage and text of a failed preparation. -/
def prepareFailure (action approvalID : String) (e : Error) : String × String :=
  if action = "commit" then
    match e with
    | .changeApprovalNotFound =>
        ("approval", "change approval " ++ quote approvalID ++ " was not found")
    | .changeApprovalConsumed =>
        ("approval", "change approval " ++ quote approvalID ++ " has already been consumed")
    | .changeApprovalRevisionMismatch =>
        ("approval", "change approval " ++ quote approvalID ++
          " does not match the current candidate revision")
    | e => ("record intent", e.text)
  else ("record intent", e.text)

/-! ### Recording a failure

A failure is written to the audit log if that can be done. Whether it can does not change what the
call returns. -/

/-- One transaction of the server on the store. -/
def transact {α : Type} (env : Env) (step : StoreStep) (t : Tx DB Error α) (db : DB) :
    Except Error α × DB :=
  Tx.update .bolt (env.faults step) t db

/-- The state a failed version is marked with, by the stage it failed at. -/
def failedState (stage : String) (version : Nat) : Option String :=
  if version = 0 then none
  else if stage = "apply" then some "apply_failed"
  else if hasPrefixList stage.toList "activate".toList then some "activation_failed"
  else none

/-- Mark a prepared version that failed; errors are ignored. -/
def markFailed (env : Env) (stage : String) (version : Nat) (err : String) (db : DB) : DB :=
  match failedState stage version with
  | none => db
  | some state =>
      (transact env .mark
        (MarkVersionState version (GoString.ofString state) (GoString.ofString err)) db).2

/-- The audit entry of a failure. -/
def failureEntry (env : Env) (action stage : String) (version : Nat) (err : String) :
    AuditEntry where
  actor := env.identity.name
  actorRole := env.identity.role
  authSource := env.identity.authSource
  action := GoString.ofString (action ++ "-failed")
  detail := GoString.ofString (stage ++ ": " ++ err)
  version

/-- What `fail` leaves in the store. -/
def Server.recordFailure (S : Server) (env : Env) (action stage : String) (version : Nat)
    (err : String) (db : DB) : DB :=
  (transact env .failureAudit
    (appendAuditTx S.D (env.clock .failureAudit 0) (failureEntry env action stage version err))
    (markFailed env stage version err db)).2

/-- The error `fail` returns. -/
def failureStatus (action stage err : String) : Status :=
  ⟨.failedPrecondition, action ++ " failed at " ++ stage ++ ": " ++ err⟩

/-! ### Applying

The version is recorded as an intent, the engines are switched, and the version is activated. Where
the activation fails the engines are switched back. -/

/-- `versionArtifacts`: the rendered files of a version, by name, size and digest. -/
def versionArtifacts (D : Digest) (artifacts : Artifacts String) : List VersionArtifact :=
  (artifacts.insertionSort fun a b => a.1 ≤ b.1).map fun a =>
    { engine := GoString.ofString a.1
      name := GoString.ofString a.1
      sizeBytes := a.2.utf8ByteSize
      sha256 := (D.hex (GoString.ofString a.2)).map .char }

/-- What is recorded when an engine refused its config. -/
def applyFailure (err : String) (id : Nat) (plan : Plan) : String :=
  err ++ "; prepared version " ++ decimal id ++
    " left inactive; running remains previous version " ++ decimal plan.prevVersion

/-- The stage of a failed activation. -/
def activationStage : String := "activate prepared version after engine apply"

/-- What is recorded when the activation failed. -/
def activationFailure (e : Error) (id : Nat) (plan : Plan) : String :=
  e.text ++ "; engines may be running prepared version " ++ decimal id ++
    " while store running pointer remains previous version " ++ decimal plan.prevVersion

/-- The error of a failed activation. -/
def activationStatus (action : String) (id : Nat) (e : Error) : Status :=
  ⟨.internal, action ++ " applied engines for prepared version " ++ decimal id ++
    " but failed to activate the running store record: " ++ e.text⟩

/-- The metadata read back at the end of a successful `apply`. -/
def activatedResult (db : DB) (id prevVersion : Nat) :
    Except Status (Nat × Nat × VersionInfo × Bool) :=
  match GetVersionInfo db id with
  | .error e => .error ⟨.internal, "read activated version metadata: " ++ e.text⟩
  | .ok info => .ok (id, prevVersion, info)

/-- The end of `apply`: activate the prepared version after its engines are switched. -/
def Server.activate (S : Server) (env : Env) (action comment : String) (id : Nat) (plan : Plan)
    (done : List Action) (w : World) : Outcome × World :=
  match transact env .activate (ActivatePreparedVersion S.D (env.clock .activate) id env.identity
      (GoString.ofString action) (GoString.ofString comment)) w.db with
  | (.error e, db) =>
      (⟨.error (activationStatus action id e), done ++ [.activation (.error e)]⟩,
        { w with
          db := S.recordFailure env action activationStage id (activationFailure e id plan) db })
  | (.ok (), db) =>
      (⟨activatedResult db id plan.prevVersion, done ++ [.activation (.ok ()), .onCommit]⟩,
        { w with db })

/-- The middle of `apply`: switch the engines to a prepared version. -/
def Server.switch (S : Server) (env : Env) (action comment : String) (id : Nat) (plan : Plan)
    (w : World) : Outcome × World :=
  match S.sup.Apply env.outcomes plan.artifacts plan.prevArtifacts with
  | (some err, calls) =>
      (⟨.error (failureStatus action "apply" (applyFailure err id plan)),
        .durable id w.db :: calls.map .engine⟩,
        ⟨S.recordFailure env action "apply" id (applyFailure err id plan) w.db,
          holds w.hold calls⟩)
  | (none, calls) =>
      S.activate env action comment id plan (.durable id w.db :: calls.map .engine)
        { w with hold := holds w.hold calls }

/-- A refusal before the durable intent. -/
def Server.refuse (S : Server) (env : Env) (action : String) (failure : String × String)
    (w : World) : Outcome × World :=
  (⟨.error (failureStatus action failure.1 failure.2), []⟩,
    { w with db := S.recordFailure env action failure.1 0 failure.2 w.db })

/-- The transaction that makes the intent durable. -/
def Server.prepareTx (S : Server) (env : Env) (p : Phragma.Policy) (action comment : String)
    (artifacts : Artifacts String) (sourceVersion : Nat) (approvalID : String)
    (candidateRevision : GoString) : Tx DB Error Nat :=
  PreparePolicyApplyWithIdentityAndApproval S.H S.D (env.clock .prepare) p env.identity
    (GoString.ofString action) (GoString.ofString comment) (versionArtifacts S.D artifacts)
    sourceVersion (GoString.ofString approvalID) candidateRevision

/-- `PolicyServer.apply`: a policy applied, or refused and recorded. -/
def Server.apply (S : Server) (env : Env) (p : Phragma.Policy) (action comment : String)
    (ackRisk ackRuntime : Bool) (sourceVersion : Nat) (approvalID : String)
    (candidateRevision : GoString) (w : World) : Outcome × World :=
  let p := (NormalizeRuleIDs S.H p).1
  match S.plan env p action ackRisk ackRuntime approvalID w.db with
  | .error failure => S.refuse env action failure w
  | .ok plan =>
      match transact env .prepare (S.prepareTx env p action comment plan.artifacts sourceVersion
          approvalID candidateRevision) w.db with
      | (.error e, db) => S.refuse env action (prepareFailure action approvalID e) { w with db }
      | (.ok id, db) => S.switch env action comment id plan { w with db }

/-! ### The calls

The three calls differ in the policy that they apply, and in the checks before. -/

/-- A call that is refused before it does anything. -/
def refused (status : Status) (w : World) : Outcome × World := (⟨.error status, []⟩, w)

/-- `requiredAuditComment`: a comment, which must not be blank. -/
def requiredAuditComment (comment label : String) : Except Status String :=
  if trimSpace comment = "" then .error ⟨.invalidArgument, label ++ " is required"⟩
  else .ok (trimSpace comment)

/-- `CommitRequest`: the acknowledgements of the client, the revision that was reviewed, and the
approval. -/
structure CommitRequest where
  comment : String
  ackRisk : Bool
  ackRuntime : Bool
  reviewedCandidateRevision : String
  approvalId : String

/-- The checks of `Commit` on its request alone. -/
def commitComment (env : Env) (req : CommitRequest) : Except Status String :=
  match env.stepUp with
  | some status => .error status
  | none => requiredAuditComment req.comment "commit comment"

/-- The comparison of the reviewed revision with the current one. -/
def checkReviewed (req : CommitRequest) (revision : GoString) : Except Status Unit :=
  let reviewed := trimSpace req.reviewedCandidateRevision
  if reviewed = "" then
    .error ⟨.invalidArgument,
      "reviewed_candidate_revision is required; reload candidate status, review " ++
      "validation/diff/runtime readiness, then commit the reviewed revision"⟩
  else if GoString.ofString reviewed ≠ revision then
    .error ⟨.failedPrecondition,
      "candidate changed since commit review; reload candidate status, review the " ++
      "current diff, and approve the new candidate revision before committing"⟩
  else .ok ()

/-- The error of a `Commit` without a candidate. -/
def noCandidate : Status :=
  ⟨.failedPrecondition, "no candidate policy is set; nothing to commit"⟩

/-- The checks of `Commit` on its request and the candidate. -/
def Server.commitChecks (S : Server) (env : Env) (req : CommitRequest) (db : DB) :
    Except Status (String × Phragma.Policy) :=
  match commitComment env req with
  | .error status => .error status
  | .ok comment =>
      match db.candidate with
      | none => .error noCandidate
      | some candidate =>
          match checkReviewed req (candidateRevision S.D db) with
          | .error status => .error status
          | .ok () => .ok (comment, candidate)

/-- `Commit`: the candidate applied, if it is the reviewed one. -/
def Server.Commit (S : Server) (env : Env) (req : CommitRequest) (w : World) : Outcome × World :=
  match S.commitChecks env req w.db with
  | .error status => refused status w
  | .ok (comment, candidate) =>
      S.apply env candidate "commit" comment req.ackRisk req.ackRuntime 0
        (trimSpace req.approvalId) (candidateRevision S.D w.db) w

/-- `RollbackRequest`: the version to go back to. -/
structure RollbackRequest where
  version : Nat
  comment : String
  ackRisk : Bool
  ackRuntime : Bool

/-- The checks of `Rollback` on its request and the version it names. -/
def rollbackChecks (env : Env) (req : RollbackRequest) (db : DB) :
    Except Status (String × Phragma.Policy) :=
  match env.stepUp with
  | some status => .error status
  | none =>
      match requiredAuditComment req.comment "rollback audit comment" with
      | .error status => .error status
      | .ok comment =>
          match GetVersion db req.version with
          | .error e => .error ⟨.notFound, e.text⟩
          | .ok target => .ok (comment, target)

/-- `Rollback`: the policy of that version applied. -/
def Server.Rollback (S : Server) (env : Env) (req : RollbackRequest) (w : World) :
    Outcome × World :=
  match rollbackChecks env req w.db with
  | .error status => refused status w
  | .ok (comment, target) =>
      S.apply env target "rollback" comment req.ackRisk req.ackRuntime req.version "" [] w

/-- The arguments of `ApplyReplicatedPolicy`. -/
structure ReplicatedPolicy where
  policy : Phragma.Policy
  comment : String
  ackRisk : Bool
  ackRuntime : Bool
  sourceVersion : Nat

/-- The checks of `ApplyReplicatedPolicy` on the local state. -/
def replicatedChecks (r : ReplicatedPolicy) (db : DB) : Except Status Unit :=
  match GetRunning db with
  | .error e =>
      .error ⟨.internal, "read running policy before HA policy pull: " ++ e.text⟩
  | .ok (running, version) =>
      if db.candidate.any fun candidate => candidate ≠ running then
        .error ⟨.failedPrecondition,
          "local candidate has staged changes; discard or commit them before HA policy pull"⟩
      else if r.sourceVersion ≠ 0 && r.sourceVersion ≤ version then
        .error ⟨.failedPrecondition, "HA peer policy version v" ++ decimal r.sourceVersion ++
          " is not newer than current local running version v" ++ decimal version⟩
      else .ok ()

/-- `ApplyReplicatedPolicy`: a policy of the peer applied. -/
def Server.ApplyReplicatedPolicy (S : Server) (env : Env) (r : ReplicatedPolicy) (w : World) :
    Outcome × World :=
  match replicatedChecks r w.db with
  | .error status => refused status w
  | .ok () =>
      S.apply env r.policy "ha-policy-pull" r.comment r.ackRisk r.ackRuntime r.sourceVersion "" [] w

/-! ### What the commit path does to the store

All of it are transactions of a few kinds. What these keep holds after every call, whatever fails in
it. -/

/-- The transactions of the commit path. -/
def isApplyOp : Op → Bool
  | .preparePolicyApply .. => true
  | .activatePreparedVersion .. => true
  | .markVersionState .. => true
  | .appendAudit _ => true
  | _ => false

section

variable {S : Server} {env : Env} {I : DB → Prop}
  (hI : ∀ {clock : Nat → Time} {db db' : DB} {op : Op} {r : Reply},
    Effect S.H S.D clock db op r db' → isApplyOp op = true → I db → I db')
include hI

theorem transact_invariant {α : Type} {step : StoreStep} {t : Tx DB Error α} {db : DB}
    (ht : ∀ a db', t.Yields db a db' → ∃ clock op r,
      isApplyOp op = true ∧ Effect S.H S.D clock db op r db') (h : I db) :
    I (transact env step t db).2 := by
  unfold transact
  rcases Tx.update_cases .bolt (env.faults step) t db with ⟨e, he⟩ | ⟨a, db', he, hy⟩
  · rw [he]
    exact h
  · rw [he]
    obtain ⟨clock, op, r, hop, heff⟩ := ht a db' hy
    exact hI heff hop h

theorem recordFailure_invariant (action stage : String) (version : Nat) (err : String) {db : DB}
    (h : I db) : I (S.recordFailure env action stage version err db) := by
  have hmark : I (markFailed env stage version err db) := by
    unfold markFailed
    cases failedState stage version with
    | none => exact h
    | some state =>
        exact transact_invariant hI (fun u db' hy => ⟨env.clock .mark, _, _, rfl, MarkVersionState_ok hy⟩) h
  exact transact_invariant hI (fun u db' hy => ⟨_, _, _, rfl, AppendAudit_ok hy⟩) hmark

/-- **What every transaction of the commit path keeps, `apply` keeps.** -/
theorem apply_invariant {p : Phragma.Policy} {action comment approvalID : String}
    {ackRisk ackRuntime : Bool} {sourceVersion : Nat} {revision : GoString} {w : World}
    (h : I w.db) :
    I (S.apply env p action comment ackRisk ackRuntime sourceVersion approvalID revision w).2.db := by
  unfold Server.apply
  dsimp only
  cases S.plan env (NormalizeRuleIDs S.H p).1 action ackRisk ackRuntime approvalID w.db with
  | error failure => exact recordFailure_invariant hI _ _ _ _ h
  | ok plan =>
      -- three writes at most: prepare, activate, and what a failure records
      have hprepared : I (transact env .prepare (S.prepareTx env (NormalizeRuleIDs S.H p).1 action
          comment plan.artifacts sourceVersion approvalID revision) w.db).2 :=
        transact_invariant hI (fun id db' hy => ⟨_, _, _, rfl, PreparePolicyApply_ok hy⟩) h
      dsimp only
      generalize transact env .prepare (S.prepareTx env (NormalizeRuleIDs S.H p).1 action comment
        plan.artifacts sourceVersion approvalID revision) w.db = prepared at hprepared ⊢
      obtain ⟨result, db⟩ := prepared
      cases result with
      | error e => exact recordFailure_invariant hI _ _ _ _ hprepared
      | ok id =>
          dsimp only
          unfold Server.switch
          split
          · exact recordFailure_invariant hI _ _ _ _ hprepared
          · next calls _ =>
              have hactivated : I (transact env .activate (ActivatePreparedVersion S.D
                  (env.clock .activate) id env.identity (GoString.ofString action)
                  (GoString.ofString comment)) db).2 :=
                transact_invariant hI
                  (fun u db' hy => ⟨_, _, _, rfl, ActivatePreparedVersion_ok hy⟩) hprepared
              unfold Server.activate
              dsimp only
              generalize transact env .activate (ActivatePreparedVersion S.D (env.clock .activate)
                id env.identity (GoString.ofString action) (GoString.ofString comment)) db =
                activated at hactivated ⊢
              obtain ⟨result, db⟩ := activated
              cases result with
              | error e => exact recordFailure_invariant hI _ _ _ _ hactivated
              | ok u => exact hactivated

theorem Commit_invariant (req : CommitRequest) {w : World} (h : I w.db) :
    I (S.Commit env req w).2.db := by
  unfold Server.Commit
  cases S.commitChecks env req w.db with
  | error status => exact h
  | ok r =>
      obtain ⟨comment, target⟩ := r
      dsimp only
      exact apply_invariant hI h

theorem Rollback_invariant (req : RollbackRequest) {w : World} (h : I w.db) :
    I (S.Rollback env req w).2.db := by
  unfold Server.Rollback
  cases rollbackChecks env req w.db with
  | error status => exact h
  | ok r =>
      obtain ⟨comment, target⟩ := r
      dsimp only
      exact apply_invariant hI h

theorem ApplyReplicatedPolicy_invariant (r : ReplicatedPolicy) {w : World} (h : I w.db) :
    I (S.ApplyReplicatedPolicy env r w).2.db := by
  unfold Server.ApplyReplicatedPolicy
  cases replicatedChecks r w.db with
  | error status => exact h
  | ok u =>
      dsimp only
      exact apply_invariant hI h

end

end Phragma.Apiserver
