import Phragma.Apiserver.CandidateNat
import Phragma.Apiserver.InStep

/-!
# Phragma.Apiserver.Concurrent

Concurrent clients of the policy server.

The calls that write the candidate, of any number of clients, are threads of one pool. What a commit
does once its checks are passed is here one access at a time; `applyHandler_alone` connects it with
`apply`, which does the same in one piece. A schedule orders the accesses of all calls in any way that
the server's mutex allows.

Whatever the order, the store stays well-formed and recorded versions stay (`serve_well`).
-/

namespace Phragma.Apiserver

open Lib Go Policy Engines Renderers Store

/-! ### Commit, one access at a time

The handlers do what the functions of `Phragma.Apiserver.Apply` do, but others may come between
their accesses. -/

/-- Record a failure, and return. -/
def Server.recordFailureHandler (S : Server) (env : Env) (action stage : String) (version : Nat)
    (err : String) (o : Outcome) : Handler :=
  .act .mark (fun w => { w with db := markFailed env stage version err w.db }) fun _ =>
    .transact .failureAudit (onStore env .failureAudit (appendAuditTx S.D
      (env.clock .failureAudit 0) (failureEntry env action stage version err))) fun _ =>
      .ret (.commit o)

/-- A refusal before the durable intent. -/
def Server.refuseHandler (S : Server) (env : Env) (action : String) (failure : String × String) :
    Handler :=
  S.recordFailureHandler env action failure.1 0 failure.2
    ⟨.error (failureStatus action failure.1 failure.2), []⟩

/-- The end of `apply`. -/
def Server.activateHandler (S : Server) (env : Env) (action comment : String) (id : Nat)
    (plan : Plan) (done : List Action) : Handler :=
  .transact .activate (onStore env .activate (ActivatePreparedVersion S.D (env.clock .activate) id
      env.identity (GoString.ofString action) (GoString.ofString comment))) fun
    | .error e =>
        S.recordFailureHandler env action activationStage id (activationFailure e id plan)
          ⟨.error (activationStatus action id e), done ++ [.activation (.error e)]⟩
    | .ok () => .view .readBack fun w =>
        .ret (.commit ⟨activatedResult w.db id plan.prevVersion,
          done ++ [.activation (.ok ()), .onCommit]⟩)

/-- The middle of `apply`. -/
def Server.switchHandler (S : Server) (env : Env) (action comment : String) (id : Nat)
    (plan : Plan) : Handler :=
  let applied := S.sup.Apply env.outcomes plan.artifacts plan.prevArtifacts
  .act .engines (fun w => { w with hold := holds w.hold applied.2 }) fun w =>
    match applied.1 with
    | some err =>
        S.recordFailureHandler env action "apply" id (applyFailure err id plan)
          ⟨.error (failureStatus action "apply" (applyFailure err id plan)),
            .durable id w.db :: applied.2.map .engine⟩
    | none =>
        S.activateHandler env action comment id plan (.durable id w.db :: applied.2.map .engine)

/-- `PolicyServer.apply`, one access of the store or of an engine at a time. -/
def Server.applyHandler (S : Server) (env : Env) (p : Phragma.Policy) (action comment : String)
    (ackRisk ackRuntime : Bool) (sourceVersion : Nat) (approvalID : String)
    (candidateRevision : GoString) : Handler :=
  let p := (NormalizeRuleIDs S.H p).1
  .view .plan fun w =>
    match S.plan env p action ackRisk ackRuntime approvalID w.db with
    | .error failure => S.refuseHandler env action failure
    | .ok plan =>
        .transact .prepare (onStore env .prepare (S.prepareTx env p action comment plan.artifacts
            sourceVersion approvalID candidateRevision)) fun
          | .error e => S.refuseHandler env action (prepareFailure action approvalID e)
          | .ok id => S.switchHandler env action comment id plan

/-- What `Commit` does once it has read the candidate. -/
def Server.commitCandidate (S : Server) (env : Env) (req : CommitRequest) (comment : String)
    (candidate : Option Phragma.Policy) : Handler :=
  match candidate with
  | none => .ret (.commit ⟨.error noCandidate, []⟩)
  | some candidate => .view .candidateRevision fun w =>
      match checkReviewed req (candidateRevision S.D w.db) with
      | .error status => .ret (.commit ⟨.error status, []⟩)
      | .ok () =>
          S.applyHandler env candidate "commit" comment req.ackRisk req.ackRuntime 0
            (trimSpace req.approvalId) (candidateRevision S.D w.db)

/-- `Commit`: the candidate and its revision are read one after the other. -/
def Server.commitHandler (S : Server) (env : Env) (req : CommitRequest) : Handler :=
  match commitComment env req with
  | .error status => .ret (.commit ⟨.error status, []⟩)
  | .ok comment =>
      .locked <| .view .getCandidate fun w => S.commitCandidate env req comment w.db.candidate

section

variable (S : Server) (env : Env)

theorem activateHandler_alone (action comment : String) (id : Nat) (plan : Plan)
    (done : List Action) (w : World) :
    (S.activateHandler env action comment id plan done).alone w =
      (.commit (S.activate env action comment id plan done w).1,
        (S.activate env action comment id plan done w).2) := by
  unfold Server.activateHandler Server.activate
  rw [Thread.alone_transact]
  unfold onStore
  cases transact env .activate (ActivatePreparedVersion S.D (env.clock .activate) id env.identity
    (GoString.ofString action) (GoString.ofString comment)) w.db with
  | mk r db =>
    cases r with
    | error e => rfl
    | ok u => rfl

theorem switchHandler_alone (action comment : String) (id : Nat) (plan : Plan) (w : World) :
    (S.switchHandler env action comment id plan).alone w =
      (.commit (S.switch env action comment id plan w).1,
        (S.switch env action comment id plan w).2) := by
  unfold Server.switchHandler Server.switch
  cases S.sup.Apply env.outcomes plan.artifacts plan.prevArtifacts with
  | mk result calls =>
    cases result with
    | some err => rfl
    | none => exact activateHandler_alone S env action comment id plan _ _

theorem applyHandler_alone (p : Phragma.Policy) (action comment : String)
    (ackRisk ackRuntime : Bool) (sourceVersion : Nat) (approvalID : String) (revision : GoString)
    (w : World) :
    (S.applyHandler env p action comment ackRisk ackRuntime sourceVersion approvalID
      revision).alone w =
      (.commit (S.apply env p action comment ackRisk ackRuntime sourceVersion approvalID revision
          w).1,
        (S.apply env p action comment ackRisk ackRuntime sourceVersion approvalID revision
          w).2) := by
  unfold Server.applyHandler Server.apply
  dsimp only
  rw [Thread.alone_view]
  cases S.plan env (NormalizeRuleIDs S.H p).1 action ackRisk ackRuntime approvalID w.db with
  | error failure => rfl
  | ok plan =>
      dsimp only
      rw [Thread.alone_transact]
      unfold onStore
      cases transact env .prepare (S.prepareTx env (NormalizeRuleIDs S.H p).1 action comment
        plan.artifacts sourceVersion approvalID revision) w.db with
      | mk r db =>
        cases r with
        | error e => rfl
        | ok id => exact switchHandler_alone S env action comment id plan _

end

/-! ### The store under concurrent calls

Every access is a transaction or none, so what transactions keep is kept in every order. -/

/-- The store is well-formed, its versions are numbered from one, and a candidate has all its
ids. -/
structure StoreSound (H : IdentityHash) (db : DB) : Prop where
  well : VersionsWell db
  zero : db.versions.get 0 = none
  normal : ∀ c, db.candidate = some c → normalizeIdentities H c = c

theorem storeSound_empty (H : IdentityHash) : StoreSound H {} where
  well := versionsWell_empty
  zero := rfl
  normal _ h := by cases h

/-- A candidate is stored with its ids. -/
theorem effect_candidate {H : IdentityHash} {D : Digest} {clock : Nat → Time} {db db' : DB}
    {op : Op} {r : Reply} (h : Effect H D clock db op r db') :
    db'.candidate = db.candidate ∨ db'.candidate = none ∨
      ∃ p, db'.candidate = some (normalizeIdentities H p) := by
  cases h with
  | setCandidate => exact .inr (.inr ⟨_, rfl⟩)
  | setCandidateWithAudit => exact .inr (.inr ⟨_, rfl⟩)
  | commitVersion => exact .inr (.inl rfl)
  | activate => exact .inr (.inl rfl)
  | _ => exact .inl rfl

theorem storeSound_of_effect {H : IdentityHash} {D : Digest} {clock : Nat → Time} {db db' : DB}
    {op : Op} {r : Reply} (h : Effect H D clock db op r db') (hdb : StoreSound H db) :
    StoreSound H db' := by
  refine ⟨h.versionsWell hdb.well, ?_, fun c hc => ?_⟩
  · rcases h.versions with ⟨heq, -⟩ | ⟨p, heq, -⟩
    · rw [heq]
      exact hdb.zero
    · rw [heq, Bucket.get_put_of_ne (Nat.succ_ne_zero _).symm]
      exact hdb.zero
  · rcases effect_candidate h with heq | heq | ⟨p, heq⟩
    · exact hdb.normal c (heq ▸ hc)
    · rw [heq] at hc
      cases hc
    · rw [heq] at hc
      cases hc
      exact normalizeIdentities_idem H p

theorem storeSound_final {H : IdentityHash} {D : Digest} (calls : List Store.Call) :
    StoreSound H (final (exec H D) {} calls) :=
  final_invariant (C := fun _ => True)
    (fun _ _ _ h => exec_invariant (fun _ _ heff hI => storeSound_of_effect heff hI) h)
    (fun _ _ => trivial) (storeSound_empty H)

/-- What every thread keeps. -/
def WorldSound (S : Server) (w : World) : Prop := StoreSound S.H w.db

/-- How every thread changes the store: recorded versions stay. -/
def StoreKept (w w' : World) : Prop := VersionsKept w.db w'.db

theorem StoreKept.rfl (w : World) : StoreKept w w := .refl w.db

theorem StoreKept.trans (a b c : World) (hab : StoreKept a b) (hbc : StoreKept b c) :
    StoreKept a c := VersionsKept.trans hab hbc

/-- A transaction whose successful runs are transitions of the store. -/
def IsEffect (S : Server) {α : Type} (t : Tx DB Error α) : Prop :=
  ∀ db a db', t.Yields db a db' → ∃ clock op r, Effect S.H S.D clock db op r db'

section

variable {S : Server} {env : Env}

theorem isEffect_stageTx (p : Phragma.Policy) (expected : String) (entry : AuditEntry) :
    IsEffect S (S.stageTx env p expected entry) := by
  intro db r db' h
  obtain ⟨hcur, rfl, hash, htip, rfl⟩ := SetCandidateWithAuditIfRevision_ok h
  exact ⟨env.clock .stage, _, _, .setCandidateWithAudit hcur htip⟩

theorem transact_sound {α : Type} {step : StoreStep} {t : Tx DB Error α} (ht : IsEffect S t)
    {db : DB} (hdb : StoreSound S.H db) :
    StoreSound S.H (transact env step t db).2 ∧ VersionsKept db (transact env step t db).2 := by
  unfold transact
  rcases Tx.update_cases .bolt (env.faults step) t db with ⟨e, he⟩ | ⟨a, db', he, hy⟩
  · rw [he]
    exact ⟨hdb, .refl db⟩
  · rw [he]
    obtain ⟨clock, op, r, heff⟩ := ht db a db' hy
    exact ⟨storeSound_of_effect heff hdb, heff.versionsKept hdb.well.fresh⟩

theorem keeps_onStore {α : Type} {label : Access} {step : StoreStep} {t : Tx DB Error α}
    (ht : IsEffect S t) {next : Except Error α → Handler}
    (hnext : ∀ a, (next a).Keeps (WorldSound S) StoreKept) :
    (Thread.transact label (onStore env step t) next).Keeps (WorldSound S) StoreKept :=
  Thread.keeps_transact (fun _ hw => transact_sound ht hw) hnext

theorem recordFailureHandler_keeps (action stage : String) (version : Nat) (err : String)
    (o : Outcome) :
    (S.recordFailureHandler env action stage version err o).Keeps (WorldSound S) StoreKept := by
  refine Thread.keeps_act fun w hw => ?_
  have hmark : StoreSound S.H (markFailed env stage version err w.db) ∧
      VersionsKept w.db (markFailed env stage version err w.db) := by
    unfold markFailed
    cases failedState stage version with
    | none => exact ⟨hw, .refl _⟩
    | some state =>
        exact transact_sound (S := S) (fun _ _ _ h => ⟨env.clock .mark, _, _,
          MarkVersionState_ok h⟩) hw
  exact ⟨hmark.1, hmark.2, keeps_onStore (S := S)
    (fun _ _ _ h => ⟨env.clock .failureAudit, _, _, AppendAudit_ok h⟩) fun _ => Thread.keeps_ret _⟩

theorem activateHandler_keeps (action comment : String) (id : Nat) (plan : Plan)
    (done : List Action) :
    (S.activateHandler env action comment id plan done).Keeps (WorldSound S) StoreKept := by
  refine keeps_onStore (S := S) (fun _ _ _ h => ⟨_, _, _, ActivatePreparedVersion_ok h⟩) fun r => ?_
  cases r with
  | error e => exact recordFailureHandler_keeps _ _ _ _ _
  | ok u => exact Thread.keeps_view StoreKept.rfl fun _ _ => Thread.keeps_ret _

theorem switchHandler_keeps (action comment : String) (id : Nat) (plan : Plan) :
    (S.switchHandler env action comment id plan).Keeps (WorldSound S) StoreKept := by
  refine Thread.keeps_act fun w hw => ⟨hw, VersionsKept.refl w.db, ?_⟩
  cases (S.sup.Apply env.outcomes plan.artifacts plan.prevArtifacts).1 with
  | some err => exact recordFailureHandler_keeps _ _ _ _ _
  | none => exact activateHandler_keeps _ _ _ _ _

theorem applyHandler_keeps (p : Phragma.Policy) (action comment : String)
    (ackRisk ackRuntime : Bool) (sourceVersion : Nat) (approvalID : String) (revision : GoString) :
    (S.applyHandler env p action comment ackRisk ackRuntime sourceVersion approvalID
      revision).Keeps (WorldSound S) StoreKept := by
  refine Thread.keeps_view StoreKept.rfl fun w _ => ?_
  split
  · exact recordFailureHandler_keeps _ _ _ _ _
  · refine keeps_onStore (S := S) (fun _ _ _ h => ⟨_, _, _, PreparePolicyApply_ok h⟩) fun r => ?_
    cases r with
    | error e => exact recordFailureHandler_keeps _ _ _ _ _
    | ok id => exact switchHandler_keeps _ _ _ _

theorem commitHandler_keeps (req : CommitRequest) :
    (S.commitHandler env req).Keeps (WorldSound S) StoreKept := by
  unfold Server.commitHandler
  split
  · exact Thread.keeps_ret _
  · refine (Thread.keeps_view StoreKept.rfl fun w _ => ?_).locked
    unfold Server.commitCandidate
    split
    · exact Thread.keeps_ret _
    · refine Thread.keeps_view StoreKept.rfl fun w' _ => ?_
      split
      · exact Thread.keeps_ret _
      · exact applyHandler_keeps _ _ _ _ _ _ _ _

theorem SetCandidate_keeps (req : SetCandidateRequest) :
    (S.SetCandidate env req).Keeps (WorldSound S) StoreKept := by
  unfold Server.SetCandidate
  split
  · exact Thread.keeps_ret _
  · apply Thread.Keeps.locked
    exact keeps_onStore (isEffect_stageTx _ _ _) fun _ => Thread.keeps_ret _

theorem storeCandidateNatMutation_keeps (expected comment : String) (m : NatMutation) :
    (S.storeCandidateNatMutation env expected comment m).Keeps (WorldSound S) StoreKept := by
  unfold Server.storeCandidateNatMutation
  split_ifs
  · exact Thread.keeps_ret _
  · refine Thread.keeps_view StoreKept.rfl fun w _ => ?_
    split
    · exact Thread.keeps_ret _
    · refine (keeps_onStore (isEffect_stageTx _ _ _) fun r => ?_).locked
      cases r with
      | error e => exact Thread.keeps_ret _
      | ok revision => exact Thread.keeps_view StoreKept.rfl fun _ _ => Thread.keeps_ret _
    · exact Thread.keeps_ret _

theorem editLoaded_keeps (c : NatCall) (edit : Phragma.Policy → Except Status NatMutation)
    (comment : String) (loaded : Except Status Phragma.Policy) :
    (S.editLoaded env c edit comment loaded).Keeps (WorldSound S) StoreKept := by
  unfold Server.editLoaded
  cases loaded.bind edit with
  | error status => exact Thread.keeps_ret _
  | ok m => exact storeCandidateNatMutation_keeps (trimSpace c.expectedCandidateRevision) comment m

theorem mutateCandidateNat_keeps (c : NatCall) :
    (S.mutateCandidateNat env c).Keeps (WorldSound S) StoreKept := by
  unfold Server.mutateCandidateNat
  split
  · exact Thread.keeps_ret _
  · split
    · exact Thread.keeps_ret _
    · refine Thread.keeps_view StoreKept.rfl fun w _ => ?_
      split
      · exact editLoaded_keeps _ _ _ _
      · exact Thread.keeps_view StoreKept.rfl fun _ _ => editLoaded_keeps _ _ _ _

theorem RenamePolicyObject_keeps (req : RenameRequest) :
    (S.RenamePolicyObject env req).Keeps (WorldSound S) StoreKept := by
  unfold Server.RenamePolicyObject
  split
  · exact Thread.keeps_ret _
  · refine (Thread.keeps_view StoreKept.rfl fun w _ => ?_).locked
    unfold Server.stageRenamed
    split
    · exact Thread.keeps_ret _
    · split
      · exact Thread.keeps_ret _
      · refine keeps_onStore (isEffect_stageTx _ _ _) fun r => ?_
        cases r with
        | error e => exact Thread.keeps_ret _
        | ok revision => exact Thread.keeps_view StoreKept.rfl fun _ _ => Thread.keeps_ret _

theorem stageSnapshot_keeps (req : RestoreRequest) (id : String) (p : Phragma.Policy)
    (preview : RestoreResponse) :
    (S.stageSnapshot env req id p preview).Keeps (WorldSound S) StoreKept := by
  unfold Server.stageSnapshot
  split
  · exact Thread.keeps_ret _
  · split
    · exact Thread.keeps_ret _
    · split
      · exact Thread.keeps_ret _
      · refine keeps_onStore (isEffect_stageTx _ _ _) fun r => ?_
        cases r with
        | error e => exact Thread.keeps_ret _
        | ok revision => exact Thread.keeps_view StoreKept.rfl fun _ _ => Thread.keeps_ret _

theorem PreviewBackupSnapshotRestore_keeps (req : RestoreRequest) :
    (S.PreviewBackupSnapshotRestore env req).Keeps (WorldSound S) StoreKept := by
  unfold Server.PreviewBackupSnapshotRestore
  split
  · exact Thread.keeps_ret _
  · refine Thread.keeps_view StoreKept.rfl fun w _ => ?_
    split
    · exact Thread.keeps_ret _
    · refine Thread.keeps_view StoreKept.rfl fun w' _ => ?_
      split
      · exact Thread.keeps_ret _
      · exact stageSnapshot_keeps _ _ _ _

end

/-! ### Clients

Every request is a thread of its own, so one client may have several under way. -/

/-- A request to the server. -/
inductive Request
  | setCandidate (req : SetCandidateRequest)
  | upsertCandidateSourceNat (req : UpsertNatRequest SourceNat)
  | deleteCandidateSourceNat (req : DeleteNatRequest)
  | upsertCandidateDestinationNat (req : UpsertNatRequest DestinationNat)
  | deleteCandidateDestinationNat (req : DeleteNatRequest)
  | renamePolicyObject (req : RenameRequest)
  | previewBackupSnapshotRestore (req : RestoreRequest)
  | commit (req : CommitRequest)

/-- A request, and what its handling meets outside the server. -/
structure ClientCall where
  env : Env
  request : Request

/-- The handler of a call. -/
def Server.handle (S : Server) (c : ClientCall) : Handler :=
  match c.request with
  | .setCandidate req => S.SetCandidate c.env req
  | .upsertCandidateSourceNat req => S.UpsertCandidateSourceNat c.env req
  | .deleteCandidateSourceNat req => S.DeleteCandidateSourceNat c.env req
  | .upsertCandidateDestinationNat req => S.UpsertCandidateDestinationNat c.env req
  | .deleteCandidateDestinationNat req => S.DeleteCandidateDestinationNat c.env req
  | .renamePolicyObject req => S.RenamePolicyObject c.env req
  | .previewBackupSnapshotRestore req => S.PreviewBackupSnapshotRestore c.env req
  | .commit req => S.commitHandler c.env req

/-- The calls of concurrent clients, none of them begun. -/
def Server.serve (S : Server) (w : World) (calls : List ClientCall) :
    Pool World Access Response :=
  ⟨w, none, calls.map S.handle⟩

/-- A step of the server: one access of one call. -/
abbrev AccessEvent := Event Nat (Pool World Access Response) (Option Access)

theorem handle_keeps (S : Server) (c : ClientCall) :
    (S.handle c).Keeps (WorldSound S) StoreKept := by
  unfold Server.handle
  cases c.request with
  | setCandidate req => exact SetCandidate_keeps req
  | upsertCandidateSourceNat req => exact mutateCandidateNat_keeps _
  | deleteCandidateSourceNat req => exact mutateCandidateNat_keeps _
  | upsertCandidateDestinationNat req => exact mutateCandidateNat_keeps _
  | deleteCandidateDestinationNat req => exact mutateCandidateNat_keeps _
  | renamePolicyObject req => exact RenamePolicyObject_keeps req
  | previewBackupSnapshotRestore req => exact PreviewBackupSnapshotRestore_keeps req
  | commit req => exact commitHandler_keeps req

theorem serve_well (S : Server) {w : World} (hw : StoreSound S.H w.db) (calls : List ClientCall) :
    (S.serve w calls).Well (WorldSound S) StoreKept := by
  refine ⟨hw, fun t ht => ?_⟩
  obtain ⟨c, -, rfl⟩ := List.mem_map.mp ht
  exact handle_keeps S c

theorem serve_thread {S : Server} {w : World} {calls : List ClientCall} {i : Nat} {c : ClientCall}
    (h : calls[i]? = some c) : (S.serve w calls).threads[i]? = some (S.handle c) := by
  simp only [Server.serve, List.getElem?_map, h, Option.map_some]

end Phragma.Apiserver
