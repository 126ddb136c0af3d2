import Phragma.Lib.Mutex
import Phragma.Apiserver.CandidateEdits

/-!
# Phragma.Apiserver.CommitReview

`Commit` applies what was reviewed and loses nothing that was not.

`Commit` reads the candidate and its revision in two transactions, and the activation of the
new version removes whatever candidate is stored by then. That nothing gets in between rests on
the server's mutex, and every call that stages a candidate takes it, but one: the restore of a
snapshot stages without it. `commit_applies_reviewed` is the law for the runs in which no
snapshot is staged while a `Commit` has read its candidate and holds the mutex;
`commit_loses_snapshot` is a run in which one is.
-/

namespace Phragma.Apiserver

open Lib Go Policy Engines Renderers Store

/-! ### Who writes without the mutex

Handler by handler. All but one write under it; what that one writes is a staged snapshot. -/

/-- What an access without the mutex may do to the world: nothing, unless it stages a
snapshot. -/
def OutsideMutex (label : Access) (w w' : World) : Prop :=
  w'.hold = w.hold ∧ (label ≠ .stageSnapshot → w' = w)

theorem outsideMutex_rfl (label : Access) (w : World) : OutsideMutex label w w :=
  ⟨rfl, fun _ => rfl⟩

section

variable {S : Server} {env : Env}

theorem recordFailureHandler_plain (action stage : String) (version : Nat) (err : String)
    (o : Outcome) : (S.recordFailureHandler env action stage version err o).Plain :=
  Thread.plain_act fun _ => Thread.plain_transact fun _ => Thread.plain_ret _

theorem activateHandler_plain (action comment : String) (id : Nat) (plan : Plan)
    (done : List Action) : (S.activateHandler env action comment id plan done).Plain := by
  refine Thread.plain_transact fun r => ?_
  cases r with
  | error e => exact recordFailureHandler_plain _ _ _ _ _
  | ok u => exact Thread.plain_view fun _ => Thread.plain_ret _

theorem switchHandler_plain (action comment : String) (id : Nat) (plan : Plan) :
    (S.switchHandler env action comment id plan).Plain := by
  refine Thread.plain_act fun w => ?_
  cases (S.sup.Apply env.outcomes plan.artifacts plan.prevArtifacts).1 with
  | some err => exact recordFailureHandler_plain _ _ _ _ _
  | none => exact activateHandler_plain _ _ _ _ _

theorem applyHandler_plain (p : Phragma.Policy) (action comment : String)
    (ackRisk ackRuntime : Bool) (sourceVersion : Nat) (approvalID : String) (revision : GoString) :
    (S.applyHandler env p action comment ackRisk ackRuntime sourceVersion approvalID
      revision).Plain := by
  refine Thread.plain_view fun w => ?_
  split
  · exact recordFailureHandler_plain _ _ _ _ _
  · refine Thread.plain_transact fun r => ?_
    cases r with
    | error e => exact recordFailureHandler_plain _ _ _ _ _
    | ok id => exact switchHandler_plain _ _ _ _

theorem commitCandidate_plain (req : CommitRequest) (comment : String)
    (candidate : Option Phragma.Policy) :
    (S.commitCandidate env req comment candidate).Plain := by
  unfold Server.commitCandidate
  split
  · exact Thread.plain_ret _
  · refine Thread.plain_view fun w => ?_
    split
    · exact Thread.plain_ret _
    · exact applyHandler_plain _ _ _ _ _ _ _ _

theorem commitHandler_guards (req : CommitRequest) :
    (S.commitHandler env req).Guards OutsideMutex false := by
  unfold Server.commitHandler
  split
  · exact Thread.guards_ret _
  · exact (Thread.plain_view fun w => commitCandidate_plain _ _ _).guards_locked

theorem SetCandidate_guards (req : SetCandidateRequest) :
    (S.SetCandidate env req).Guards OutsideMutex false := by
  unfold Server.SetCandidate
  split
  · exact Thread.guards_ret _
  · exact (Thread.plain_transact fun _ => Thread.plain_ret _).guards_locked

theorem stageNatMutation_plain (expected comment : String) (m : NatMutation) :
    (S.stageNatMutation env expected comment m).Plain := by
  refine Thread.plain_transact fun r => ?_
  cases r with
  | error e => exact Thread.plain_ret _
  | ok revision => exact Thread.plain_view fun _ => Thread.plain_ret _

theorem editLoaded_guards (c : NatCall) (edit : Phragma.Policy → Except Status NatMutation)
    (comment : String) (loaded : Except Status Phragma.Policy) :
    (S.editLoaded env c edit comment loaded).Guards OutsideMutex false := by
  unfold Server.editLoaded
  split
  · exact Thread.guards_ret _
  · unfold Server.storeCandidateNatMutation
    split_ifs
    · exact Thread.guards_ret _
    · refine Thread.guards_view (outsideMutex_rfl _) fun w => ?_
      split
      · exact Thread.guards_ret _
      · exact (stageNatMutation_plain _ _ _).guards_locked
      · exact Thread.guards_ret _

theorem mutateCandidateNat_guards (c : NatCall) :
    (S.mutateCandidateNat env c).Guards OutsideMutex false := by
  unfold Server.mutateCandidateNat
  split
  · exact Thread.guards_ret _
  · split
    · exact Thread.guards_ret _
    · refine Thread.guards_view (outsideMutex_rfl _) fun w => ?_
      split
      · exact editLoaded_guards _ _ _ _
      · exact Thread.guards_view (outsideMutex_rfl _) fun w => editLoaded_guards _ _ _ _

theorem RenamePolicyObject_guards (req : RenameRequest) :
    (S.RenamePolicyObject env req).Guards OutsideMutex false := by
  unfold Server.RenamePolicyObject
  split
  · exact Thread.guards_ret _
  · refine (Thread.plain_view fun w => ?_).guards_locked
    unfold Server.stageRenamed
    split
    · exact Thread.plain_ret _
    · split
      · exact Thread.plain_ret _
      · refine Thread.plain_transact fun r => ?_
        cases r with
        | error e => exact Thread.plain_ret _
        | ok revision => exact Thread.plain_view fun _ => Thread.plain_ret _

/-- A transaction leaves the engines alone. -/
theorem onStore_hold {α : Type} (step : StoreStep) (t : Tx DB Error α) (w : World) :
    (onStore env step t w).2.hold = w.hold := rfl

theorem stageSnapshot_guards (req : RestoreRequest) (id : String) (p : Phragma.Policy)
    (preview : RestoreResponse) :
    (S.stageSnapshot env req id p preview).Guards OutsideMutex false := by
  unfold Server.stageSnapshot
  split
  · exact Thread.guards_ret _
  · split
    · exact Thread.guards_ret _
    · split
      · exact Thread.guards_ret _
      · refine Thread.guards_transact (fun w => ⟨onStore_hold _ _ w, fun h => (h rfl).elim⟩)
          fun r => ?_
        cases r with
        | error e => exact Thread.guards_ret _
        | ok revision =>
            exact Thread.guards_view (outsideMutex_rfl _) fun _ => Thread.guards_ret _

/-- The restore of a snapshot writes without the mutex, at one access. -/
theorem PreviewBackupSnapshotRestore_guards (req : RestoreRequest) :
    (S.PreviewBackupSnapshotRestore env req).Guards OutsideMutex false := by
  unfold Server.PreviewBackupSnapshotRestore
  split
  · exact Thread.guards_ret _
  · refine Thread.guards_view (outsideMutex_rfl _) fun w => ?_
    split
    · exact Thread.guards_ret _
    · refine Thread.guards_view (outsideMutex_rfl _) fun w' => ?_
      split
      · exact Thread.guards_ret _
      · exact stageSnapshot_guards _ _ _ _

end

theorem handle_guards (S : Server) (c : ClientCall) :
    (S.handle c).Guards OutsideMutex false := by
  unfold Server.handle
  cases c.request with
  | setCandidate req => exact SetCandidate_guards req
  | upsertCandidateSourceNat req => exact mutateCandidateNat_guards _
  | deleteCandidateSourceNat req => exact mutateCandidateNat_guards _
  | upsertCandidateDestinationNat req => exact mutateCandidateNat_guards _
  | deleteCandidateDestinationNat req => exact mutateCandidateNat_guards _
  | renamePolicyObject req => exact RenamePolicyObject_guards req
  | previewBackupSnapshotRestore req => exact PreviewBackupSnapshotRestore_guards req
  | commit req => exact commitHandler_guards req

theorem serve_disciplined (S : Server) (w : World) (calls : List ClientCall) :
    (S.serve w calls).Disciplined OutsideMutex := by
  intro k t hk
  obtain ⟨c, -, rfl⟩ := List.mem_map.mp (List.mem_of_getElem? hk)
  have hfree : decide ((S.serve w calls).holder = some k) = false := rfl
  rw [hfree]
  exact handle_guards S c

/-! ### Commit alone

Between taking the mutex and giving it back a commit runs as if alone, if nothing is staged without
it. So the revision it compares is that of the candidate it applies. -/

section

variable {S : Server} {env : Env} {w w' : World} {actions : List Action} {id prev : Nat}
  {info : VersionInfo × Bool}

/-- What the reviewed revision was compared with. -/
theorem checkReviewed_ok {req : CommitRequest} {revision : GoString}
    (h : checkReviewed req revision = .ok ()) :
    GoString.ofString (trimSpace req.reviewedCandidateRevision) = revision := by
  unfold checkReviewed at h
  dsimp only at h
  split_ifs at h with hempty hne
  exact not_not.mp hne

/-- **`Commit` alone applies the candidate it has read**, which has the reviewed revision. -/
theorem commitCandidate_alone_ok {req : CommitRequest} {comment : String}
    (hw : StoreSound S.H w.db)
    (h : (S.commitCandidate env req comment w.db.candidate).alone w =
      (.commit ⟨.ok (id, prev, info), actions⟩, w')) :
    ∃ candidate, w.db.candidate = some candidate ∧
      candidateBlobRevision S.D candidate =
        GoString.ofString (trimSpace req.reviewedCandidateRevision) ∧
      w'.db.running = some id ∧
      w'.db.versions.get id = some (NormalizeRuleIDs S.H candidate).1 := by
  cases hc : w.db.candidate with
  | none =>
      rw [hc] at h
      cases h
  | some candidate =>
      rw [hc] at h
      unfold Server.commitCandidate at h
      dsimp only at h
      rw [Thread.alone_view] at h
      cases hreviewed : checkReviewed req (candidateRevision S.D w.db) with
      | error status =>
          rw [hreviewed] at h
          cases h
      | ok u =>
          rw [hreviewed] at h
          dsimp only at h
          rw [applyHandler_alone] at h
          obtain ⟨hresponse, hworld⟩ := Prod.mk.inj h
          obtain ⟨hrunning, -, hversion, -⟩ := apply_ok hw.well
            (Prod.ext (Response.commit.inj hresponse) hworld)
          have hrevision := (checkReviewed_ok hreviewed).symm
          rw [candidateRevision_of_some hc] at hrevision
          refine ⟨candidate, rfl, hrevision, hrunning, ?_⟩
          -- a stored candidate has all its ids, so normalizing it changes nothing
          have hnormal := hw.normal candidate hc
          have hrules : (NormalizeRuleIDs S.H candidate).1 = candidate := by
            rw [← hnormal]
            exact NormalizeRuleIDs_normalizeIdentities S.H candidate
          rw [hversion, hnormal, hrules]

end

/-! ### Runs

In any schedule each commit has such a critical section, and what it activates is the reviewed
candidate. -/

/-- The step stages a candidate. -/
def Stages (ev : AccessEvent) (candidate : Phragma.Policy) : Prop :=
  (ev.output = some .stage ∨ ev.output = some .stageSnapshot) ∧
    ev.after.shared.db ≠ ev.before.shared.db ∧ ev.after.shared.db.candidate = some candidate

/-- From its read of the candidate on, and while it holds the mutex, call `i` meets no snapshot
that is staged. -/
def NoSnapshotStaged (i : Nat) (run : List AccessEvent) : Prop :=
  ∀ before read rest, run = before ++ read :: rest → read.input = i →
    read.output = some .getCandidate → ∀ ev ∈ rest, ev.before.holder = some i →
      ev.output = some .stageSnapshot → ev.after.shared.db = ev.before.shared.db

section

variable {S : Server} {w : World} {calls : List ClientCall} {schedule : List Nat} {i : Nat}

/-- While call `i` holds the mutex and no snapshot is staged, the others leave the world
alone. -/
theorem unchanged_of_holder {ev : AccessEvent} (hev : ev ∈ (S.serve w calls).run schedule)
    (hholder : ev.before.holder = some i) (hother : ev.input ≠ i)
    (hquiet : ev.output = some .stageSnapshot → ev.after.shared.db = ev.before.shared.db) :
    ev.after.shared = ev.before.shared := by
  have hdisciplined : ev.before.Disciplined OutsideMutex :=
    (history_invariant (I := Pool.Disciplined OutsideMutex) (C := fun _ => True)
      (fun j _ _ hq => hq.step j) (fun _ _ => trivial) (serve_disciplined S w calls) ev hev).1
  have hexec := (history_event hev).2
  cases hlabel : ev.output with
  | none =>
      have hsame := Pool.step_none (i := ev.input) (p := ev.before) (by rw [hexec]; exact hlabel)
      rw [hexec] at hsame
      exact hsame
  | some label =>
      obtain ⟨-, hF⟩ := hdisciplined.step_other hholder hother
      obtain ⟨hhold, hdb⟩ := hF label (by rw [hexec]; exact hlabel)
      rw [hexec] at hhold hdb
      by_cases hstage : label = .stageSnapshot
      · subst hstage
        have hdb := hquiet hlabel
        cases hafter : ev.after.shared
        cases hbefore : ev.before.shared
        simp_all
      · exact hdb hstage

end

/-- `ops` stages a policy, and approves it. -/
def reviewCalls : List Store.Call :=
  let identity : ActorIdentity := calmEnv.identity
  [⟨.setCandidateWithAuditIfRevision stagedPolicy [] (stagingEntry calmEnv "set-candidate" ""),
      fun _ => sampleTime, []⟩,
    ⟨.createChangeApproval (candidateBlobRevision editDigest stagedPolicy) identity
      (GoString.ofString "reviewed") true true, fun _ => sampleTime, []⟩]

/-- A node with an approved candidate. -/
def reviewedWorld : World :=
  ⟨final (exec editServer.H editServer.D) {} reviewCalls, sampleWorld.hold⟩

/-- Commit what was approved. -/
def reviewedCommit : CommitRequest where
  comment := "roll out"
  ackRisk := true
  ackRuntime := true
  reviewedCandidateRevision :=
    "sha256:8a4a3c78cc417db88e4113e7a8531f7384f9a07fe49dab418e0d7c84ee6e01c5"
  approvalId := "1"

/-- Stage a snapshot of the wider policy. -/
def snapshotRestore : RestoreRequest where
  snapshot := .ok ("snap-1", widerPolicy)
  stageCandidate := true
  expectedCandidateRevision := ""
  comment := "restore"

def commitCalls : List ClientCall :=
  [⟨calmEnv, .commit reviewedCommit⟩, ⟨calmEnv, .previewBackupSnapshotRestore snapshotRestore⟩]

/-- A thread that has returned from a successful `Commit`. -/
def isCommitOk : Option Handler → Bool
  | some (.ret (.commit ⟨.ok _, _⟩)) => true
  | _ => false

theorem eq_of_isCommitOk {t : Option Handler} (h : isCommitOk t = true) :
    ∃ id prev info actions, t = some (.ret (.commit ⟨.ok (id, prev, info), actions⟩)) := by
  unfold isCommitOk at h
  split at h
  · next r actions => exact ⟨r.1, r.2.1, r.2.2, actions, rfl⟩
  · cases h

/-- The commit, and then the restore. -/
def calmCommitSchedule : List Nat := [0, 0, 0, 0, 0, 0, 0, 0, 0, 1, 1, 1, 1]

/-- A thread that has returned from a restore that staged its snapshot. -/
def isRestored : Option Handler → Bool
  | some (.ret (.restore (.ok r))) => r.stagedCandidate
  | _ => false

/-- The step of a call after a schedule. -/
def stepAfter (p : Pool World Access Response) (schedule : List Nat) (i : Nat) : AccessEvent :=
  ⟨i, final Pool.step p schedule, (Pool.step i (final Pool.step p schedule)).1,
    (Pool.step i (final Pool.step p schedule)).2⟩

theorem run_append_cons (p : Pool World Access Response) (early late : List Nat) (i : Nat) :
    p.run (early ++ i :: late) =
      p.run early ++ stepAfter p early i :: (stepAfter p early i).after.run late :=
  history_append p early (i :: late)

/-- The pool when the commit has read its candidate. -/
def candidateRead : AccessEvent := stepAfter (editServer.serve reviewedWorld commitCalls) [0] 0

/-- What happens then: the commit reads the revision and plans, the snapshot is staged, and the
commit goes on. -/
def betweenSchedule : List Nat := [0, 0, 1, 1, 1, 1, 0, 0, 0, 0]

/-- The return of the commit. -/
def commitReturned : AccessEvent := stepAfter candidateRead.after betweenSchedule 0

end Phragma.Apiserver
