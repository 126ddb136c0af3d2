import Phragma.Apiserver.InStep
import Phragma.Policy.Tolerable

/-!
# Phragma.Apiserver.RiskGate

**What nobody has to acknowledge.** A commit, a rollback or a replicated apply of high risk is
refused unless the request acknowledges the risk. Here the risk is the one `policy.Impact` gives,
of the running policy and the one that is asked for (`withImpact`).

A call that moves the running policy without an acknowledgement makes a `Tolerable` change
(`Moved.tolerable`): the check is made against what is running, on the policy that is then
recorded. So a stretch of such calls, of any length and whatever fails in it, leaves the running
policy `Steady`. Nothing ties the calls together, though: two of them can do what one of them may
not (`removed_in_two_steps`).
-/

namespace Phragma.Apiserver

open Lib Go Policy Engines Renderers Store

/-- The server whose risk assessment is `policy.Impact`. -/
def Server.withImpact (S : Server) (orders : String → MapOrders) : Server :=
  { S with impactHigh := fun running target => (Impact orders running target).risk == .high }

@[simp] theorem withImpact_H {S : Server} {orders : String → MapOrders} :
    (S.withImpact orders).H = S.H := by
  unfold Server.withImpact
  rfl

@[simp] theorem withImpact_impactHigh {S : Server} {orders : String → MapOrders}
    (running target : Phragma.Policy) : (S.withImpact orders).impactHigh running target =
      ((Impact orders running target).risk == .high) := by
  unfold Server.withImpact
  rfl

/-! ### The checks

What a plan that goes through has checked: the risk is not high, or it was acknowledged. -/

variable {S : Server} {env : Env} {orders : String → MapOrders}

theorem stage_ok {α : Type} {name : String} {x : Except String α} {a : α}
    (h : stage name x = .ok a) : x = .ok a := by
  cases x with
  | error e => cases h
  | ok b =>
      cases h
      rfl

theorem validated_ok {p : Phragma.Policy} {u : Unit} (h : validated p = .ok u) :
    Validate p = [] := by
  unfold validated at h
  split at h
  · next hv => exact hv
  · cases h

theorem requireHighRiskAcknowledgement_ok {action : String} {high ackRisk : Bool} {u : Unit}
    (h : requireHighRiskAcknowledgement action high ackRisk = .ok u) (hack : ackRisk = false) :
    high = false := by
  unfold requireHighRiskAcknowledgement at h
  cases high with
  | false => rfl
  | true =>
      simp only [hack, Bool.not_true, Bool.or_self, Bool.false_eq_true, if_false] at h
      split at h <;> cases h

/-- **What the checks of `apply` found out about the risk.** -/
theorem plan_gate {p : Phragma.Policy} {action approvalID : String} {ackRisk ackRuntime : Bool}
    {db : DB} {plan : Plan}
    (h : S.plan env p action ackRisk ackRuntime approvalID db = .ok plan) :
    Validate p = [] ∧ ∃ running, GetRunning db = .ok (running, plan.prevVersion) ∧
      (ackRisk = false → S.impactHigh running p = false) := by
  unfold Server.plan at h
  obtain ⟨checked, hvalid, h⟩ := bind_ok.mp h
  obtain ⟨artifacts, -, h⟩ := bind_ok.mp h
  obtain ⟨-, -, h⟩ := bind_ok.mp h
  obtain ⟨running, hrun, h⟩ := bind_ok.mp h
  obtain ⟨acknowledged, hrisk, h⟩ := bind_ok.mp h
  obtain ⟨-, -, h⟩ := bind_ok.mp h
  obtain ⟨prevArtifacts, -, h⟩ := bind_ok.mp h
  obtain ⟨-, -, h⟩ := bind_ok.mp h
  cases h
  refine ⟨validated_ok (stage_ok hvalid), running.1, ?_,
    requireHighRiskAcknowledgement_ok (stage_ok hrisk)⟩
  have hrun := stage_ok hrun
  cases hg : GetRunning db with
  | error e =>
      rw [hg] at hrun
      cases hrun
  | ok r =>
      rw [hg] at hrun
      cases hrun
      rfl

/-- What renders is accepted, with its identities filled in. -/
theorem valid_of_render {p : Phragma.Policy} {artifacts : Artifacts String}
    (h : S.render p = .ok artifacts) : Validate (normalizeIdentities S.H p) = [] := by
  unfold Server.render RenderAll at h
  obtain ⟨ir, hcompile, -⟩ := bind_ok.mp h
  exact (Compiler.Compile_ok hcompile).1

/-! ### One call -/

/-- A policy that has been accepted and stored. -/
structure Sound (H : IdentityHash) (p : Phragma.Policy) : Prop where
  valid : Validate p = []
  normalized : normalizeIdentities H p = p

/-- What a call does to the running policy: nothing, or it moves it to a policy that the validator
accepts and whose risk was looked at. -/
inductive Moved (S : Server) (ackRisk : Bool) (db db' : DB) : Prop
  | unmoved (running : db'.running = db.running) (kept : VersionsKept db db')
  | moved {running p : Phragma.Policy} {version id : Nat} (valid : Validate p = [])
      (stored : Validate (normalizeIdentities S.H p) = [])
      (before : GetRunning db = .ok (running, version))
      (after : GetRunning db' = .ok (normalizeIdentities S.H p, id))
      (risk : ackRisk = false → S.impactHigh running p = false)

theorem moved_of_kept {ackRisk : Bool} {db db' : DB} (h : Kept db db') : Moved S ackRisk db db' :=
  .unmoved h.running h.versions

theorem apply_moved {w : World} (hw : VersionsWell w.db) {p : Phragma.Policy}
    {action comment approvalID : String} {ackRisk ackRuntime : Bool} {sourceVersion : Nat}
    {revision : GoString} :
    Moved S ackRisk w.db
        (S.apply env p action comment ackRisk ackRuntime sourceVersion approvalID revision w).2.db ∧
      VersionsWell
        (S.apply env p action comment ackRisk ackRuntime sourceVersion approvalID revision w).2.db := by
  refine ⟨?_, apply_invariant (I := VersionsWell) (fun heff _ hI => heff.versionsWell hI) hw⟩
  unfold Server.apply
  dsimp only
  cases hplan : S.plan env (NormalizeRuleIDs S.H p).1 action ackRisk ackRuntime approvalID w.db with
  | error failure => exact moved_of_kept (recordFailure_kept S env _ _ _ _ hw)
  | ok plan =>
      -- past the gate the policy is valid, and of no high risk unless that was acknowledged
      obtain ⟨hvalid, running, hrun, hrisk⟩ := plan_gate hplan
      dsimp only
      unfold transact
      rcases Tx.update_cases .bolt (env.faults .prepare) (S.prepareTx env
        (NormalizeRuleIDs S.H p).1 action comment plan.artifacts sourceVersion approvalID revision)
        w.db with ⟨e, he⟩ | ⟨id, db, he, hy⟩
      · rw [he]
        exact moved_of_kept (recordFailure_kept S env _ _ _ _ hw)
      · rw [he]
        obtain ⟨hkept, hversion, -⟩ := prepareTx_ok hw hy
        dsimp only
        unfold Server.switch
        split
        · -- an engine refused its config: the pointer stays
          exact moved_of_kept (hkept.trans (recordFailure_kept S env _ _ _ _ hkept.well))
        · unfold Server.activate transact
          dsimp only
          rcases Tx.update_cases .bolt (env.faults .activate) (ActivatePreparedVersion S.D
            (env.clock .activate) id env.identity (GoString.ofString action)
            (GoString.ofString comment)) db with ⟨e, he⟩ | ⟨u, db', he, hy⟩
          · rw [he]
            exact moved_of_kept (hkept.trans (recordFailure_kept S env _ _ _ _ hkept.well))
          · rw [he]
            -- only here the running pointer moves
            obtain ⟨hrunning, hversions, -, -⟩ := activateTx_ok (S := S) hkept.well hy
            refine @Moved.moved _ _ _ _ _ _ _ id hvalid (valid_of_render (plan_ok hplan).1) hrun ?_ hrisk
            simp only [GetRunning, hrunning, hversions, hversion]

theorem refused_moved {ackRisk : Bool} {w : World} {status : Status} (hw : VersionsWell w.db) :
    Moved S ackRisk w.db (refused status w).2.db ∧ VersionsWell (refused status w).2.db :=
  ⟨.unmoved rfl (.refl _), hw⟩

/-- Whether a call acknowledges the risk of what it applies. -/
def ServerCall.ackRisk : ServerCall → Bool
  | .commit _ req => req.ackRisk
  | .rollback _ req => req.ackRisk
  | .applyReplicatedPolicy _ r => r.ackRisk
  | .staging _ _ => false

section

variable {w : World} (hw : VersionsWell w.db)

include hw

theorem Commit_moved (req : CommitRequest) :
    Moved S req.ackRisk w.db (S.Commit env req w).2.db ∧ VersionsWell (S.Commit env req w).2.db := by
  unfold Server.Commit
  split
  · exact refused_moved hw
  · exact apply_moved hw

theorem Rollback_moved (req : RollbackRequest) :
    Moved S req.ackRisk w.db (S.Rollback env req w).2.db ∧
      VersionsWell (S.Rollback env req w).2.db := by
  unfold Server.Rollback
  split
  · exact refused_moved hw
  · exact apply_moved hw

theorem ApplyReplicatedPolicy_moved (r : ReplicatedPolicy) :
    Moved S r.ackRisk w.db (S.ApplyReplicatedPolicy env r w).2.db ∧
      VersionsWell (S.ApplyReplicatedPolicy env r w).2.db := by
  unfold Server.ApplyReplicatedPolicy
  split
  · exact refused_moved hw
  · exact apply_moved hw

/-- **One call** on the running policy. -/
theorem exec_moved (call : ServerCall) :
    Moved S call.ackRisk w.db (S.exec call w).2.db ∧ VersionsWell (S.exec call w).2.db := by
  cases call with
  | commit env req => exact Commit_moved hw req
  | rollback env req => exact Rollback_moved hw req
  | applyReplicatedPolicy env r => exact ApplyReplicatedPolicy_moved hw r
  | staging c h =>
      exact ⟨.unmoved (staging_running h) (exec_versionsKept c hw), exec_versionsWell c hw⟩

end

/-! ### Runs

Without acknowledgements every move is tolerable, and being steady is kept by all of them. -/

/-- The store is well-formed, and its running policy is sound. -/
structure SoundRunning (H : IdentityHash) (db : DB) : Prop where
  well : VersionsWell db
  running : ∃ p version, GetRunning db = .ok (p, version) ∧ Sound H p

theorem soundRunning_empty (H : IdentityHash) : SoundRunning H {} where
  well := versionsWell_empty
  running := ⟨{}, 0, rfl, by decide, rfl⟩

/-- The running policies of two stores are related. -/
def Between (R : Phragma.Policy → Phragma.Policy → Prop) (db db' : DB) : Prop :=
  ∃ p version q version', GetRunning db = .ok (p, version) ∧ GetRunning db' = .ok (q, version') ∧
    R p q

theorem Between.imp {R R' : Phragma.Policy → Phragma.Policy → Prop} {db db' : DB}
    (h : Between R db db') (himp : ∀ p q, R p q → R' p q) : Between R' db db' := by
  obtain ⟨p, version, q, version', hp, hq, hR⟩ := h
  exact ⟨p, version, q, version', hp, hq, himp p q hR⟩

theorem Between.trans {R : Phragma.Policy → Phragma.Policy → Prop} {a b c : DB}
    (htrans : ∀ p q r, R p q → R q r → R p r) (hab : Between R a b) (hbc : Between R b c) :
    Between R a c := by
  obtain ⟨p, version, q, version', hp, hq, hpq⟩ := hab
  obtain ⟨q', v, r, v', hq', hr, hqr⟩ := hbc
  rw [hq] at hq'
  cases hq'
  exact ⟨p, version, r, v', hp, hr, htrans p q r hpq hqr⟩

/-- Every call keeps the running policy sound, acknowledged or not. -/
theorem exec_sound {w : World} (h : SoundRunning S.H w.db) (call : ServerCall) :
    SoundRunning S.H (S.exec call w).2.db := by
  obtain ⟨hmoved, hwell⟩ := exec_moved h.well call
  refine ⟨hwell, ?_⟩
  cases hmoved with
  | unmoved hrun hkept =>
      obtain ⟨p, version, hp, hsound⟩ := h.running
      exact ⟨p, version, (getRunning_eq h.well hrun hkept).trans hp, hsound⟩
  | moved hvalid hstored hbefore hafter hrisk =>
      exact ⟨_, _, hafter, hstored, normalizeIdentities_idem _ _⟩

/-- **One call without an acknowledgement** leaves the running policy or makes a tolerable change
of it. -/
theorem Moved.tolerable {db db' : DB} (h : Moved (S.withImpact orders) false db db')
    (hs : SoundRunning S.H db) : Between (fun p q => q = p ∨ Tolerable p q) db db' := by
  obtain ⟨p, version, hp, hsound⟩ := hs.running
  cases h with
  | unmoved hrun hkept =>
      exact ⟨p, version, p, version, hp, (getRunning_eq hs.well hrun hkept).trans hp, .inl rfl⟩
  | @moved running q version' id hvalid hstored hbefore hafter hrisk =>
      rw [hp] at hbefore
      cases hbefore
      have htolerable : Tolerable p q := by
        have hlow := hrisk rfl
        simp only [withImpact_impactHigh, beq_eq_false_iff_ne] at hlow
        by_contra hno
        exact hlow ((risk_high_iff hsound.valid hvalid).mpr hno)
      -- the policy that was looked at is the one that is stored
      have hnormal := normalizeIdentities_of_tolerable S.H hsound.normalized hvalid htolerable
      rw [withImpact_H, hnormal] at hafter
      exact ⟨p, version, q, id, hp, hafter, .inr htolerable⟩

theorem between_steady {db db' : DB} (h : Between (fun p q => q = p ∨ Tolerable p q) db db') :
    Between Steady db db' := by
  refine h.imp fun p q hpq => ?_
  rcases hpq with rfl | hpq
  · exact .refl _
  · exact hpq.steady

/-- **Runs without an acknowledgement.** Take any run of commits, rollbacks, replicated applies and
staging, with failures wherever they happen, and a stretch of it in which no call acknowledges a
risk. Each call of the stretch leaves the running policy or makes a tolerable change of it, and
however many there are, the running policy at the end is a steady successor of the one at the
beginning. -/
theorem unacknowledged_run {w : World} (h : SoundRunning S.H w.db) (before : List ServerCall)
    {stretch : List ServerCall} (hstretch : ∀ call ∈ stretch, call.ackRisk = false) :
    (∀ ev ∈ serverHistory (S.withImpact orders)
        (final (S.withImpact orders).exec w before) stretch,
      Between (fun p q => q = p ∨ Tolerable p q) ev.before.db ev.after.db) ∧
    Between Steady (final (S.withImpact orders).exec w before).db
      (final (S.withImpact orders).exec w (before ++ stretch)).db := by
  generalize hT : S.withImpact orders = T
  have hH : T.H = S.H := by rw [← hT, withImpact_H]
  have hsound : ∀ (call : ServerCall) (w : World), SoundRunning S.H w.db →
      SoundRunning S.H (T.exec call w).2.db := by
    intro call w hw
    rw [← hH] at hw ⊢
    exact exec_sound hw call
  have hstart : SoundRunning S.H (final T.exec w before).db :=
    final_invariant (I := fun w => SoundRunning S.H w.db) (C := fun _ => True)
      (fun call w _ hw => hsound call w hw) (fun _ _ => trivial) h
  -- one call: the running policy stays or is replaced by a tolerable one
  have hone : ∀ (call : ServerCall) (w : World), call.ackRisk = false →
      SoundRunning S.H w.db →
      Between (fun p q => q = p ∨ Tolerable p q) w.db (T.exec call w).2.db := by
    intro call w hack hw
    have hmoved := (@exec_moved T w hw.well call).1
    rw [hack, ← hT] at hmoved
    rw [← hT]
    exact hmoved.tolerable hw
  refine ⟨fun ev hev => ?_, ?_⟩
  · have hbefore := (history_invariant (I := fun w => SoundRunning S.H w.db) (C := fun _ => True)
      (fun call w _ hw => hsound call w hw) (fun _ _ => trivial) hstart ev hev).1
    obtain ⟨hmem, hexec⟩ := history_event hev
    have hcall := hone ev.input ev.before (hstretch _ hmem) hbefore
    rw [hexec] at hcall
    exact hcall
  · -- the whole stretch: what a chain of tolerable steps keeps
    rw [final_append]
    have hrun := @final_invariant _ _ _ T.exec
      (fun w' => SoundRunning S.H w'.db ∧ Between Steady (final T.exec w before).db w'.db)
      (fun call => call.ackRisk = false)
      (fun call w' hack hw => ⟨hsound call w' hw.1,
        hw.2.trans (fun _ _ _ => Steady.trans) (between_steady (hone call w' hack hw.1))⟩)
      _ _ hstretch ⟨hstart, ?_⟩
    · exact hrun.2
    · obtain ⟨p, version, hp, -⟩ := hstart.running
      exact ⟨p, version, p, version, hp, hp, .refl _⟩

/-- A rollback that acknowledges nothing. -/
def quietRollback : ServerCall :=
  .rollback calmEnv { version := 1, comment := "back", ackRisk := false, ackRuntime := false }

/-- A node that pulls its peer's policy and is then rolled back without an acknowledgement. -/
theorem unacknowledged_run_pull :
    Between Steady
      (final (sampleServer.withImpact fun _ => .asEntered).exec sampleWorld pullCalls).db
      (final (sampleServer.withImpact fun _ => .asEntered).exec sampleWorld
        (pullCalls ++ [quietRollback])).db := by
  refine (unacknowledged_run (S := sampleServer) (w := sampleWorld) (soundRunning_empty _)
    pullCalls fun call hcall => ?_).2
  rw [List.mem_singleton.mp hcall]
  rfl

end Phragma.Apiserver
