import Phragma.Apiserver.HighAvailability

/-!
# Phragma.Apiserver.SplitBrain

**Does a promoted node keep its own policy?** Runs of one node: activations, pulls by hand and
by the replication loop, with whatever heartbeats and policies the peer sends, between local
commits, rollbacks and candidate edits.

The activation leaves a durable marker, but the pull only looks at the configured role, which
is still passive. So a promoted node keeps its policy exactly as long as no pull meets a peer
that offers a newer one (`Offers`): `promoted_keeps_policy`.
-/

namespace Phragma.Apiserver

open Lib Go Policy Engines Renderers Store

/-! ### Runs of a node

Every step is a call of the server, so the runs of the node are runs of its store with pulls in
between. -/

/-- The steps of a node. -/
inductive NodeStep
  | activate (env : ActivateEnv) (req : ActivateRequest)
  | pull (env : PullEnv) (req : PullRequest)
  | replicate (env : PullEnv)
  | commit (env : Env) (req : CommitRequest)
  | rollback (env : Env) (req : RollbackRequest)
  | edit (c : Store.Call) (h : isCandidateOp c.op = true)

/-- What a step returns. -/
inductive NodeReply
  | activated (result : Except Status Unit)
  | pulled (o : PullOutcome)
  | applied (o : Outcome)
  | edited

/-- One step of a node. -/
def Server.nodeStep (S : Server) (cfg : HaConfig) : NodeStep → World → NodeReply × World
  | .activate env req, w => (S.ActivateHighAvailabilityFailover cfg env req w).map .activated id
  | .pull env req, w => (S.PullHighAvailabilityPolicy cfg env req w).map .pulled id
  | .replicate env, w => (S.RunHighAvailabilityReplicationOnce cfg env w).map .pulled id
  | .commit env req, w => (S.Commit env req w).map .applied id
  | .rollback env req, w => (S.Rollback env req w).map .applied id
  | .edit c _, w => (.edited, { w with db := (Store.exec S.H S.D c w.db).2 })

/-- A run of a node. -/
def nodeHistory (S : Server) (cfg : HaConfig) (w : World) (steps : List NodeStep) :
    List (Event NodeStep World NodeReply) :=
  history (S.nodeStep cfg) w steps

/-- Did the step call `ApplyReplicatedPolicy`? -/
def NodeReply.callsApply : NodeReply → Bool
  | .pulled o => o.applied.isSome
  | _ => false

/-- A local commit or rollback. -/
def NodeStep.isLocalApply : NodeStep → Bool
  | .commit _ _ => true
  | .rollback _ _ => true
  | _ => false

/-- A pull whose request is complete: by hand with a comment and an acknowledgement, or by the
replication loop where it is on. -/
def NodeStep.Pulls (cfg : HaConfig) (env : PullEnv) : NodeStep → Prop
  | .pull env' req => env' = env ∧ trimSpace req.comment ≠ "" ∧ req.ackPull = true
  | .replicate env' => env' = env ∧ cfg.autoReplicate = true
  | _ => False

/-- The pull meets a peer that offers a policy the node can take. -/
def Offered (cfg : HaConfig) (env : PullEnv) (db : DB) : Prop :=
  ∃ version e p, Takes cfg db version ∧ Offers cfg env db version e p

/-- The marker says active. -/
def Promoted (db : DB) : Prop :=
  ∃ state, db.haState = some state ∧ state.role = GoString.ofString "active"

section Steps

variable {S : Server} {cfg : HaConfig}

variable (S cfg) in
/-- A complete request is a pull; any other is refused. -/
theorem PullHighAvailabilityPolicy_cases (env : PullEnv) (req : PullRequest) (w : World) :
    ((NodeStep.pull env req).Pulls cfg env ∧ S.PullHighAvailabilityPolicy cfg env req w =
        S.pullHighAvailabilityPolicy cfg env (trimSpace req.comment) req.ackRisk req.ackRuntime w) ∨
      ((∀ env', ¬ (NodeStep.pull env req).Pulls cfg env') ∧
        ∃ status, S.PullHighAvailabilityPolicy cfg env req w = (⟨.error status, none⟩, w)) := by
  unfold Server.PullHighAvailabilityPolicy requiredAuditComment require precondition
  by_cases hcomment : trimSpace req.comment = ""
  · exact .inr ⟨fun env' h => h.2.1 hcomment, _, by rw [if_pos hcomment]⟩
  · rw [if_neg hcomment]
    cases hack : req.ackPull with
    | false => exact .inr ⟨fun env' h => (by cases hack.symm.trans h.2.2), _, rfl⟩
    | true => exact .inl ⟨⟨rfl, hcomment, hack⟩, rfl⟩

variable (S cfg) in
theorem RunHighAvailabilityReplicationOnce_cases (env : PullEnv) (w : World) :
    ((NodeStep.replicate env).Pulls cfg env ∧ S.RunHighAvailabilityReplicationOnce cfg env w =
        S.pullHighAvailabilityPolicy cfg env cfg.autoComment true true w) ∨
      ((∀ env', ¬ (NodeStep.replicate env).Pulls cfg env') ∧
        ∃ status, S.RunHighAvailabilityReplicationOnce cfg env w = (⟨.error status, none⟩, w)) := by
  unfold Server.RunHighAvailabilityReplicationOnce require precondition
  cases hauto : cfg.autoReplicate with
  | false => exact .inr ⟨fun env' h => (by cases hauto.symm.trans h.2), _, rfl⟩
  | true => exact .inl ⟨⟨rfl, hauto⟩, rfl⟩

/-- What a step does: a pull, a refused pull, or neither. -/
inductive StepShape (S : Server) (cfg : HaConfig) (step : NodeStep) (w : World) : Prop
  | pulls (env : PullEnv) (comment : String) (ackRisk ackRuntime : Bool)
      (complete : step.Pulls cfg env)
      (eq : S.nodeStep cfg step w =
        (.pulled (S.pullHighAvailabilityPolicy cfg env comment ackRisk ackRuntime w).1,
          (S.pullHighAvailabilityPolicy cfg env comment ackRisk ackRuntime w).2))
  | refused (status : Status) (incomplete : ∀ env, ¬ step.Pulls cfg env)
      (eq : S.nodeStep cfg step w = (.pulled ⟨.error status, none⟩, w))
  | other (noPull : ∀ env, ¬ step.Pulls cfg env)
      (noCall : (S.nodeStep cfg step w).1.callsApply = false)
      (frame : step.isLocalApply = false →
        (S.nodeStep cfg step w).2.db.running = w.db.running ∧
          (S.nodeStep cfg step w).2.db.versions = w.db.versions)
      (marker : Promoted w.db → Promoted (S.nodeStep cfg step w).2.db)

/-- A pull calls `ApplyReplicatedPolicy`, or does nothing. -/
theorem pull_cases (hmode : normalizeHighAvailabilityMode cfg.mode = .activePassive)
    (hrole : normalizeHighAvailabilityRole cfg.role = .passive) (env : PullEnv) (comment : String)
    (ackRisk ackRuntime : Bool) (w : World) :
    let r := S.pullHighAvailabilityPolicy cfg env comment ackRisk ackRuntime w
    (Offered cfg env w.db ∧ r.1.applied.isSome = true) ∨
      (¬ Offered cfg env w.db ∧ r.1.applied.isSome = false ∧ r.2 = w) := by
  dsimp only
  unfold Server.pullHighAvailabilityPolicy
  cases hchecks : pullChecks cfg env w.db with
  | error status =>
      refine .inr ⟨?_, rfl, rfl⟩
      rintro ⟨version, e, p, htakes, hoffers⟩
      have hok := (pullChecks_ok hmode hrole).mpr ⟨rfl, version, htakes, hoffers⟩
      cases hchecks.symm.trans hok
  | ok fetched =>
      obtain ⟨e, p, v⟩ := fetched
      obtain ⟨-, version, htakes, hoffers⟩ := (pullChecks_ok hmode hrole).mp hchecks
      exact .inl ⟨⟨version, e, p, htakes, hoffers⟩, rfl⟩

theorem storedText_ofString (s : String) : storedText (GoString.ofString s) = s := by
  unfold storedText GoString.ofString
  rw [List.map_map]
  have hid : (Rune.toChar ∘ Rune.char) = id := rfl
  rw [hid, List.map_id, String.ofList_toList]

theorem Promoted.role {db : DB} (h : Promoted db) (cfg : HaConfig) :
    effectiveHighAvailabilityRole cfg db = .active := by
  obtain ⟨state, hstate, hrole⟩ := h
  have hactive : normalizeHighAvailabilityRole "active" = .active := by decide +kernel
  unfold effectiveHighAvailabilityRole
  rw [hstate]
  dsimp only
  rw [hrole, storedText_ofString, hactive]

theorem activatedState_role (env : ActivateEnv) (comment peerId : String) (version lkg : Nat) :
    (activatedState env comment peerId version lkg).decoded.role = GoString.ofString "active" := by
  have hdecoded : ∀ state : HighAvailabilityState, state.decoded.role = jsonString state.role :=
    fun _ => rfl
  have hrole : (activatedState env comment peerId version lkg).role = GoString.ofString "active" :=
    rfl
  rw [hdecoded, hrole, jsonString_eq_self (GoString.valid_ofString "active")]

variable (S cfg) in
/-- What an activation does to the store: nothing, an audit entry, or that and the marker. -/
theorem Activate_cases (env : ActivateEnv) (req : ActivateRequest) (w : World) :
    let r := S.ActivateHighAvailabilityFailover cfg env req w
    r.2.db.running = w.db.running ∧ r.2.db.versions = w.db.versions ∧
      ((r.1 ≠ .ok () ∧ r.2.db.haState = w.db.haState) ∨ Promoted r.2.db) := by
  have haudit : ∀ {now : Time} {e : AuditEntry} {u : Unit} {db db' : DB},
      (appendAuditTx S.D now e).Yields db u db' →
        db'.running = db.running ∧ db'.versions = db.versions ∧ db'.haState = db.haState := by
    intro now e u db db' hy
    obtain ⟨hash, -, rfl⟩ := appendAuditTx_ok S.D hy
    exact ⟨rfl, rfl, rfl⟩
  dsimp only
  unfold Server.ActivateHighAvailabilityFailover
  cases activateChecks cfg env req w.db with
  | error status => exact ⟨rfl, rfl, .inl ⟨by simp, rfl⟩⟩
  | ok checked =>
      obtain ⟨comment, version, lkg⟩ := checked
      dsimp only
      -- the intent is audited first, and writes nothing else
      rcases Tx.update_cases .bolt env.intentFaults (appendAuditTx S.D (env.clock 1)
        (activateEntry env "ha-failover-activate-intent" comment version)) w.db with
        ⟨e, he⟩ | ⟨u, db, he, hy⟩
      · rw [he]
        exact ⟨rfl, rfl, .inl ⟨by simp, rfl⟩⟩
      · rw [he]
        obtain ⟨hrunning, hversions, hstate⟩ := haudit hy
        dsimp only
        unfold Server.persistActivation
        generalize (highAvailabilityStatus cfg env.status w.db).peerId = peerId
        cases activateEvidence cfg env peerId with
        | error status => exact ⟨hrunning, hversions, .inl ⟨by simp, hstate⟩⟩
        | ok u =>
            dsimp only
            -- the marker and its audit entry are one transaction
            rcases Tx.update_cases .bolt env.markerFaults (SetHighAvailabilityStateWithAudit S.D
              (env.clock 2) (activatedState env comment peerId version lkg)
              (activateEntry env "ha-failover-activate" comment version)) db with
              ⟨e, he⟩ | ⟨u, db', he, hy⟩
            · rw [he]
              exact ⟨hrunning, hversions, .inl ⟨by simp, hstate⟩⟩
            · rw [he]
              obtain ⟨hrunning', hversions', hstate'⟩ := haudit (Tx.yields_modify_bind hy)
              exact ⟨hrunning'.trans hrunning, hversions'.trans hversions,
                .inr ⟨_, hstate', activatedState_role env comment peerId version lkg⟩⟩

/-- The commit path keeps the marker. -/
theorem promoted_of_effect {clock : Nat → Time} {db db' : DB} {op : Op} {r : Reply}
    (heff : Effect S.H S.D clock db op r db') (hop : isApplyOp op = true) (h : Promoted db) :
    Promoted db' := by
  cases heff with
  | prepare => exact h
  | activate => exact h
  | markVersionState => exact h
  | appendAudit => exact h
  | _ => cases hop

/-- A pull either does nothing or runs the commit path. -/
theorem pull_promoted (env : PullEnv) (comment : String) (ackRisk ackRuntime : Bool) {w : World}
    (h : Promoted w.db) :
    Promoted (S.pullHighAvailabilityPolicy cfg env comment ackRisk ackRuntime w).2.db := by
  unfold Server.pullHighAvailabilityPolicy
  cases pullChecks cfg env w.db with
  | error status => exact h
  | ok fetched =>
      obtain ⟨e, p, v⟩ := fetched
      exact ApplyReplicatedPolicy_invariant promoted_of_effect _ h

variable (S cfg) in
theorem nodeStep_shape (step : NodeStep) (w : World) : StepShape S cfg step w := by
  cases step with
  | activate env req =>
      -- an activation never touches the policy
      obtain ⟨hrunning, hversions, hmarker⟩ := Activate_cases S cfg env req w
      refine .other (fun _ h => h) rfl (fun _ => ⟨hrunning, hversions⟩) fun h => ?_
      rcases hmarker with ⟨-, hstate⟩ | hpromoted
      · obtain ⟨state, hsome, hrole⟩ := h
        exact ⟨state, hstate.trans hsome, hrole⟩
      · exact hpromoted
  | pull env req =>
      -- a pull is refused by its checks, or pulls
      rcases PullHighAvailabilityPolicy_cases S cfg env req w with
        ⟨hcomplete, heq⟩ | ⟨hincomplete, status, heq⟩
      · exact .pulls env _ _ _ hcomplete
          (congrArg (fun r : PullOutcome × World => (NodeReply.pulled r.1, r.2)) heq)
      · exact .refused status hincomplete
          (congrArg (fun r : PullOutcome × World => (NodeReply.pulled r.1, r.2)) heq)
  | replicate env =>
      rcases RunHighAvailabilityReplicationOnce_cases S cfg env w with
        ⟨hcomplete, heq⟩ | ⟨hincomplete, status, heq⟩
      · exact .pulls env _ _ _ hcomplete
          (congrArg (fun r : PullOutcome × World => (NodeReply.pulled r.1, r.2)) heq)
      · exact .refused status hincomplete
          (congrArg (fun r : PullOutcome × World => (NodeReply.pulled r.1, r.2)) heq)
  | commit env req =>
      -- nothing that a local call does takes the marker back
      have hmarker : Promoted w.db → Promoted (S.Commit env req w).2.db :=
        Commit_invariant promoted_of_effect req
      exact .other (fun _ h => h) rfl (fun h => by cases h) hmarker
  | rollback env req =>
      have hmarker : Promoted w.db → Promoted (S.Rollback env req w).2.db :=
        Rollback_invariant promoted_of_effect req
      exact .other (fun _ h => h) rfl (fun h => by cases h) hmarker
  | edit c hop =>
      obtain ⟨hrunning, hversions, -, hstate⟩ := edit_frame S.H S.D hop w.db
      refine .other (fun _ h => h) rfl (fun _ => ⟨hrunning, hversions⟩) fun h => ?_
      obtain ⟨state, hsome, hrole⟩ := h
      exact ⟨state, hstate.trans hsome, hrole⟩

/-- **A promoted node stays promoted.** -/
theorem nodeStep_promoted (step : NodeStep) {w : World} (h : Promoted w.db) :
    Promoted (S.nodeStep cfg step w).2.db := by
  cases nodeStep_shape S cfg step w with
  | pulls env comment ackRisk ackRuntime _ heq =>
      rw [heq]
      dsimp only
      exact pull_promoted env comment ackRisk ackRuntime h
  | refused status _ heq =>
      rw [heq]
      exact h
  | other _ _ _ hmarker => exact hmarker h

/-- **A step calls `ApplyReplicatedPolicy` exactly when it is a pull that meets an offer**, and
what does not call it leaves the running policy to local commits and rollbacks. -/
theorem nodeStep_cases (hmode : normalizeHighAvailabilityMode cfg.mode = .activePassive)
    (hrole : normalizeHighAvailabilityRole cfg.role = .passive) (step : NodeStep) (w : World) :
    ((S.nodeStep cfg step w).1.callsApply = true ↔
        ∃ env, step.Pulls cfg env ∧ Offered cfg env w.db) ∧
      ((S.nodeStep cfg step w).1.callsApply = false → step.isLocalApply = false →
        GetRunning (S.nodeStep cfg step w).2.db = GetRunning w.db) := by
  cases nodeStep_shape S cfg step w with
  | pulls env comment ackRisk ackRuntime hcomplete heq =>
      have hunique : ∀ env', step.Pulls cfg env' → env' = env := by
        intro env' h
        cases step with
        | pull env'' req => exact h.1.symm.trans hcomplete.1
        | replicate env'' => exact h.1.symm.trans hcomplete.1
        | _ => exact h.elim
      rw [heq]
      rcases pull_cases (S := S) hmode hrole env comment ackRisk ackRuntime w with
        ⟨hoffered, hcall⟩ | ⟨hoffered, hcall, hsame⟩
      · refine ⟨iff_of_true hcall ⟨env, hcomplete, hoffered⟩, fun h => ?_⟩
        cases hcall.symm.trans h
      · refine ⟨iff_of_false (fun h => by cases hcall.symm.trans h) ?_, fun _ _ => by rw [hsame]⟩
        rintro ⟨env', hpulls, h⟩
        rw [hunique env' hpulls] at h
        exact hoffered h
  | refused status hincomplete heq =>
      rw [heq]
      refine ⟨iff_of_false (fun h => by cases h) ?_, fun _ _ => rfl⟩
      rintro ⟨env, hpulls, -⟩
      exact hincomplete env hpulls
  | other hnone hcall hframe _ =>
      refine ⟨iff_of_false (fun h => by cases hcall.symm.trans h) ?_, fun _ hlocal => ?_⟩
      · rintro ⟨env, hpulls, -⟩
        exact hnone env hpulls
      · exact getRunning_congr (hframe hlocal).1 (hframe hlocal).2

end Steps

/-! ### Promoted nodes

From the activation on only a pull can bring in a policy that is not the node's own. The induction
keeps that the node is promoted and configured as a passive one. -/

/-- The step leaves the running policy to local commits and rollbacks. -/
def KeepsPolicy (ev : Event NodeStep World NodeReply) : Prop :=
  ev.output.callsApply = false ∧
    (ev.input.isLocalApply = false → GetRunning ev.after.db = GetRunning ev.before.db)

/-- **After an activation the node's durable role is active, and it keeps its policy exactly as
long as no pull meets a peer that offers a newer one.** -/
theorem promoted_keeps_policy_iff {S : Server} {cfg : HaConfig}
    (hmode : normalizeHighAvailabilityMode cfg.mode = .activePassive)
    (hrole : normalizeHighAvailabilityRole cfg.role = .passive) {w : World}
    {steps : List NodeStep} {pre post : List (Event NodeStep World NodeReply)}
    {act : Event NodeStep World NodeReply}
    (hrun : nodeHistory S cfg w steps = pre ++ act :: post)
    (hact : act.output = .activated (.ok ())) :
    (∀ ev ∈ post, effectiveHighAvailabilityRole cfg ev.before.db = .active) ∧
      ((∀ ev ∈ post, KeepsPolicy ev) ↔
        ∀ ev ∈ post, ∀ env, ev.input.Pulls cfg env → ¬ Offered cfg env ev.before.db) := by
  have hmem : act ∈ nodeHistory S cfg w steps := by
    rw [hrun]
    simp
  have hpost : ∀ ev ∈ post, ev ∈ nodeHistory S cfg w steps := by
    intro ev hev
    rw [hrun]
    simp [hev]
  -- the activation leaves the marker
  have hpromoted : Promoted act.after.db := by
    obtain ⟨-, hexec⟩ := history_event hmem
    cases hinput : act.input with
    | activate env req =>
        rw [hinput] at hexec
        obtain ⟨-, -, ⟨hfailed, -⟩ | h⟩ := Activate_cases S cfg env req act.before
        · have hresult := congrArg Prod.fst hexec
          rw [hact] at hresult
          exact (hfailed (NodeReply.activated.inj hresult)).elim
        · have hafter : (S.ActivateHighAvailabilityFailover cfg env req act.before).2 = act.after :=
            congrArg Prod.snd hexec
          rwa [hafter] at h
    | _ =>
        rw [hinput, hact] at hexec
        cases congrArg Prod.fst hexec
  have hlater := history_since (I := fun w => Promoted w.db) (C := fun _ => True) hrun hpromoted
    (fun step _ _ h => nodeStep_promoted step h) fun _ _ => trivial
  refine ⟨fun ev hev => (hlater ev hev).role cfg, ?_⟩
  constructor
  · intro hkeeps ev hev env hpulls hoffered
    obtain ⟨-, hexec⟩ := history_event (hpost ev hev)
    have hcalls := (nodeStep_cases (S := S) hmode hrole ev.input ev.before).1.mpr
      ⟨env, hpulls, hoffered⟩
    rw [hexec] at hcalls
    cases hcalls.symm.trans (hkeeps ev hev).1
  · intro hoffers ev hev
    obtain ⟨-, hexec⟩ := history_event (hpost ev hev)
    obtain ⟨hcalls, hsame⟩ := nodeStep_cases (S := S) hmode hrole ev.input ev.before
    rw [hexec] at hcalls hsame
    have hnone : ev.output.callsApply = false := by
      rw [← Bool.not_eq_true]
      intro h
      obtain ⟨env, hpulls, hoffered⟩ := hcalls.mp h
      exact hoffers ev hev env hpulls hoffered
    exact ⟨hnone, hsame hnone⟩

/-! ### A peer that comes back -/

/-- The node has committed one version of its own. -/
def standbyWorld : World where
  db := (Store.exec .zero sampleDigest
    ⟨.commitVersionWithIdentity {} {} [], fun _ => sampleTime, []⟩ {}).2
  hold _ := none

/-- The peer is at a version. -/
def peerAt (version : Nat) : PullEnv where
  env := calmEnv
  status := peerHeartbeat version
  heartbeat := peerHeartbeat version
  peerPolicy := .ok ⟨some peerPolicy.policy, version⟩

/-- The activation of the node, while both are at version 1. -/
def takeover : NodeStep :=
  .activate
    { identity := {}, stepUp := none, status := peerHeartbeat 1, fencing := .ok none
      promotion := none, clock := fun _ => sampleTime, intentFaults := [], markerFaults := [] }
    ⟨"failover", true, true, true⟩

def NodeReply.isActivated : NodeReply → Bool
  | .activated (.ok ()) => true
  | _ => false

theorem NodeReply.eq_of_isActivated {r : NodeReply} (h : r.isActivated = true) :
    r = .activated (.ok ()) := by
  unfold NodeReply.isActivated at h
  split at h
  · rfl
  · cases h

/-- Whether a pull meets an offer can be computed. -/
theorem offered_iff {cfg : HaConfig} {env : PullEnv} {db : DB}
    (hmode : normalizeHighAvailabilityMode cfg.mode = .activePassive)
    (hrole : normalizeHighAvailabilityRole cfg.role = .passive) :
    Offered cfg env db ↔ (pullChecks cfg env db).toOption.isSome = true := by
  rw [Option.isSome_iff_exists]
  constructor
  · rintro ⟨version, e, p, htakes, hoffers⟩
    exact ⟨_, toOption_eq_some.mpr
      ((pullChecks_ok hmode hrole).mpr ⟨rfl, version, htakes, hoffers⟩)⟩
  · rintro ⟨⟨e, p, v⟩, h⟩
    obtain ⟨-, version, htakes, hoffers⟩ :=
      (pullChecks_ok hmode hrole).mp (toOption_eq_some.mp h)
    exact ⟨version, e, p, htakes, hoffers⟩

/-- The node after its activation. -/
def promotedWorld : World := (sampleServer.nodeStep standbyConfig takeover standbyWorld).2

/-- The activation succeeds; after it the peer offers nothing at version 1, and its policy at
version 2. -/
theorem takeover_facts :
    (sampleServer.nodeStep standbyConfig takeover standbyWorld).1.isActivated = true ∧
      (pullChecks standbyConfig (peerAt 1) promotedWorld.db).toOption.isSome = false ∧
      (pullChecks standbyConfig (peerAt 2) promotedWorld.db).toOption.isSome = true := by
  decide +kernel

/-- The activation, as a step of the run. -/
def takeoverEvent : Event NodeStep World NodeReply :=
  ⟨takeover, standbyWorld, (sampleServer.nodeStep standbyConfig takeover standbyWorld).1,
    promotedWorld⟩

/-- The step of the replication loop that follows, with the peer at a version. -/
def replicationEvent (version : Nat) : Event NodeStep World NodeReply :=
  ⟨.replicate (peerAt version), promotedWorld,
    (sampleServer.nodeStep standbyConfig (.replicate (peerAt version)) promotedWorld).1,
    (sampleServer.nodeStep standbyConfig (.replicate (peerAt version)) promotedWorld).2⟩

theorem takeoverEvent_succeeds : takeoverEvent.output = .activated (.ok ()) := by
  unfold takeoverEvent
  dsimp only
  exact NodeReply.eq_of_isActivated takeover_facts.1

theorem replicationEvent_calls {version : Nat}
    (h : (pullChecks standbyConfig (peerAt version) promotedWorld.db).toOption.isSome = true) :
    (replicationEvent version).output.callsApply = true := by
  have hoffered := (offered_iff standby_mode standby_role).mpr h
  have hcalls := (nodeStep_cases (S := sampleServer) standby_mode standby_role
    (.replicate (peerAt version)) promotedWorld).1.mpr ⟨_, ⟨rfl, rfl⟩, hoffered⟩
  unfold replicationEvent
  dsimp only
  exact hcalls

theorem takeover_run (version : Nat) :
    nodeHistory sampleServer standbyConfig standbyWorld [takeover, .replicate (peerAt version)] =
      [] ++ takeoverEvent :: [replicationEvent version] := history_pair _ _ _

theorem promoted_keeps_policy_quiet : takeoverEvent.output = .activated (.ok ()) ∧
    effectiveHighAvailabilityRole standbyConfig (replicationEvent 1).before.db = .active ∧
    KeepsPolicy (replicationEvent 1) := by
  obtain ⟨hactive, hkeeps⟩ := promoted_keeps_policy_iff standby_mode standby_role (takeover_run 1)
    takeoverEvent_succeeds
  refine ⟨takeoverEvent_succeeds, hactive _ (List.mem_singleton_self _), ?_⟩
  refine hkeeps.mpr (fun ev hev env hpulls => ?_) _ (List.mem_singleton_self _)
  rw [List.mem_singleton.mp hev] at hpulls ⊢
  obtain ⟨rfl, -⟩ := hpulls
  have hbefore : (replicationEvent 1).before = promotedWorld := by simp only [replicationEvent]
  rw [hbefore, offered_iff standby_mode standby_role, takeover_facts.2.1]
  exact Bool.false_ne_true

/-- **The node that took over replicates the peer it took over from.** -/
theorem promoted_overwritten : ¬ ∀ (S : Server) (cfg : HaConfig) (w : World)
    (steps : List NodeStep) (pre post : List (Event NodeStep World NodeReply))
    (act : Event NodeStep World NodeReply),
    normalizeHighAvailabilityMode cfg.mode = .activePassive →
      normalizeHighAvailabilityRole cfg.role = .passive →
      nodeHistory S cfg w steps = pre ++ act :: post → act.output = .activated (.ok ()) →
      ∀ ev ∈ post, KeepsPolicy ev := by
  intro hall
  have hkeeps := hall sampleServer standbyConfig standbyWorld _ _ _ _ standby_mode standby_role
    (takeover_run 2) takeoverEvent_succeeds (replicationEvent 2) (List.mem_singleton_self _)
  have hcalls : (replicationEvent 2).output.callsApply = true :=
    replicationEvent_calls takeover_facts.2.2
  rw [hkeeps.1] at hcalls
  cases hcalls

end Phragma.Apiserver
