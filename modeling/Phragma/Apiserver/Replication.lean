import Phragma.Apiserver.HighAvailability

/-!
# Phragma.Apiserver.Replication

**Does a passive node follow its peer?** Runs of a pair: the peer commits, the node pulls, and
local applies fail after they took a version number.

Both nodes number their versions on their own. Where a policy came from is recorded with it
(`replicatedSource`), but the pull compares the peer's number with the local one. It follows
the peer as long as the two comparisons agree (`CountersAgree`): `replication_follows_peer`.
-/

namespace Phragma.Apiserver

open Lib Go Policy Engines Renderers Store

/-! ### Failed applies

A failed apply takes a version number and leaves the rest. So local numbers run ahead of the
peer's. -/

/-- What a failed apply leaves alone: the pointers, and where the recorded versions came from. -/
structure Undisturbed (db db' : DB) : Prop where
  running : db'.running = db.running
  well : VersionsWell db'
  infos : ∀ k p, db.versions.get k = some p → db'.versionInfo.get k = db.versionInfo.get k

section

variable {S : Server} {env : Env}

/-- Recording a failure touches the metadata of the failed version only; zero is none. -/
theorem recordFailure_infos (action stage : String) {version : Nat} (err : String) (db : DB)
    {k : Nat} (hk : version = 0 ∨ k ≠ version) :
    (S.recordFailure env action stage version err db).versionInfo.get k =
      db.versionInfo.get k := by
  have hmark : (markFailed env stage version err db).versionInfo.get k = db.versionInfo.get k := by
    unfold markFailed
    rcases hk with rfl | hk
    · rfl
    · cases failedState stage version with
      | none => rfl
      | some state =>
          dsimp only
          unfold transact
          rcases Tx.update_cases .bolt (env.faults .mark) (MarkVersionState version
            (GoString.ofString state) (GoString.ofString err)) db with ⟨e, he⟩ | ⟨u, db', he, hy⟩
          · rw [he]
          · rw [he]
            have heff : Effect S.H S.D (env.clock .mark) db _ _ _ := MarkVersionState_ok hy
            cases heff with
            | markVersionState metadata => exact Bucket.get_put_of_ne hk _ _
  unfold Server.recordFailure transact
  rcases Tx.update_cases .bolt (env.faults .failureAudit) (appendAuditTx S.D
    (env.clock .failureAudit 0) (failureEntry env action stage version err))
    (markFailed env stage version err db) with ⟨e, he⟩ | ⟨u, db', he, hy⟩
  · rw [he]
    exact hmark
  · rw [he]
    obtain ⟨hash, -, rfl⟩ := appendAuditTx_ok S.D hy
    exact hmark

/-- A refusal before a version was prepared. -/
theorem undisturbed_refused {db : DB} (hw : VersionsWell db) (action stage err : String) :
    Undisturbed db (S.recordFailure env action stage 0 err db) where
  running := (recordFailure_kept S env action stage 0 err hw).running
  well := (recordFailure_kept S env action stage 0 err hw).well
  infos _ _ _ := recordFailure_infos action stage err db (.inl rfl)

/-- A failure of a version that was prepared. -/
theorem undisturbed_failed {db db₁ : DB} (hkept : Kept db db₁) {version : Nat}
    (hversion : db.versions.get version = none)
    (hinfos : ∀ k ≠ version, db₁.versionInfo.get k = db.versionInfo.get k)
    (action stage err : String) :
    Undisturbed db (S.recordFailure env action stage version err db₁) where
  running := (recordFailure_kept S env action stage version err hkept.well).running.trans
    hkept.running
  well := (recordFailure_kept S env action stage version err hkept.well).well
  infos k p hk := by
    have hne : k ≠ version := by
      rintro rfl
      cases hversion.symm.trans hk
    rw [recordFailure_infos action stage err db₁ (.inr hne), hinfos k hne]

/-- **What a failed `apply` leaves.** -/
theorem apply_failed {status : Status} {actions : List Action} {w w' : World} {p : Phragma.Policy}
    {action comment approvalID : String} {ackRisk ackRuntime : Bool} {sourceVersion : Nat}
    {revision : GoString} (hw : VersionsWell w.db)
    (h : S.apply env p action comment ackRisk ackRuntime sourceVersion approvalID revision w =
      (⟨.error status, actions⟩, w')) : Undisturbed w.db w'.db := by
  unfold Server.apply at h
  dsimp only at h
  cases hplan : S.plan env (NormalizeRuleIDs S.H p).1 action ackRisk ackRuntime approvalID
    w.db with
  | error failure =>
      rw [hplan] at h
      cases h
      exact undisturbed_refused hw _ _ _
  | ok plan =>
      rw [hplan] at h
      dsimp only at h
      unfold transact at h
      -- the version is prepared, or the transaction fails and writes nothing
      rcases Tx.update_cases .bolt (env.faults .prepare) (S.prepareTx env
        (NormalizeRuleIDs S.H p).1 action comment plan.artifacts sourceVersion approvalID revision)
        w.db with ⟨e, he⟩ | ⟨version, db, he, hy⟩
      · rw [he] at h
        cases h
        exact undisturbed_refused hw _ _ _
      · rw [he] at h
        obtain ⟨hkept, -, -⟩ := prepareTx_ok hw hy
        obtain ⟨rfl, -, hinfos⟩ := prepareTx_as hy
        have hnew := hw.fresh.get_next
        dsimp only at h
        unfold Server.switch at h
        -- the engines may refuse the artifacts
        cases happly : S.sup.Apply env.outcomes plan.artifacts plan.prevArtifacts with
        | mk result calls =>
          rw [happly] at h
          cases result with
          | some err =>
              cases h
              exact undisturbed_failed hkept hnew hinfos _ _ _
          | none =>
              dsimp only at h
              unfold Server.activate transact at h
              -- or the pointer cannot be moved to the new version
              rcases Tx.update_cases .bolt (env.faults .activate) (ActivatePreparedVersion S.D
                (env.clock .activate) (w.db.versions.seq + 1) env.identity
                (GoString.ofString action) (GoString.ofString comment)) db with
                ⟨e, he⟩ | ⟨u, db', he, hy⟩
              · rw [he] at h
                cases h
                exact undisturbed_failed hkept hnew hinfos _ _ _
              · rw [he] at h
                obtain ⟨-, -, -, info, hinfo⟩ := activateTx_ok (S := S) hkept.well hy
                simp only [activatedResult, hinfo] at h
                cases h

end

/-! ### Where the running policy came from

The recorded source of the running policy, through everything that leaves it running. -/

/-- The peer's version of the last-known-good policy, when it was pulled; what
`highAvailabilityStatus` compares. -/
def replicatedSource (db : DB) : Option Nat :=
  match db.lastKnown.bind db.versionInfo.get with
  | none => none
  | some lkg =>
      if lkg.action = GoString.ofString "ha-policy-pull" && 0 < lkg.sourceVersion then
        some lkg.sourceVersion
      else none

theorem replicatedSource_of_undisturbed {db db' : DB} (hw : VersionsWell db)
    (h : Undisturbed db db') : replicatedSource db' = replicatedSource db := by
  have hlast : db'.lastKnown = db.lastKnown := by
    rw [← h.well.pointers.agree, ← hw.pointers.agree, h.running]
  unfold replicatedSource
  rw [hlast]
  cases hk : db.lastKnown with
  | none => rfl
  | some k =>
      obtain ⟨⟨p, hp⟩, -⟩ := hw.pointers.recorded k (hw.pointers.agree.trans hk)
      rw [Option.bind_some, Option.bind_some, h.infos k p hp]

theorem replicatedSource_of_runsAs {S : Server} {db : DB} {id : Nat} {p : Phragma.Policy}
    {n : Nat} (h : RunsAs S db id p "ha-policy-pull" n) (hn : 0 < n) :
    replicatedSource db = some n := by
  obtain ⟨info, hinfo, haction, hsource⟩ := h.info
  unfold replicatedSource
  rw [h.lastKnown, Option.bind_some, hinfo]
  simp [haction, hsource, hn]

/-! ### A pair of nodes

The peer is a counter and a policy; what the node sees of it passes through the link. -/

/-- The active peer, as far as the node can see it. -/
structure Peer where
  version : Nat
  policy : Phragma.Policy

/-- The peer commits a policy; its number rises, by more than one where some were lost. -/
def Peer.commit (peer : Peer) (c : Phragma.Policy × Nat) : Peer := ⟨peer.version + 1 + c.2, c.1⟩

/-- What lies between the nodes during a pull. -/
structure Link where
  env : Env
  status : Heartbeat
  /-- The heartbeat; its version is the peer's. -/
  heartbeat : Heartbeat
  /-- What the peer commits between the heartbeat and the fetch. -/
  commits : List (Phragma.Policy × Nat)
  /-- The error of the fetch, if it fails. -/
  fetch : Option String

/-- The peer after the commits of a pull. -/
def Link.peer (link : Link) (peer : Peer) : Peer := link.commits.foldl Peer.commit peer

/-- The peer's side of a pull. -/
def Link.pullEnv (link : Link) (peer : Peer) : PullEnv where
  env := link.env
  status := link.status
  heartbeat :=
    { link.heartbeat with
      answer := link.heartbeat.answer.map fun evidence =>
        evidence.map fun e => { e with runningPolicyVersion := peer.version } }
  peerPolicy :=
    match link.fetch with
    | some err => .error err
    | none => .ok ⟨some (link.peer peer).policy, (link.peer peer).version⟩

/-- The passive node and its peer. -/
structure Pair where
  node : World
  peer : Peer

/-- The steps of a pair. -/
inductive PairStep
  | peerCommit (p : Phragma.Policy) (lost : Nat)
  | pull (link : Link) (comment : String) (ackRisk ackRuntime : Bool)
  | commit (env : Env) (req : CommitRequest)
  | rollback (env : Env) (req : RollbackRequest)
  | edit (c : Store.Call) (h : isCandidateOp c.op = true)

/-- What a step returns. -/
inductive PairReply
  | silent
  | pulled (o : PullOutcome)
  | applied (o : Outcome)

/-- One step of a pair. -/
def Server.pairStep (S : Server) (cfg : HaConfig) : PairStep → Pair → PairReply × Pair
  | .peerCommit p lost, s => (.silent, { s with peer := s.peer.commit (p, lost) })
  | .pull link comment ackRisk ackRuntime, s =>
      let r := S.pullHighAvailabilityPolicy cfg (link.pullEnv s.peer) comment ackRisk ackRuntime s.node
      (.pulled r.1, ⟨r.2, link.peer s.peer⟩)
  | .commit env req, s =>
      let r := S.Commit env req s.node
      (.applied r.1, { s with node := r.2 })
  | .rollback env req, s =>
      let r := S.Rollback env req s.node
      (.applied r.1, { s with node := r.2 })
  | .edit c _, s =>
      (.silent, { s with node := { s.node with db := (Store.exec S.H S.D c s.node.db).2 } })

/-- A step of a run of a pair. -/
abbrev PairEvent := Event PairStep Pair PairReply

/-- A run of a pair. -/
def pairHistory (S : Server) (cfg : HaConfig) (s : Pair) (steps : List PairStep) : List PairEvent :=
  history (S.pairStep cfg) s steps

/-- Local applies fail. -/
def LocalFails (ev : PairEvent) : Prop :=
  ∀ o, ev.output = .applied o → ∃ status, o.result = .error status

/-! ### Following

A pull brings the peer's policy if the peer is ahead by the number the pull compares. That it is
ahead by the number that counts is another comparison. -/

/-- The peer is ahead of what was replicated last; it is when nothing was. -/
def PeerAhead (s : Pair) : Prop :=
  ∀ n, replicatedSource s.node.db = some n → n < s.peer.version

/-- The gates of a pull before it applies, but for the comparison of versions: the node can take
a policy, the peer answers in time under its name as an active node with a hash, and is still
at the same version when its policy is fetched. -/
structure PullGates (cfg : HaConfig) (s : Pair) (link : Link) : Prop where
  mode : normalizeHighAvailabilityMode cfg.mode = .activePassive
  role : normalizeHighAvailabilityRole cfg.role = .passive
  takes : ∃ version, Takes cfg s.node.db version
  heartbeat : ∃ e, link.heartbeat.answer = .ok (some e) ∧
    (trimSpace (highAvailabilityStatus cfg link.status s.node.db).peerId = "" ∨
      trimSpace e.nodeID = trimSpace (highAvailabilityStatus cfg link.status s.node.db).peerId) ∧
    normalizeHighAvailabilityRole e.role = .active ∧
    (∃ t, e.lastHeartbeat = some t ∧ link.heartbeat.now - t ≤ cfg.staleAfter) ∧
    trimSpace e.artifactSetSHA256 ≠ ""
  still : link.commits = []
  fetch : link.fetch = none

/-- Every gate but that one: the policy also passes `apply`. -/
structure OtherGates (S : Server) (cfg : HaConfig) (s : Pair) (link : Link) (comment : String)
    (ackRisk ackRuntime : Bool) : Prop extends PullGates cfg s link where
  applies : ∃ r, (S.apply link.env s.peer.policy "ha-policy-pull" comment ackRisk ackRuntime
    s.peer.version "" [] s.node).1.result = .ok r

/-- **The node follows its peer**: what was pulled is not applied again, and what is new is
not refused. -/
structure FollowsPeer (S : Server) (cfg : HaConfig) (run : List PairEvent) : Prop where
  once : ∀ pre a mid b post r o link comment ackRisk ackRuntime,
    run = pre ++ a :: (mid ++ b :: post) → a.output = .pulled ⟨.ok r, o⟩ →
      b.input = .pull link comment ackRisk ackRuntime → b.before.peer.version = r.peerVersion →
      ∃ result, b.output = .pulled ⟨result, none⟩ ∧ b.after.node = b.before.node
  new : ∀ ev ∈ run, ∀ link comment ackRisk ackRuntime,
    ev.input = .pull link comment ackRisk ackRuntime →
      OtherGates S cfg ev.before link comment ackRisk ackRuntime → PeerAhead ev.before →
      ∃ r o, ev.output = .pulled ⟨.ok r, o⟩ ∧ GetRunning ev.after.node.db =
        .ok (normalizeIdentities S.H ev.before.peer.policy, r.version)

/-- **The two counters agree**: the peer's version is above the local running one exactly when
it is above the one replicated last. -/
def CountersAgree (s : Pair) : Prop :=
  runningPolicyVersion s.node.db < s.peer.version ↔ PeerAhead s

/-- The counters agree at every pull that gets to compare them. -/
def PullsAgree (cfg : HaConfig) (ev : PairEvent) : Prop :=
  ∀ link comment ackRisk ackRuntime, ev.input = .pull link comment ackRisk ackRuntime →
    PullGates cfg ev.before link → CountersAgree ev.before

theorem Peer.le_commits (peer : Peer) (cs : List (Phragma.Policy × Nat)) :
    peer.version + cs.length ≤ (cs.foldl Peer.commit peer).version := by
  induction cs generalizing peer with
  | nil => exact Nat.le_refl _
  | cons c cs ih =>
      have hstep := ih (peer.commit c)
      have hversion : (peer.commit c).version = peer.version + 1 + c.2 := rfl
      rw [List.foldl_cons, List.length_cons]
      omega

section

variable {S : Server} {cfg : HaConfig}

/-- The heartbeat's version is the peer's. -/
theorem pullEnv_answer {link : Link} {peer : Peer} {e : PeerEvidence} :
    (link.pullEnv peer).heartbeat.answer = .ok (some e) ↔
      ∃ e', link.heartbeat.answer = .ok (some e') ∧
        e = { e' with runningPolicyVersion := peer.version } := by
  unfold Link.pullEnv
  dsimp only
  cases link.heartbeat.answer with
  | error err => exact iff_of_false (fun h => by cases h) (by rintro ⟨e', h, -⟩; cases h)
  | ok evidence =>
      cases evidence with
      | none => exact iff_of_false (fun h => by cases h) (by rintro ⟨e', h, -⟩; cases h)
      | some e' =>
          constructor
          · intro h
            cases h
            exact ⟨e', rfl, rfl⟩
          · rintro ⟨e'', h, rfl⟩
            cases h
            rfl

/-- The policy fetched at the heartbeat's version is the one the peer had then. -/
theorem pullEnv_peerPolicy {link : Link} {peer : Peer} {p : Phragma.Policy} :
    (link.pullEnv peer).peerPolicy = .ok ⟨some p, peer.version⟩ ↔
      link.fetch = none ∧ link.commits = [] ∧ p = peer.policy := by
  unfold Link.pullEnv
  dsimp only
  cases link.fetch with
  | some err => exact iff_of_false (fun h => by cases h) (fun h => by cases h.1)
  | none =>
      simp only [Except.ok.injEq, PeerPolicy.mk.injEq, Option.some.injEq, true_and]
      constructor
      · rintro ⟨rfl, hversion⟩
        -- a commit in between would have raised the version
        have hle := peer.le_commits link.commits
        have hpeer : (link.peer peer).version = (link.commits.foldl Peer.commit peer).version := rfl
        have hlength : link.commits.length = 0 := by omega
        have hnone := List.eq_nil_of_length_eq_zero hlength
        refine ⟨hnone, ?_⟩
        unfold Link.peer
        rw [hnone]
        rfl
      · rintro ⟨hnone, rfl⟩
        unfold Link.peer
        rw [hnone]
        exact ⟨rfl, rfl⟩

/-- A pull is refused unless mode and role are right. -/
theorem mode_of_pullChecks {env : PullEnv} {db : DB} {r : PeerEvidence × Phragma.Policy × Nat}
    (h : pullChecks cfg env db = .ok r) :
    normalizeHighAvailabilityMode cfg.mode = .activePassive ∧
      normalizeHighAvailabilityRole cfg.role = .passive := by
  obtain ⟨version, hlocal, -⟩ := bind_ok.mp h
  unfold pullLocalChecks at hlocal
  simp only [require_bind_ok, decide_eq_true_eq] at hlocal
  exact ⟨hlocal.1, hlocal.2.1⟩

/-- The node's version is the one its checks read. -/
theorem Takes.version_eq {db : DB} {version : Nat} (h : Takes cfg db version) :
    runningPolicyVersion db = version := by
  obtain ⟨running, hrun, -⟩ := h.running
  unfold runningPolicyVersion
  rw [hrun]

/-- **A pull gets as far as applying exactly when the other gates pass and the peer's number
is above the local one.** -/
theorem pullChecks_pair {s : Pair} {link : Link} {e : PeerEvidence} {p : Phragma.Policy} {v : Nat}
    (h : pullChecks cfg (link.pullEnv s.peer) s.node.db = .ok (e, p, v)) :
    PullGates cfg s link ∧ runningPolicyVersion s.node.db < s.peer.version ∧ p = s.peer.policy ∧
      v = s.peer.version := by
  obtain ⟨hmode, hrole⟩ := mode_of_pullChecks h
  obtain ⟨rfl, version, htakes, hoffers⟩ := (pullChecks_ok hmode hrole).mp h
  obtain ⟨hanswer, hid, hactive, hfresh, hnewer, hhash, hpolicy⟩ := hoffers
  obtain ⟨e', he', rfl⟩ := pullEnv_answer.mp hanswer
  obtain ⟨hfetch, hstill, rfl⟩ := pullEnv_peerPolicy.mp hpolicy
  refine ⟨⟨hmode, hrole, ⟨version, htakes⟩, ⟨e', he', hid, hactive, hfresh, hhash⟩, hstill, hfetch⟩,
    ?_, rfl, rfl⟩
  rw [htakes.version_eq]
  exact hnewer

theorem pullChecks_of_gates {s : Pair} {link : Link} (h : PullGates cfg s link)
    (hnewer : runningPolicyVersion s.node.db < s.peer.version) :
    ∃ e, pullChecks cfg (link.pullEnv s.peer) s.node.db = .ok (e, s.peer.policy, s.peer.version) := by
  obtain ⟨version, htakes⟩ := h.takes
  obtain ⟨e, he, hid, hactive, hfresh, hhash⟩ := h.heartbeat
  rw [htakes.version_eq] at hnewer
  exact ⟨_, (pullChecks_ok h.mode h.role).mpr ⟨rfl, version, htakes, pullEnv_answer.mpr ⟨e, he, rfl⟩,
    hid, hactive, hfresh, hnewer, hhash, pullEnv_peerPolicy.mpr ⟨h.fetch, h.still, rfl⟩⟩⟩

/-- What was checked for the pull is not refused by `ApplyReplicatedPolicy`. -/
theorem ApplyReplicatedPolicy_of_takes {version : Nat} {w : World} (htakes : Takes cfg w.db version)
    {r : ReplicatedPolicy} (hnewer : version < r.sourceVersion) (env : Env) :
    S.ApplyReplicatedPolicy env r w =
      S.apply env r.policy "ha-policy-pull" r.comment r.ackRisk r.ackRuntime r.sourceVersion "" []
        w := by
  obtain ⟨running, hrun, hstaged⟩ := htakes.running
  have hchecks : replicatedChecks r w.db = .ok () := by
    unfold hasStagedChanges at hstaged
    have hnot : ¬ r.sourceVersion ≤ version := by omega
    unfold replicatedChecks
    rw [hrun]
    dsimp only
    rw [hstaged]
    simp [hnot]
  unfold Server.ApplyReplicatedPolicy
  rw [hchecks]

/-- A pull past its gates applies the peer's policy. -/
theorem pull_of_gates {s : Pair} {link : Link} (h : PullGates cfg s link)
    (hnewer : runningPolicyVersion s.node.db < s.peer.version) (comment : String)
    (ackRisk ackRuntime : Bool) :
    ∃ e, S.pullHighAvailabilityPolicy cfg (link.pullEnv s.peer) comment ackRisk ackRuntime s.node =
      (⟨pullResponse e s.peer.version (S.apply link.env s.peer.policy "ha-policy-pull" comment
          ackRisk ackRuntime s.peer.version "" [] s.node).1.result,
        some (S.apply link.env s.peer.policy "ha-policy-pull" comment ackRisk ackRuntime
          s.peer.version "" [] s.node).1⟩,
        (S.apply link.env s.peer.policy "ha-policy-pull" comment ackRisk ackRuntime
          s.peer.version "" [] s.node).2) := by
  obtain ⟨e, hchecks⟩ := pullChecks_of_gates h hnewer
  obtain ⟨version, htakes⟩ := h.takes
  rw [htakes.version_eq] at hnewer
  have happly := ApplyReplicatedPolicy_of_takes (S := S) htakes
    (r := ⟨s.peer.policy, comment, ackRisk, ackRuntime, s.peer.version⟩) hnewer link.env
  refine ⟨e, ?_⟩
  unfold Server.pullHighAvailabilityPolicy
  rw [hchecks]
  dsimp only
  rw [← happly]
  rfl

variable (S cfg) in
/-- **A pull** is refused and changes nothing, fails and leaves the pointers alone, or makes
the peer's policy the running one. -/
theorem pull_shape {s : Pair} (hw : VersionsWell s.node.db) (link : Link) (comment : String)
    (ackRisk ackRuntime : Bool) :
    let r := S.pullHighAvailabilityPolicy cfg (link.pullEnv s.peer) comment ackRisk ackRuntime s.node
    (∃ status, r = (⟨.error status, none⟩, s.node)) ∨
    (PullGates cfg s link ∧ runningPolicyVersion s.node.db < s.peer.version ∧
      ((∃ status o, r.1 = ⟨.error status, some o⟩ ∧ Undisturbed s.node.db r.2.db) ∨
        ∃ response o, r.1 = ⟨.ok response, some o⟩ ∧ response.peerVersion = s.peer.version ∧
          RunsAs S r.2.db response.version s.peer.policy "ha-policy-pull" s.peer.version)) := by
  dsimp only
  cases hchecks : pullChecks cfg (link.pullEnv s.peer) s.node.db with
  | error status =>
      unfold Server.pullHighAvailabilityPolicy
      rw [hchecks]
      exact .inl ⟨status, rfl⟩
  | ok fetched =>
      obtain ⟨e, p, v⟩ := fetched
      obtain ⟨hgates, hnewer, -, -⟩ := pullChecks_pair hchecks
      refine .inr ⟨hgates, hnewer, ?_⟩
      obtain ⟨e', hpull⟩ := pull_of_gates (S := S) hgates hnewer comment ackRisk ackRuntime
      rw [hpull]
      dsimp only
      cases happly : S.apply link.env s.peer.policy "ha-policy-pull" comment ackRisk ackRuntime
        s.peer.version "" [] s.node with
      | mk outcome w' =>
          obtain ⟨result, actions⟩ := outcome
          cases result with
          | error status => exact .inl ⟨status, _, rfl, apply_failed hw happly⟩
          | ok r =>
              obtain ⟨id, prev, info⟩ := r
              exact .inr ⟨_, _, rfl, rfl, apply_ok hw happly⟩

/-- The commit path keeps the versions well. -/
theorem versionsWell_of_effect {clock : Nat → Time} {db db' : DB} {op : Op} {r : Reply}
    (heff : Effect S.H S.D clock db op r db') (_ : isApplyOp op = true) (h : VersionsWell db) :
    VersionsWell db' :=
  heff.versionsWell h

/-- A local apply that fails leaves the pointers alone. -/
theorem Commit_failed {env : Env} {req : CommitRequest} {w w' : World} {status : Status}
    {actions : List Action} (hw : VersionsWell w.db)
    (h : S.Commit env req w = (⟨.error status, actions⟩, w')) : Undisturbed w.db w'.db := by
  unfold Server.Commit at h
  cases hchecks : S.commitChecks env req w.db with
  | error status =>
      rw [hchecks] at h
      cases h
      exact ⟨rfl, hw, fun _ _ _ => rfl⟩
  | ok r =>
      rw [hchecks] at h
      exact apply_failed hw h

theorem Rollback_failed {env : Env} {req : RollbackRequest} {w w' : World} {status : Status}
    {actions : List Action} (hw : VersionsWell w.db)
    (h : S.Rollback env req w = (⟨.error status, actions⟩, w')) : Undisturbed w.db w'.db := by
  unfold Server.Rollback at h
  cases hchecks : rollbackChecks env req w.db with
  | error status =>
      rw [hchecks] at h
      cases h
      exact ⟨rfl, hw, fun _ _ _ => rfl⟩
  | ok r =>
      rw [hchecks] at h
      exact apply_failed hw h

/-- Editing candidates leaves the pointers alone. -/
theorem undisturbed_edit {c : Store.Call} (hop : isCandidateOp c.op = true) {db : DB}
    (hw : VersionsWell db) : Undisturbed db (Store.exec S.H S.D c db).2 := by
  obtain ⟨hrunning, -, hinfo, -⟩ := edit_frame S.H S.D hop db
  exact ⟨hrunning, exec_versionsWell c hw, fun _ _ _ => by rw [hinfo]⟩

/-! ### Runs

As long as the comparisons agree at every pull, what runs is what was pulled last. -/

variable (S cfg) in
/-- Every step keeps the versions well. -/
theorem pairStep_well (step : PairStep) {s : Pair} (h : VersionsWell s.node.db) :
    VersionsWell (S.pairStep cfg step s).2.node.db := by
  cases step with
  | peerCommit p lost => exact h
  | pull link comment ackRisk ackRuntime =>
      unfold Server.pairStep
      dsimp only
      unfold Server.pullHighAvailabilityPolicy
      cases pullChecks cfg (link.pullEnv s.peer) s.node.db with
      | error status => exact h
      | ok fetched =>
          obtain ⟨e, p, v⟩ := fetched
          dsimp only
          exact ApplyReplicatedPolicy_invariant versionsWell_of_effect _ h
  | commit env req =>
      unfold Server.pairStep
      dsimp only
      exact Commit_invariant versionsWell_of_effect req h
  | rollback env req =>
      unfold Server.pairStep
      dsimp only
      exact Rollback_invariant versionsWell_of_effect req h
  | edit c hop =>
      unfold Server.pairStep
      dsimp only
      exact exec_versionsWell c h

/-- A version of the peer was replicated, at least the given one. -/
structure Replicated (n : Nat) (s : Pair) : Prop where
  well : VersionsWell s.node.db
  source : ∃ m, replicatedSource s.node.db = some m ∧ n ≤ m ∧ m ≤ s.peer.version

theorem Replicated.of_undisturbed {n : Nat} {s s' : Pair} (h : Replicated n s)
    (hnode : Undisturbed s.node.db s'.node.db) (hpeer : s.peer.version ≤ s'.peer.version) :
    Replicated n s' := by
  obtain ⟨m, hm, hnm, hmp⟩ := h.source
  exact ⟨hnode.well, m, (replicatedSource_of_undisturbed h.well hnode).trans hm, hnm,
    Nat.le_trans hmp hpeer⟩

theorem Link.le_peer (link : Link) (peer : Peer) : peer.version ≤ (link.peer peer).version :=
  Nat.le_trans (Nat.le_add_right _ _) (peer.le_commits link.commits)

variable (S cfg) in
/-- **Step lemma.** As long as local applies fail, the replicated version only rises. -/
theorem pairStep_replicated (step : PairStep) {n : Nat} {s : Pair}
    (hfail : LocalFails ⟨step, s, (S.pairStep cfg step s).1, (S.pairStep cfg step s).2⟩)
    (h : Replicated n s) : Replicated n (S.pairStep cfg step s).2 := by
  have hrefl : Undisturbed s.node.db s.node.db := ⟨rfl, h.well, fun _ _ _ => rfl⟩
  cases step with
  | peerCommit p lost =>
      have hpeer : (s.peer.commit (p, lost)).version = s.peer.version + 1 + lost := rfl
      exact h.of_undisturbed hrefl (by show _ ≤ (s.peer.commit (p, lost)).version; omega)
  -- a pull refuses, fails, or leaves the peer's current version
  | pull link comment ackRisk ackRuntime =>
      have hpeer := link.le_peer s.peer
      have hwell := pairStep_well S cfg (.pull link comment ackRisk ackRuntime) h.well
      have hshape := pull_shape S cfg h.well link comment ackRisk ackRuntime
      unfold Server.pairStep at hwell ⊢
      dsimp only at hwell hshape ⊢
      generalize S.pullHighAvailabilityPolicy cfg (link.pullEnv s.peer) comment ackRisk ackRuntime
        s.node = pulled at hwell hshape ⊢
      rcases hshape with ⟨status, rfl⟩ | ⟨-, hnewer, ⟨status, o, -, hnode⟩ | ⟨r, o, -, -, hruns⟩⟩
      · exact h.of_undisturbed hrefl hpeer
      · exact h.of_undisturbed hnode hpeer
      · obtain ⟨m, hm, hnm, hmp⟩ := h.source
        exact ⟨hwell, s.peer.version, replicatedSource_of_runsAs hruns (by omega),
          Nat.le_trans hnm hmp, hpeer⟩
  -- a local call that fails leaves the version it came from
  | commit env req =>
      unfold LocalFails Server.pairStep at hfail
      unfold Server.pairStep
      dsimp only at hfail ⊢
      obtain ⟨status, hstatus⟩ := hfail _ rfl
      cases hcommit : S.Commit env req s.node with
      | mk outcome w' =>
          obtain ⟨result, actions⟩ := outcome
          rw [hcommit] at hstatus
          cases hstatus
          exact h.of_undisturbed (Commit_failed h.well hcommit) (Nat.le_refl _)
  | rollback env req =>
      unfold LocalFails Server.pairStep at hfail
      unfold Server.pairStep
      dsimp only at hfail ⊢
      obtain ⟨status, hstatus⟩ := hfail _ rfl
      cases hrollback : S.Rollback env req s.node with
      | mk outcome w' =>
          obtain ⟨result, actions⟩ := outcome
          rw [hrollback] at hstatus
          cases hstatus
          exact h.of_undisturbed (Rollback_failed h.well hrollback) (Nat.le_refl _)
  | edit c hop =>
      unfold Server.pairStep
      dsimp only
      exact h.of_undisturbed (undisturbed_edit hop h.well) (Nat.le_refl _)

/-- A successful pull leaves the peer's version replicated. -/
theorem replicated_of_pulled {ev : PairEvent} (hexec : S.pairStep cfg ev.input ev.before =
      (ev.output, ev.after)) (hw : VersionsWell ev.before.node.db) {r : PullResponse}
    {o : Option Outcome} (h : ev.output = .pulled ⟨.ok r, o⟩) : Replicated r.peerVersion ev.after := by
  have hwell := pairStep_well S cfg ev.input hw
  rw [hexec] at hwell
  cases hinput : ev.input with
  | pull link comment ackRisk ackRuntime =>
      rw [hinput, h] at hexec
      have hpeer := link.le_peer ev.before.peer
      have hshape := pull_shape S cfg hw link comment ackRisk ackRuntime
      unfold Server.pairStep at hexec
      dsimp only at hexec hshape
      generalize S.pullHighAvailabilityPolicy cfg (link.pullEnv ev.before.peer) comment ackRisk
        ackRuntime ev.before.node = pulled at hexec hshape
      obtain ⟨houtput, hafter⟩ := Prod.mk.inj hexec
      have hresult := PairReply.pulled.inj houtput
      rcases hshape with ⟨status, rfl⟩ | ⟨-, hnewer, ⟨status, o', heq, -⟩ | ⟨r', o', heq, hr, hruns⟩⟩
      · cases hresult
      · rw [heq] at hresult
        cases hresult
      · rw [heq] at hresult
        cases hresult
        rw [hr]
        refine ⟨hwell, ev.before.peer.version, ?_, Nat.le_refl _, ?_⟩
        · rw [← hafter]
          exact replicatedSource_of_runsAs hruns (by omega)
        · rw [← hafter]
          exact hpeer
  | _ =>
      rw [hinput, h] at hexec
      cases congrArg Prod.fst hexec

/-- A pull at a replicated version is refused where the counters agree. -/
theorem pull_again {n : Nat} {ev : PairEvent} (hexec : S.pairStep cfg ev.input ev.before =
      (ev.output, ev.after)) (hrep : Replicated n ev.before) (hagree : PullsAgree cfg ev)
    {link : Link} {comment : String} {ackRisk ackRuntime : Bool}
    (hinput : ev.input = .pull link comment ackRisk ackRuntime)
    (hpeer : ev.before.peer.version = n) :
    ∃ result, ev.output = .pulled ⟨result, none⟩ ∧ ev.after.node = ev.before.node := by
  have hshape := pull_shape S cfg hrep.well link comment ackRisk ackRuntime
  rw [hinput] at hexec
  unfold Server.pairStep at hexec
  dsimp only at hexec hshape
  rcases hshape with ⟨status, heq⟩ | ⟨hgates, hnewer, -⟩
  · rw [heq] at hexec
    obtain ⟨houtput, hafter⟩ := Prod.mk.inj hexec
    exact ⟨_, houtput.symm, (congrArg Pair.node hafter).symm⟩
  · -- the peer's number is above the local one, but not above the replicated one
    obtain ⟨m, hm, hnm, -⟩ := hrep.source
    have hahead := (hagree link comment ackRisk ackRuntime hinput hgates).mp hnewer m hm
    omega

/-- A pull past every gate makes the peer's policy the running one where the counters agree. -/
theorem pull_new {ev : PairEvent} (hexec : S.pairStep cfg ev.input ev.before =
      (ev.output, ev.after)) (hw : VersionsWell ev.before.node.db) (hagree : PullsAgree cfg ev)
    {link : Link} {comment : String} {ackRisk ackRuntime : Bool}
    (hinput : ev.input = .pull link comment ackRisk ackRuntime)
    (hgates : OtherGates S cfg ev.before link comment ackRisk ackRuntime)
    (hahead : PeerAhead ev.before) :
    ∃ r o, ev.output = .pulled ⟨.ok r, o⟩ ∧ GetRunning ev.after.node.db =
      .ok (normalizeIdentities S.H ev.before.peer.policy, r.version) := by
  have hnewer :=
    (hagree link comment ackRisk ackRuntime hinput hgates.toPullGates).mpr hahead
  obtain ⟨e, hpull⟩ := pull_of_gates (S := S) hgates.toPullGates hnewer comment ackRisk ackRuntime
  obtain ⟨⟨id, prev, info⟩, hok⟩ := hgates.applies
  rw [hinput] at hexec
  unfold Server.pairStep at hexec
  dsimp only at hexec
  rw [hpull] at hexec
  cases happly : S.apply link.env ev.before.peer.policy "ha-policy-pull" comment ackRisk ackRuntime
    ev.before.peer.version "" [] ev.before.node with
  | mk outcome w' =>
      obtain ⟨result, actions⟩ := outcome
      rw [happly] at hexec hok
      cases hok
      obtain ⟨houtput, hafter⟩ := Prod.mk.inj hexec
      have hruns := apply_ok hw happly
      refine ⟨_, _, houtput.symm, ?_⟩
      rw [← hafter]
      unfold GetRunning
      dsimp only
      rw [hruns.running]
      dsimp only
      rw [hruns.version]

end

/-- **HA replication follows the peer where the counters agree**, over every run of peer
commits, pulls, candidate edits and local applies that fail. -/
theorem replication_follows_peer {S : Server} {cfg : HaConfig} {s : Pair} {steps : List PairStep}
    (hw : VersionsWell s.node.db) (hfail : ∀ ev ∈ pairHistory S cfg s steps, LocalFails ev)
    (hagree : ∀ ev ∈ pairHistory S cfg s steps, PullsAgree cfg ev) :
    FollowsPeer S cfg (pairHistory S cfg s steps) := by
  have hwell : ∀ ev ∈ pairHistory S cfg s steps,
      VersionsWell ev.before.node.db ∧ VersionsWell ev.after.node.db :=
    history_invariant (I := fun s : Pair => VersionsWell s.node.db) (C := fun _ => True)
      (fun step _ _ h => pairStep_well S cfg step h) (fun _ _ => trivial) hw
  constructor
  · intro pre a mid b post r o link comment ackRisk ackRuntime hrun ha hb hversion
    have hmem : ∀ ev ∈ a :: (mid ++ b :: post), ev ∈ pairHistory S cfg s steps := by
      intro ev hev
      rw [hrun]
      exact List.mem_append_right _ hev
    have hamem := hmem a List.mem_cons_self
    have hbpost : b ∈ mid ++ b :: post := by simp
    have hbmem := hmem b (List.mem_cons_of_mem _ hbpost)
    have hstart := replicated_of_pulled (history_event hamem).2 (hwell a hamem).1 ha
    have hlater := history_since (I := Replicated r.peerVersion) (C := LocalFails) hrun hstart
      (fun step _ hf h => pairStep_replicated S cfg step hf h)
      (fun ev hev => hfail ev (hmem ev (List.mem_cons_of_mem _ hev))) b hbpost
    exact pull_again (history_event hbmem).2 hlater (hagree b hbmem) hb hversion
  · intro ev hev link comment ackRisk ackRuntime hinput hgates hahead
    exact pull_new (history_event hev).2 (hwell ev hev).1 (hagree ev hev) hinput hgates hahead

/-! ### A node that boots beside a running peer

The node's first commit and its failed applies bring its numbers past the peer's. -/

/-- The link is up and the peer quiet. -/
def quietLink : Link where
  env := calmEnv
  status := peerHeartbeat 0
  heartbeat := peerHeartbeat 0
  commits := []
  fetch := none

/-- A pull by the replication loop. -/
def quietPull : PairStep := .pull quietLink "pull" true true

/-- The node boots with the peer at a version. -/
def bootPair (version : Nat) : Pair := ⟨⟨{}, fun _ => none⟩, ⟨version, peerPolicy.policy⟩⟩

/-- After one pull. -/
def pulledPair (version : Nat) : Pair :=
  (sampleServer.pairStep standbyConfig quietPull (bootPair version)).2

/-- The peer's version of the policy that a step applied, if it did. -/
def PairReply.pulledVersion : PairReply → Option Nat
  | .pulled ⟨.ok r, some _⟩ => some r.peerVersion
  | _ => none

theorem PairReply.eq_of_pulledVersion {reply : PairReply} {n : Nat}
    (h : reply.pulledVersion = some n) :
    ∃ r o, reply = .pulled ⟨.ok r, some o⟩ ∧ r.peerVersion = n := by
  unfold PairReply.pulledVersion at h
  split at h
  · next r o => exact ⟨r, o, rfl, Option.some.inj h⟩
  · cases h

/-- A peer at its first version is pulled as the first local version, one at its seventh too;
the first is then refused, and the seventh pulled again. -/
theorem pull_facts :
    (sampleServer.pairStep standbyConfig quietPull (bootPair 1)).1.pulledVersion = some 1 ∧
      runningPolicyVersion (pulledPair 1).node.db = 1 ∧
      replicatedSource (pulledPair 1).node.db = some 1 ∧
      (sampleServer.pairStep standbyConfig quietPull (bootPair 7)).1.pulledVersion = some 7 ∧
      (sampleServer.pairStep standbyConfig quietPull (pulledPair 7)).1.pulledVersion = some 7 := by
  decide +kernel

/-- The run of two pulls. -/
def firstPull (version : Nat) : PairEvent :=
  ⟨quietPull, bootPair version,
    (sampleServer.pairStep standbyConfig quietPull (bootPair version)).1, pulledPair version⟩

def secondPull (version : Nat) : PairEvent :=
  ⟨quietPull, pulledPair version,
    (sampleServer.pairStep standbyConfig quietPull (pulledPair version)).1,
    (sampleServer.pairStep standbyConfig quietPull (pulledPair version)).2⟩

theorem pulls_run (version : Nat) :
    pairHistory sampleServer standbyConfig (bootPair version) [quietPull, quietPull] =
      [firstPull version, secondPull version] := history_pair _ _ _

/-- A pull is no local apply. -/
theorem localFails_of_pulls {version : Nat} :
    ∀ ev ∈ pairHistory sampleServer standbyConfig (bootPair version) [quietPull, quietPull],
      LocalFails ev := by
  have hpull : ∀ (s : Pair) (o : Outcome),
      (sampleServer.pairStep standbyConfig quietPull s).1 ≠ .applied o := by
    intro s o h
    unfold quietPull Server.pairStep at h
    cases h
  intro ev hev o ho
  rw [pulls_run] at hev
  rcases List.mem_cons.mp hev with rfl | hev
  · exact (hpull _ o ho).elim
  · rw [List.mem_singleton.mp hev] at ho
    exact (hpull _ o ho).elim

theorem peer_pulledPair (version : Nat) :
    (pulledPair version).peer = ⟨version, peerPolicy.policy⟩ := rfl

/-- **A node that boots with its peer at version 1** follows it. -/
theorem replication_follows_peer_boot :
    (firstPull 1).output.pulledVersion = some 1 ∧
      FollowsPeer sampleServer standbyConfig [firstPull 1, secondPull 1] := by
  obtain ⟨hfirst, hrunning, hsource, -, -⟩ := pull_facts
  refine ⟨by unfold firstPull; exact hfirst, ?_⟩
  rw [← pulls_run 1]
  refine replication_follows_peer versionsWell_empty localFails_of_pulls ?_
  intro ev hev
  rw [pulls_run] at hev
  intro link comment ackRisk ackRuntime hinput hgates
  rcases List.mem_cons.mp hev with rfl | hev
  · unfold CountersAgree firstPull PeerAhead
    dsimp only
    refine iff_of_true (by decide) (fun n hn => ?_)
    have hnone : replicatedSource (bootPair 1).node.db = none := rfl
    rw [hnone] at hn
    cases hn
  · rw [List.mem_singleton.mp hev]
    unfold CountersAgree secondPull PeerAhead
    dsimp only
    rw [hrunning, hsource, peer_pulledPair]
    exact iff_of_false (by decide) (fun h => absurd (h 1 rfl) (by decide))

/-- **A node that boots with its peer at version 7** applies it at every pull. -/
theorem replication_repeats : ¬ ∀ (S : Server) (cfg : HaConfig) (s : Pair) (steps : List PairStep),
    VersionsWell s.node.db → (∀ ev ∈ pairHistory S cfg s steps, LocalFails ev) →
      FollowsPeer S cfg (pairHistory S cfg s steps) := by
  intro hall
  obtain ⟨-, -, -, hfirst, hsecond⟩ := pull_facts
  have hfollows := hall sampleServer standbyConfig (bootPair 7) [quietPull, quietPull]
    versionsWell_empty localFails_of_pulls
  rw [pulls_run] at hfollows
  obtain ⟨r, o, hr, hversion⟩ := PairReply.eq_of_pulledVersion hfirst
  obtain ⟨r', o', hr', -⟩ := PairReply.eq_of_pulledVersion hsecond
  have hafter : (firstPull 7).output = .pulled ⟨.ok r, some o⟩ := by
    unfold firstPull
    exact hr
  have hpeer : (secondPull 7).before.peer.version = r.peerVersion := by
    unfold secondPull
    dsimp only
    rw [hversion, peer_pulledPair]
  obtain ⟨result, hresult, -⟩ := hfollows.once [] (firstPull 7) [] (secondPull 7) [] r (some o)
    quietLink "pull" true true rfl hafter rfl hpeer
  have hagain : (secondPull 7).output = .pulled ⟨.ok r', some o'⟩ := by
    unfold secondPull
    exact hr'
  rw [hagain] at hresult
  cases hresult

end Phragma.Apiserver
