import Phragma.Apiserver.InStep

/-!
# Phragma.Apiserver.HighAvailability

The HA calls of the system service (`internal/apiserver/system.go`): the readiness status, the
pull of the peer's policy, by hand or by the replication loop, and the activation of a passive
node.

A node has two roles: the configured one, and the one of the durable marker that an activation
leaves (`effectiveHighAvailabilityRole`). The status and the activation go by the marker; the
pull goes by the configuration.

What a call meets outside (heartbeats, the peer's policy, evidence of fencing, the promotion of
addresses) is in its environment. What the status only reports (replication and evidence
details, warnings) is left out, and so is a service without a store.
-/

namespace Phragma.Apiserver

open Lib Go Policy Engines Renderers Store

/-! ### Modes and roles -/

/-- The HA modes. -/
inductive HaMode
  | standalone
  | activePassive
  deriving DecidableEq, Repr

/-- `normalizeHighAvailabilityMode`: whatever is not a known text is standalone. -/
def normalizeHighAvailabilityMode (mode : String) : HaMode :=
  let m := toLower (trimSpace mode)
  if m = "active-passive" ∨ m = "active_passive" ∨ m = "ha" then .activePassive else .standalone

/-- The HA roles. -/
inductive HaRole
  | active
  | passive
  | unknown
  deriving DecidableEq, Repr

def HaRole.text : HaRole → String
  | .active => "active"
  | .passive => "passive"
  | .unknown => "unknown"

/-- `normalizeHighAvailabilityRole`: the role that a text means, if it means one. -/
def normalizeHighAvailabilityRole (role : String) : HaRole :=
  let r := toLower (trimSpace role)
  if r = "active" ∨ r = "primary" then .active
  else if r = "passive" ∨ r = "secondary" ∨ r = "standby" then .passive
  else .unknown

/-- The HA part of `SystemStatusConfig`. -/
structure HaConfig where
  mode : String
  role : String
  peerID : String := ""
  peerAddress : String := ""
  /-- In nanoseconds. -/
  heartbeatStaleAfter : Int := 0
  autoReplicate : Bool := false
  replicationComment : String := ""
  /-- Which sources are configured. -/
  peerEvidence : Bool := true
  peerPolicy : Bool := true
  promoter : Bool := false
  fencingEvidence : Bool := false

/-- The text of a stored role. -/
def storedText (s : GoString) : String := String.ofList (s.map Rune.toChar)

/-- `effectiveHighAvailabilityRole`: the role of the marker, if it has one. -/
def effectiveHighAvailabilityRole (cfg : HaConfig) (db : DB) : HaRole :=
  match db.haState with
  | none => normalizeHighAvailabilityRole cfg.role
  | some state =>
      match normalizeHighAvailabilityRole (storedText state.role) with
      | .unknown => normalizeHighAvailabilityRole cfg.role
      | persisted => persisted

/-! ### Heartbeats

A node tells its peer what it runs. What a node knows of its peer is one such file, which it finds
or not. -/

/-- `HighAvailabilityPeerEvidence`: a heartbeat of the peer. -/
structure PeerEvidence where
  nodeID : String := ""
  role : String := ""
  runningPolicyVersion : Nat := 0
  artifactSetSHA256 : String := ""
  /-- In nanoseconds; the zero time is none. -/
  lastHeartbeat : Option Int := none

/-- One query of the heartbeat source, and the time its age is taken at. -/
structure Heartbeat where
  answer : Except String (Option PeerEvidence)
  now : Int

/-- How long a heartbeat is good for: half a minute unless configured. -/
def HaConfig.staleAfter (cfg : HaConfig) : Int :=
  if cfg.heartbeatStaleAfter ≤ 0 then 30 * 1000000000 else cfg.heartbeatStaleAfter

/-- A positive duration, rounded to seconds, as `Duration.String` prints it. -/
def secondsText (d : Int) : String :=
  let s := ((d + 500000000) / 1000000000).toNat
  (if 3600 ≤ s then decimal (s / 3600) ++ "h" else "") ++
    (if 60 ≤ s then decimal (s / 60 % 60) ++ "m" else "") ++ decimal (s % 60) ++ "s"

/-- `dedupeStrings`: the texts, trimmed, each once, without blank ones. -/
def dedupeStrings (items : List String) : List String :=
  items.foldl (fun out item =>
    let item := trimSpace item
    if item = "" ∨ item ∈ out then out else out ++ [item]) []

/-- `ListVersions(0)`: the metadata of the newest hundred versions, and whether each is the
last-known-good one. -/
def listVersions (db : DB) : List (VersionInfo × Bool) :=
  (db.versionInfo.entries.reverse.take 100).map fun e =>
    (e.2, e.2.id ≠ 0 && e.2.id = metaVersionID db.lastKnown)

/-- `lastKnownGoodVersionInfo`: the listed version that is marked as last known good. -/
def lastKnownGoodVersionInfo (db : DB) : Option VersionInfo :=
  ((listVersions db).find? fun v => v.2).map Prod.fst

/-- `runningPolicyVersion`: the version that runs, zero for none. -/
def runningPolicyVersion (db : DB) : Nat :=
  match GetRunning db with
  | .error _ => 0
  | .ok (_, version) => version

/-! ### The status

The status is a list of blockers: a standby is ready if nothing of it or of its peer stands against
taking over. -/

/-- `HighAvailabilityStatus`, as far as the calls below read it. -/
structure HaStatus where
  role : String := "standalone"
  peerId : String
  localVersion : Nat
  localArtifactSetSha256 : GoString := []
  eligible : Bool := false
  blockers : List String := []

/-- The version the peer's one is compared with: that of the peer when the last-known-good
policy was pulled. -/
def localVersion (db : DB) : Nat :=
  match lastKnownGoodVersionInfo db with
  | none => runningPolicyVersion db
  | some lkg =>
      if lkg.action = GoString.ofString "ha-policy-pull" && 0 < lkg.sourceVersion then
        lkg.sourceVersion
      else runningPolicyVersion db

/-- `highAvailabilityPeerEvidenceBlockers`: what a heartbeat has against it. -/
def highAvailabilityPeerEvidenceBlockers (cfg : HaConfig) (s : HaStatus) (running : Nat)
    (localRole : HaRole) (now : Int) (e : PeerEvidence) : List String :=
  let peerRole := normalizeHighAvailabilityRole e.role
  let localVersion := if s.localVersion = 0 then running else s.localVersion
  let localHash := s.localArtifactSetSha256.trimSpace
  let peerHash := trimSpace e.artifactSetSHA256
  (match e.lastHeartbeat with
    | none => ["HA peer heartbeat timestamp is missing."]
    | some t =>
        if cfg.staleAfter < now - t then
          ["HA peer heartbeat is stale (" ++ secondsText (now - t) ++ " old)."]
        else []) ++
  (if trimSpace s.peerId ≠ "" ∧ trimSpace e.nodeID ≠ "" ∧ trimSpace s.peerId ≠ trimSpace e.nodeID then
    ["HA peer identity mismatch: expected " ++ trimSpace s.peerId ++ ", got " ++
      trimSpace e.nodeID ++ "."]
    else []) ++
  (if localRole ≠ .unknown ∧ peerRole ≠ .unknown ∧ localRole = peerRole then
    ["HA peer role matches local role; active/passive requires opposite roles."] else []) ++
  (if 0 < e.runningPolicyVersion ∧ 0 < localVersion ∧ e.runningPolicyVersion ≠ localVersion then
    ["HA peer policy version mismatch: local v" ++ decimal localVersion ++ ", peer v" ++
      decimal e.runningPolicyVersion ++ "."]
    else []) ++
  (if localHash ≠ [] ∧ peerHash ≠ "" ∧ localHash ≠ GoString.ofString peerHash then
    ["HA peer artifact set hash does not match local last-known-good artifact set."] else [])

/-- `applyHighAvailabilityPeerEvidence`: the peer's name, if it is not configured, and what
speaks against readiness. -/
def applyHighAvailabilityPeerEvidence (cfg : HaConfig) (s : HaStatus) (running : Nat)
    (localRole : HaRole) (h : Heartbeat) : HaStatus :=
  match h.answer with
  | .error err =>
      { s with blockers := s.blockers ++ ["HA peer heartbeat is unreachable: " ++ err] }
  | .ok none => { s with blockers := s.blockers ++ ["HA peer heartbeat evidence is missing."] }
  | .ok (some e) =>
      let s := { s with peerId := if s.peerId = "" then trimSpace e.nodeID else s.peerId }
      { s with blockers := s.blockers ++
          highAvailabilityPeerEvidenceBlockers cfg s running localRole h.now e }

/-- What speaks against readiness before the peer is asked. -/
def localBlockers (cfg : HaConfig) (role : HaRole) (hasLKG : Bool) : List String :=
  (if role = .unknown then ["HA role must be active or passive for active/passive mode."] else []) ++
  (if hasLKG then [] else ["Last-known-good policy metadata is missing."]) ++
  (if trimSpace cfg.peerAddress = "" then ["HA peer address is not configured."] else [])

/-- `finalizeHighAvailabilityReadiness`: a node is eligible when nothing speaks against it. -/
def finalizeHighAvailabilityReadiness (s : HaStatus) : HaStatus :=
  let blockers := dedupeStrings s.blockers
  { s with blockers, eligible := blockers.isEmpty }

/-- `highAvailabilityStatus`: the status of a node with an active-passive configuration. A standalone
node is never eligible. -/
def highAvailabilityStatus (cfg : HaConfig) (h : Heartbeat) (db : DB) : HaStatus :=
  let role := effectiveHighAvailabilityRole cfg db
  let lkg := lastKnownGoodVersionInfo db
  let s : HaStatus :=
    { peerId := trimSpace cfg.peerID
      localVersion := localVersion db
      localArtifactSetSha256 := (lkg.map VersionInfo.artifactSetSHA256).getD [] }
  if normalizeHighAvailabilityMode cfg.mode ≠ .activePassive then s
  else
    let s := { s with role := role.text, blockers := localBlockers cfg role lkg.isSome }
    finalizeHighAvailabilityReadiness
      (if cfg.peerEvidence then
        applyHighAvailabilityPeerEvidence cfg s (runningPolicyVersion db) role h
      else { s with blockers := s.blockers ++ ["HA peer heartbeat source is not configured."] })

/-! ### Pulling the peer's policy

A pull reads the heartbeat of the peer and its policy, checks one against the other, and applies the
policy as a replicated one. Every check that fails ends it before anything is written. -/

/-- A refused precondition. -/
def precondition {α : Type} (message : String) : Except Status α :=
  .error ⟨.failedPrecondition, message⟩

/-- A precondition. -/
def require (ok : Bool) (message : String) : Except Status Unit :=
  if ok then .ok () else precondition message

theorem require_ok {ok : Bool} {message : String} : require ok message = .ok () ↔ ok = true := by
  unfold require
  cases ok <;> simp [precondition]

theorem require_bind_ok {β : Type} {ok : Bool} {message : String} {f : Unit → Except Status β}
    {b : β} : (require ok message >>= f) = .ok b ↔ ok = true ∧ f () = .ok b := by
  unfold require precondition
  cases ok with
  | false => exact iff_of_false (fun h => by cases h) (fun h => by cases h.1)
  | true => exact ⟨fun h => ⟨rfl, h⟩, fun h => h.2⟩

/-- `GetPolicyResponse` of the peer. -/
structure PeerPolicy where
  policy : Option Phragma.Policy
  version : Nat

/-- What a pull meets outside. The status it takes first asks the peer on its own. -/
structure PullEnv where
  env : Env
  status : Heartbeat
  heartbeat : Heartbeat
  peerPolicy : Except String PeerPolicy

/-- The staged candidate differs from the running policy. -/
def hasStagedChanges (db : DB) (running : Phragma.Policy) : Bool :=
  db.candidate.any fun candidate => candidate ≠ running

/-- `validateHighAvailabilityPullPeer`: the checks of the peer: its name, its role, the age of its
heartbeat and its version. -/
def validateHighAvailabilityPullPeer (cfg : HaConfig) (peerId : String) (now : Int)
    (runningVersion : Nat) (e : PeerEvidence) : Except Status Unit := do
  require (trimSpace peerId = "" || trimSpace e.nodeID = trimSpace peerId)
    ("HA peer identity mismatch: expected " ++ trimSpace peerId ++ ", got " ++ trimSpace e.nodeID)
  require (normalizeHighAvailabilityRole e.role = .active)
    ("HA policy pull requires an active peer; peer role is " ++
      (normalizeHighAvailabilityRole e.role).text)
  match e.lastHeartbeat with
  | none => precondition "HA peer heartbeat timestamp is missing"
  | some t => do
      require (now - t ≤ cfg.staleAfter)
        ("HA peer heartbeat is stale (" ++ secondsText (now - t) ++ " old)")
      require (runningVersion < e.runningPolicyVersion)
        ("HA peer policy version v" ++ decimal e.runningPolicyVersion ++
          " is not newer than local running version v" ++ decimal runningVersion)
      require (trimSpace e.artifactSetSHA256 ≠ "") "HA peer artifact set hash is missing"

/-- The peer's policy, once its heartbeat is accepted. -/
def fetchPeerPolicy (peerPolicy : Except String PeerPolicy) (runningVersion : Nat)
    (e : PeerEvidence) : Except Status (Phragma.Policy × Nat) :=
  match peerPolicy with
  | .error err => precondition ("HA peer policy fetch failed: " ++ err)
  | .ok ⟨none, _⟩ => precondition "HA peer policy response is missing policy"
  | .ok ⟨some p, version⟩ => do
      require (version ≠ 0) "HA peer policy response is missing running version"
      require (e.runningPolicyVersion = 0 || e.runningPolicyVersion = version)
        ("HA peer policy version mismatch: heartbeat v" ++ decimal e.runningPolicyVersion ++
          ", policy v" ++ decimal version)
      require (runningVersion < version)
        ("HA peer policy version v" ++ decimal version ++
          " is not newer than local running version v" ++ decimal runningVersion)
      pure (p, version)

/-- The checks of `pullHighAvailabilityPolicy` on the node itself. -/
def pullLocalChecks (cfg : HaConfig) (db : DB) : Except Status Nat := do
  require (normalizeHighAvailabilityMode cfg.mode = .activePassive)
    "HA policy pull requires active-passive mode"
  require (normalizeHighAvailabilityRole cfg.role = .passive)
    "HA policy pull must run on the passive node"
  require cfg.peerEvidence "HA peer heartbeat source is not configured"
  require cfg.peerPolicy "HA peer policy source is not configured"
  match GetRunning db with
  | .error e => .error ⟨.internal, "read running policy: " ++ e.text⟩
  | .ok (running, version) => do
      require (!hasStagedChanges db running)
        "local candidate has staged changes; discard or commit them before HA policy pull"
      pure version

/-- The checks of `pullHighAvailabilityPolicy` on the peer. -/
def pullPeerChecks (cfg : HaConfig) (env : PullEnv) (db : DB) (runningVersion : Nat) :
    Except Status (PeerEvidence × Phragma.Policy × Nat) :=
  match env.heartbeat.answer with
  | .error err => precondition ("HA peer heartbeat is unreachable: " ++ err)
  | .ok none => precondition "HA peer heartbeat evidence is missing"
  | .ok (some e) => do
      validateHighAvailabilityPullPeer cfg (highAvailabilityStatus cfg env.status db).peerId
        env.heartbeat.now runningVersion e
      let fetched ← fetchPeerPolicy env.peerPolicy runningVersion e
      pure (e, fetched)

/-- All checks of `pullHighAvailabilityPolicy`. -/
def pullChecks (cfg : HaConfig) (env : PullEnv) (db : DB) :
    Except Status (PeerEvidence × Phragma.Policy × Nat) := do
  let runningVersion ← pullLocalChecks cfg db
  pullPeerChecks cfg env db runningVersion

/-- `PullHighAvailabilityPolicyResponse`: what was applied, and what it replaces. -/
structure PullResponse where
  version : Nat
  previousVersion : Nat
  versionInfo : VersionInfo × Bool
  peerVersion : Nat
  peerArtifactSetSha256 : String
  detail : String

/-- The result of a pull, and of the call of `ApplyReplicatedPolicy` it made, if it made one. -/
structure PullOutcome where
  result : Except Status PullResponse
  applied : Option Outcome

/-- The response to a pull, from what `ApplyReplicatedPolicy` returned. -/
def pullResponse (e : PeerEvidence) (peerVersion : Nat) :
    Except Status (Nat × Nat × VersionInfo × Bool) → Except Status PullResponse
  | .error status => .error status
  | .ok (id, previousVersion, info) =>
      .ok {
        version := id
        previousVersion
        versionInfo := info
        peerVersion
        peerArtifactSetSha256 := trimSpace e.artifactSetSHA256
        detail := "Pulled active peer policy v" ++ decimal peerVersion ++
          " and applied it locally as v" ++ decimal id ++ "." }

/-- `pullHighAvailabilityPolicy`: the checks, then the policy of the peer under its version. -/
def Server.pullHighAvailabilityPolicy (S : Server) (cfg : HaConfig) (env : PullEnv)
    (comment : String) (ackRisk ackRuntime : Bool) (w : World) : PullOutcome × World :=
  match pullChecks cfg env w.db with
  | .error status => (⟨.error status, none⟩, w)
  | .ok (e, policy, peerVersion) =>
      let r := S.ApplyReplicatedPolicy env.env
        ⟨policy, comment, ackRisk, ackRuntime, peerVersion⟩ w
      (⟨pullResponse e peerVersion r.1.result, some r.1⟩, r.2)

/-- `PullHighAvailabilityPolicyRequest`: the acknowledgements of the caller. -/
structure PullRequest where
  comment : String
  ackPull : Bool
  ackRisk : Bool
  ackRuntime : Bool

/-- `PullHighAvailabilityPolicy`: a pull that an operator asks for, with a comment. -/
def Server.PullHighAvailabilityPolicy (S : Server) (cfg : HaConfig) (env : PullEnv)
    (req : PullRequest) (w : World) : PullOutcome × World :=
  match requiredAuditComment req.comment "HA policy pull comment" with
  | .error status => (⟨.error status, none⟩, w)
  | .ok comment =>
      match require req.ackPull "ack_pull is required" with
      | .error status => (⟨.error status, none⟩, w)
      | .ok () => S.pullHighAvailabilityPolicy cfg env comment req.ackRisk req.ackRuntime w

/-- The comment of a pull by the replication loop. -/
def HaConfig.autoComment (cfg : HaConfig) : String :=
  if trimSpace cfg.replicationComment = "" then "automatic passive HA policy replication"
  else trimSpace cfg.replicationComment

/-- `RunHighAvailabilityReplicationOnce`: a pull of the replication loop. It acknowledges everything
itself. -/
def Server.RunHighAvailabilityReplicationOnce (S : Server) (cfg : HaConfig) (env : PullEnv)
    (w : World) : PullOutcome × World :=
  match require cfg.autoReplicate "HA automatic replication is disabled" with
  | .error status => (⟨.error status, none⟩, w)
  | .ok () => S.pullHighAvailabilityPolicy cfg env cfg.autoComment true true w

/-! ### The offer of a peer

The checks of a pull come to two conditions on the state before it: the peer offers a newer policy,
and the node can take one. A pull that passes its checks applies the offer. -/

/-- **The peer offers its policy**: it answers in time under the expected name, as an active
node, with a version newer than the local one, and sends that version's policy. -/
structure Offers (cfg : HaConfig) (env : PullEnv) (db : DB) (version : Nat) (e : PeerEvidence)
    (p : Phragma.Policy) : Prop where
  answer : env.heartbeat.answer = .ok (some e)
  identity : trimSpace (highAvailabilityStatus cfg env.status db).peerId = "" ∨
    trimSpace e.nodeID = trimSpace (highAvailabilityStatus cfg env.status db).peerId
  active : normalizeHighAvailabilityRole e.role = .active
  fresh : ∃ t, e.lastHeartbeat = some t ∧ env.heartbeat.now - t ≤ cfg.staleAfter
  newer : version < e.runningPolicyVersion
  hash : trimSpace e.artifactSetSHA256 ≠ ""
  policy : env.peerPolicy = .ok ⟨some p, e.runningPolicyVersion⟩

/-- The node can take it: both sources are configured, and no candidate is staged. -/
structure Takes (cfg : HaConfig) (db : DB) (version : Nat) : Prop where
  evidence : cfg.peerEvidence = true
  source : cfg.peerPolicy = true
  running : ∃ running, GetRunning db = .ok (running, version) ∧ hasStagedChanges db running = false

theorem validateHighAvailabilityPullPeer_ok {cfg : HaConfig} {peerId : String} {now : Int}
    {version : Nat} {e : PeerEvidence} :
    validateHighAvailabilityPullPeer cfg peerId now version e = .ok () ↔
      (trimSpace peerId = "" ∨ trimSpace e.nodeID = trimSpace peerId) ∧
      normalizeHighAvailabilityRole e.role = .active ∧
      (∃ t, e.lastHeartbeat = some t ∧ now - t ≤ cfg.staleAfter) ∧
      version < e.runningPolicyVersion ∧ trimSpace e.artifactSetSHA256 ≠ "" := by
  unfold validateHighAvailabilityPullPeer
  cases e.lastHeartbeat with
  | none => simp [require_bind_ok, precondition]
  | some t => simp [require_bind_ok, require_ok]

theorem fetchPeerPolicy_ok {peerPolicy : Except String PeerPolicy} {version v : Nat}
    {e : PeerEvidence} {p : Phragma.Policy} (hnewer : version < e.runningPolicyVersion) :
    fetchPeerPolicy peerPolicy version e = .ok (p, v) ↔
      v = e.runningPolicyVersion ∧ peerPolicy = .ok ⟨some p, e.runningPolicyVersion⟩ := by
  unfold fetchPeerPolicy
  split
  · simp [precondition]
  · simp [precondition]
  · next q n =>
      simp only [require_bind_ok, decide_eq_true_eq, Bool.or_eq_true, pure, Except.pure,
        Except.ok.injEq, Prod.mk.injEq, PeerPolicy.mk.injEq, Option.some.injEq]
      constructor
      · rintro ⟨-, hsame, -, rfl, rfl⟩
        have hn : e.runningPolicyVersion = n := by omega
        exact ⟨hn.symm, rfl, hn.symm⟩
      · rintro ⟨rfl, rfl, rfl⟩
        exact ⟨by omega, .inr rfl, hnewer, rfl, rfl⟩

theorem pullLocalChecks_ok {cfg : HaConfig} {db : DB}
    (hmode : normalizeHighAvailabilityMode cfg.mode = .activePassive)
    (hrole : normalizeHighAvailabilityRole cfg.role = .passive) {version : Nat} :
    pullLocalChecks cfg db = .ok version ↔ Takes cfg db version := by
  unfold pullLocalChecks
  cases hrun : GetRunning db with
  | error err =>
      simp only [require_bind_ok, reduceCtorEq, and_false, false_iff]
      rintro ⟨-, -, running, h, -⟩
      rw [hrun] at h
      cases h
  | ok r =>
      obtain ⟨running, n⟩ := r
      simp only [require_bind_ok, hmode, hrole, decide_true, true_and, Bool.not_eq_true', pure,
        Except.pure, Except.ok.injEq]
      constructor
      · rintro ⟨hev, hsrc, hstaged, rfl⟩
        exact ⟨hev, hsrc, running, hrun, hstaged⟩
      · rintro ⟨hev, hsrc, running', h, hstaged⟩
        rw [hrun] at h
        cases h
        exact ⟨hev, hsrc, hstaged, rfl⟩

theorem pullPeerChecks_ok {cfg : HaConfig} {env : PullEnv} {db : DB} {version v : Nat}
    {e : PeerEvidence} {p : Phragma.Policy} :
    pullPeerChecks cfg env db version = .ok (e, p, v) ↔
      v = e.runningPolicyVersion ∧ Offers cfg env db version e p := by
  unfold pullPeerChecks
  cases hanswer : env.heartbeat.answer with
  | error err =>
      refine iff_of_false (fun h => by cases h) ?_
      rintro ⟨-, h⟩
      cases hanswer.symm.trans h.answer
  | ok evidence =>
      cases evidence with
      | none =>
          refine iff_of_false (fun h => by cases h) ?_
          rintro ⟨-, h⟩
          cases hanswer.symm.trans h.answer
      | some e' =>
          dsimp only
          rw [bind_ok]
          constructor
          · rintro ⟨⟨⟩, hvalid, h⟩
            obtain ⟨⟨q, n⟩, hfetch, h⟩ := bind_ok.mp h
            obtain ⟨hid, hactive, hfresh, hnewer, hhash⟩ :=
              validateHighAvailabilityPullPeer_ok.mp hvalid
            obtain ⟨hn, hpolicy⟩ := (fetchPeerPolicy_ok hnewer).mp hfetch
            cases h
            exact ⟨hn, hanswer, hid, hactive, hfresh, hnewer, hhash, hpolicy⟩
          · rintro ⟨rfl, h⟩
            cases hanswer.symm.trans h.answer
            refine ⟨(), validateHighAvailabilityPullPeer_ok.mpr
              ⟨h.identity, h.active, h.fresh, h.newer, h.hash⟩, bind_ok.mpr ?_⟩
            exact ⟨_, (fetchPeerPolicy_ok h.newer).mpr ⟨rfl, h.policy⟩, rfl⟩

/-- **A pull gets as far as applying a policy exactly when the peer offers it and the node
can take it.** -/
theorem pullChecks_ok {cfg : HaConfig} {env : PullEnv} {db : DB}
    (hmode : normalizeHighAvailabilityMode cfg.mode = .activePassive)
    (hrole : normalizeHighAvailabilityRole cfg.role = .passive) {e : PeerEvidence}
    {p : Phragma.Policy} {v : Nat} :
    pullChecks cfg env db = .ok (e, p, v) ↔
      v = e.runningPolicyVersion ∧ ∃ version, Takes cfg db version ∧
        Offers cfg env db version e p := by
  unfold pullChecks
  rw [bind_ok]
  constructor
  · rintro ⟨version, hlocal, hpeer⟩
    obtain ⟨hv, hoffers⟩ := pullPeerChecks_ok.mp hpeer
    exact ⟨hv, version, (pullLocalChecks_ok hmode hrole).mp hlocal, hoffers⟩
  · rintro ⟨hv, version, htakes, hoffers⟩
    exact ⟨version, (pullLocalChecks_ok hmode hrole).mpr htakes,
      pullPeerChecks_ok.mpr ⟨hv, hoffers⟩⟩

/-! ### Activating a passive node

An operator activates a standby, with evidence that the peer is fenced. Nothing asks the peer. -/

/-- `HighAvailabilityFencingEvidence`: who claims that the peer is fenced, and what is claimed. -/
structure FencingEvidence where
  provider : String
  claim : String
  peerID : String := ""

/-- What an activation meets outside. -/
structure ActivateEnv where
  identity : ActorIdentity
  /-- The answer of `authz.RequireStepUp`. -/
  stepUp : Option Status
  status : Heartbeat
  fencing : Except String (Option FencingEvidence)
  /-- The error of `Promote`, if it fails. -/
  promotion : Option String
  clock : Nat → Time
  intentFaults : List Bool
  markerFaults : List Bool

/-- `ActivateHighAvailabilityFailoverRequest`: the acknowledgements of the operator. -/
structure ActivateRequest where
  comment : String
  ackFailover : Bool
  ackExternalCutover : Bool
  ackExternalFencing : Bool

/-- The checks of an activation on its request. -/
def activateRequestChecks (env : ActivateEnv) (req : ActivateRequest) : Except Status String :=
  match env.stepUp with
  | some status => .error status
  | none => do
      let comment ← requiredAuditComment req.comment "HA failover activation comment"
      require req.ackFailover "ack_failover is required"
      require req.ackExternalCutover "ack_external_cutover is required"
      require req.ackExternalFencing "ack_external_fencing is required"
      pure comment

/-- The checks of an activation on the versions of the node. -/
def activateVersionChecks (db : DB) : Except Status (Nat × Nat) :=
  match GetRunning db with
  | .error e => .error ⟨.internal, "read running policy: " ++ e.text⟩
  | .ok (running, version) => do
      require (!hasStagedChanges db running)
        "local candidate has staged changes; discard or commit them before HA failover activation"
      match lastKnownGoodVersionInfo db with
      | none =>
          precondition "last-known-good policy metadata is required before HA failover activation"
      | some lkg => do
          require (version ≠ 0)
            "running policy version is required before HA failover activation"
          require (lkg.id = version)
            ("running policy v" ++ decimal version ++ " does not match last-known-good v" ++
              decimal lkg.id)
          pure (version, lkg.id)

/-- The checks of an activation on the node and its status. -/
def activateChecks (cfg : HaConfig) (env : ActivateEnv) (req : ActivateRequest) (db : DB) :
    Except Status (String × Nat × Nat) := do
  let comment ← activateRequestChecks env req
  require (normalizeHighAvailabilityMode cfg.mode = .activePassive)
    "HA failover activation requires active-passive mode"
  let role := effectiveHighAvailabilityRole cfg db
  require (role = .passive)
    ("HA failover activation must run on a passive node; current role is " ++ role.text)
  let versions ← activateVersionChecks db
  let before := highAvailabilityStatus cfg env.status db
  require (before.role = "passive")
    ("HA failover activation requires passive status; current role is " ++ before.role)
  require before.eligible
    ("HA failover activation is not eligible: " ++ join before.blockers "; ")
  pure (comment, versions)

/-- `strings.EqualFold`, against an ASCII text. -/
def equalFold (a b : String) : Bool := toLower a = toLower b

/-- `highAvailabilityFencingEvidence`, as far as it can refuse. -/
def highAvailabilityFencingEvidence (cfg : HaConfig) (expectedPeerID : String)
    (fencing : Except String (Option FencingEvidence)) : Except Status Unit :=
  if cfg.fencingEvidence then
    match fencing with
    | .error err => precondition ("HA external fencing evidence failed: " ++ err)
    | .ok none => precondition "HA external fencing evidence is missing"
    | .ok (some e) => do
        let claim := trimSpace e.claim
        let peerID := trimSpace e.peerID
        let expected := trimSpace expectedPeerID
        require (trimSpace e.provider ≠ "") "HA external fencing evidence provider is required"
        require (claim ≠ "") "HA external fencing evidence claim is required"
        require (peerID = "" || expected = "" || peerID = expected)
          ("HA external fencing evidence peer mismatch: expected " ++ expected ++ ", got " ++ peerID)
        require (!equalFold claim "not_performed" && !equalFold claim "unknown")
          ("HA external fencing evidence claim " ++ quote claim ++ " does not prove peer fencing")
  else .ok ()

/-- The evidence an activation asks for after its intent is recorded, and the promotion. -/
def activateEvidence (cfg : HaConfig) (env : ActivateEnv) (peerId : String) : Except Status Unit := do
  highAvailabilityFencingEvidence cfg peerId env.fencing
  match env.promotion with
  | some err =>
      require (!cfg.promoter) ("HA VIP/route promotion failed: " ++ err)
  | none => pure ()

/-- The audit entry of an activation. -/
def activateEntry (env : ActivateEnv) (action comment : String) (version : Nat) : AuditEntry where
  actor := env.identity.name
  actorRole := env.identity.role
  authSource := env.identity.authSource
  action := GoString.ofString action
  detail := GoString.ofString comment
  version

/-- The marker an activation leaves. -/
def activatedState (env : ActivateEnv) (comment peerId : String) (version lkg : Nat) :
    HighAvailabilityState where
  role := GoString.ofString "active"
  previousRole := GoString.ofString "passive"
  activatedAt := env.clock 0
  actor := env.identity.name
  actorRole := env.identity.role
  authSource := env.identity.authSource
  comment := GoString.ofString comment
  source := GoString.ofString "manual-passive-activation"
  runningPolicyVersion := version
  lastKnownGoodVersion := lkg
  peerID := GoString.ofString peerId

/-- The end of an activation: evidence, then the marker. -/
def Server.persistActivation (S : Server) (cfg : HaConfig) (env : ActivateEnv) (comment : String)
    (version lkg : Nat) (peerId : String) (db : DB) : Except Status Unit × DB :=
  match activateEvidence cfg env peerId with
  | .error status => (.error status, db)
  | .ok () =>
      match Tx.update .bolt env.markerFaults (SetHighAvailabilityStateWithAudit S.D (env.clock 2)
          (activatedState env comment peerId version lkg)
          (activateEntry env "ha-failover-activate" comment version)) db with
      | (.error e, db) =>
          (.error ⟨.internal, "persist HA failover activation: " ++ e.text⟩, db)
      | (.ok (), db) => (.ok (), db)

/-- `ActivateHighAvailabilityFailover`: the checks, then the failover, between two audit entries. -/
def Server.ActivateHighAvailabilityFailover (S : Server) (cfg : HaConfig) (env : ActivateEnv)
    (req : ActivateRequest) (w : World) : Except Status Unit × World :=
  match activateChecks cfg env req w.db with
  | .error status => (.error status, w)
  | .ok (comment, version, lkg) =>
      match Tx.update .bolt env.intentFaults (appendAuditTx S.D (env.clock 1)
          (activateEntry env "ha-failover-activate-intent" comment version)) w.db with
      | (.error e, db) =>
          (.error ⟨.internal, "record HA failover activation intent: " ++ e.text⟩, { w with db })
      | (.ok (), db) =>
          let r := S.persistActivation cfg env comment version lkg
            (highAvailabilityStatus cfg env.status w.db).peerId db
          (r.1, { w with db := r.2 })

/-! ### Between the calls -/

/-- The operations of the store on candidates, their approvals and the audit log. -/
def isCandidateOp : Op → Bool
  | .setCandidate _ => true
  | .setCandidateWithAuditIfRevision _ _ _ => true
  | .createChangeApproval _ _ _ _ _ => true
  | .consumeChangeApproval _ _ _ _ => true
  | .appendAudit _ => true
  | _ => false

theorem getRunning_congr {db db' : DB} (hrunning : db'.running = db.running)
    (hversions : db'.versions = db.versions) : GetRunning db' = GetRunning db := by
  unfold GetRunning
  rw [hrunning, hversions]

/-- Editing candidates keeps the versions, their pointers and the marker. -/
theorem edit_frame (H : IdentityHash) (D : Digest) {c : Store.Call}
    (h : isCandidateOp c.op = true) (db : DB) :
    (Store.exec H D c db).2.running = db.running ∧
      (Store.exec H D c db).2.versions = db.versions ∧
      (Store.exec H D c db).2.versionInfo = db.versionInfo ∧
      (Store.exec H D c db).2.haState = db.haState := by
  rcases exec_cases (H := H) (D := D) c db with ⟨e, he⟩ | ⟨r, db', hr, heff⟩
  · rw [he]
    exact ⟨rfl, rfl, rfl, rfl⟩
  · rw [hr]
    generalize c.op = op at h heff
    cases heff with
    | setCandidate => exact ⟨rfl, rfl, rfl, rfl⟩
    | setCandidateWithAudit => exact ⟨rfl, rfl, rfl, rfl⟩
    | createChangeApproval => exact ⟨rfl, rfl, rfl, rfl⟩
    | consumeChangeApproval => exact ⟨rfl, rfl, rfl, rfl⟩
    | appendAudit => exact ⟨rfl, rfl, rfl, rfl⟩
    | _ => cases h

/-! ### A passive node and its peer -/

/-- A passive node with a peer that it replicates by itself. -/
def standbyConfig : HaConfig where
  mode := "active-passive"
  role := "passive"
  peerID := "fw-a"
  peerAddress := "10.0.0.1"
  autoReplicate := true

/-- The peer's heartbeat, as an active node. -/
def peerHeartbeat (version : Nat) : Heartbeat where
  answer := .ok (some
    { nodeID := "fw-a", role := "active", runningPolicyVersion := version,
      artifactSetSHA256 := "ab", lastHeartbeat := some 0 })
  now := 0

theorem standby_mode : normalizeHighAvailabilityMode standbyConfig.mode = .activePassive := by
  decide

theorem standby_role : normalizeHighAvailabilityRole standbyConfig.role = .passive := by
  decide

end Phragma.Apiserver
