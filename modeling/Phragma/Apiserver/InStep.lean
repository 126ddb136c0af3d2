import Phragma.Apiserver.Apply
import Phragma.Store.AuditChain

/-!
# Phragma.Apiserver.InStep

Engines and the running policy stay in step.

An engine holds the config of its last successful `Apply`. `InSync` says that every
registered engine holds its artifact of the rendered running policy. The commit path keeps
it, through failures of engines and of the database at any point, as long as what it does to
undo them succeeds: when an engine refuses its config the others are restored and the running
pointer has not moved; when all accept theirs the pointer moves to a version that renders to
what they were given.

One thing the path relies on is not its own doing: an engine that is left without an artifact
is not called, and one that had none cannot be restored. So the new and the running policy
must have artifacts for the same engines (`SameEngines`). Of the engines that `controld`
registers every policy has one.
-/

namespace Phragma.Apiserver

open Lib Go Policy Engines Renderers Store

/-! ### Rendering -/

/-- Rendering normalizes, so a policy and its stored form render alike. -/
theorem render_normalizeIdentities (S : Server) (p : Phragma.Policy) :
    S.render (normalizeIdentities S.H p) = S.render p := by
  unfold Server.render RenderAll Compiler.Compile
  rw [normalizeIdentities_idem]

/-- Two artifact sets have artifacts for the same registered engines. -/
def SameEngines (S : Server) (a b : Artifacts String) : Prop :=
  ∀ e ∈ S.sup.engines, (a.get e).isSome = (b.get e).isSome

theorem isSome_lookup_iff {l : List (String × String)} {e : String} :
    (l.lookup e).isSome = true ↔ e ∈ l.map Prod.fst := by
  induction l with
  | nil => simp
  | cons x l ih =>
      rw [List.lookup_cons, List.map_cons, List.mem_cons, ← ih]
      by_cases h : e = x.1
      · simp [h]
      · have hb : (e == x.1) = false := by simpa using h
        simp [hb, h]

/-- Every engine `controld` registers has an artifact of every policy. -/
theorem sameEngines_controld {S : Server}
    (hS : ∀ e ∈ S.sup.engines, e ∈ controldSupervisor.engines) {p q : Phragma.Policy}
    {a b : Artifacts String} (ha : S.render p = .ok a) (hb : S.render q = .ok b) :
    SameEngines S a b := by
  have hall : ∀ {p : Phragma.Policy} {a : Artifacts String}, S.render p = .ok a →
      ∀ e ∈ S.sup.engines, (a.get e).isSome = true := by
    intro p a h e he
    rw [Artifacts.get, isSome_lookup_iff, RenderAll_names h]
    exact List.mem_append_left _ (hS e he)
  intro e he
  rw [hall ha e he, hall hb e he]

/-! ### The store during a call

Until the activation the running pointer stays, whatever is recorded before. -/

/-- The running policy is as it was when its pointer and the recorded versions are. -/
theorem getRunning_eq {db db' : DB} (hw : VersionsWell db) (hrun : db'.running = db.running)
    (hkept : VersionsKept db db') : GetRunning db' = GetRunning db := by
  unfold GetRunning
  rw [hrun]
  cases hr : db.running with
  | none => rfl
  | some id =>
      obtain ⟨⟨p, hp⟩, -⟩ := hw.pointers.recorded id hr
      simp only [hp, hkept id p hp]

/-- The running pointer, the candidate and the recorded versions are as they were. -/
structure Kept (db db' : DB) : Prop where
  running : db'.running = db.running
  candidate : db'.candidate = db.candidate
  versions : VersionsKept db db'
  well : VersionsWell db'

theorem Kept.refl {db : DB} (h : VersionsWell db) : Kept db db := ⟨rfl, rfl, .refl db, h⟩

theorem Kept.trans {a b c : DB} (hab : Kept a b) (hbc : Kept b c) : Kept a c :=
  ⟨hbc.running.trans hab.running, hbc.candidate.trans hab.candidate,
    hab.versions.trans hbc.versions, hbc.well⟩

/-- A transition that moves neither the pointer nor the candidate. -/
theorem kept_of_effect {H : IdentityHash} {D : Digest} {clock : Nat → Time} {db db' : DB}
    {op : Op} {r : Reply} (h : Effect H D clock db op r db') (hw : VersionsWell db)
    (hrun : db'.running = db.running) (hcand : db'.candidate = db.candidate) : Kept db db' :=
  ⟨hrun, hcand, h.versionsKept hw.fresh, h.versionsWell hw⟩

variable {S : Server} {env : Env}

/-- A transaction that, if it goes through, keeps what it should. -/
theorem transact_kept {α : Type} {step : StoreStep} {t : Tx DB Error α} {db : DB}
    (hw : VersionsWell db) (h : ∀ a db', t.Yields db a db' → Kept db db') :
    Kept db (transact env step t db).2 := by
  unfold transact
  rcases Tx.update_cases .bolt (env.faults step) t db with ⟨e, he⟩ | ⟨a, db', he, hy⟩
  · rw [he]
    exact .refl hw
  · rw [he]
    exact h a db' hy

theorem markFailed_kept (S : Server) (env : Env) (stage : String) (version : Nat) (err : String)
    {db : DB} (hw : VersionsWell db) : Kept db (markFailed env stage version err db) := by
  unfold markFailed
  cases failedState stage version with
  | none => exact .refl hw
  | some state =>
      refine transact_kept hw fun u db' hy => ?_
      have heff : Effect S.H S.D (env.clock .mark) db _ _ _ := MarkVersionState_ok hy
      obtain ⟨hrun, -, hcand⟩ := heff.frame (.inr ⟨_, _, _, rfl⟩)
      exact kept_of_effect heff hw hrun hcand

/-- Recording a failure keeps the pointers, the candidate and the versions. -/
theorem recordFailure_kept (S : Server) (env : Env) (action stage : String) (version : Nat)
    (err : String) {db : DB} (hw : VersionsWell db) :
    Kept db (S.recordFailure env action stage version err db) := by
  have hmark := markFailed_kept S env stage version err hw
  refine hmark.trans (transact_kept hmark.well fun u db' hy => ?_)
  have heff : Effect S.H S.D (env.clock .failureAudit) _ _ _ _ := AppendAudit_ok hy
  cases heff with
  | appendAudit tip => exact kept_of_effect (AppendAudit_ok (H := S.H) hy) hmark.well rfl rfl

/-- The version and its audit intent are in the store. -/
def IntentRecorded (id : Nat) (db : DB) : Prop :=
  (∃ p, db.versions.get id = some p) ∧
    ∃ key e action, db.audit.get key = some e ∧ e.version = id ∧
      e.action = GoString.ofString action ++ GoString.ofString "-intent"

/-- What a successful preparation leaves. -/
theorem prepareTx_ok {p : Phragma.Policy} {action comment : String} {artifacts : Artifacts String}
    {sourceVersion id : Nat} {approvalID : String} {revision : GoString} {db db' : DB}
    (hw : VersionsWell db)
    (h : (S.prepareTx env p action comment artifacts sourceVersion approvalID revision).Yields
      db id db') :
    Kept db db' ∧ db'.versions.get id = some (normalizeIdentities S.H p) ∧
      IntentRecorded id db' := by
  have heff := PreparePolicyApply_ok h
  obtain ⟨hrun, -, hcand⟩ := heff.frame (.inl ⟨_, _, _, _, _, _, _, _, rfl⟩)
  refine ⟨kept_of_effect heff hw hrun hcand, ?_⟩
  cases heff with
  | prepare consumed tip =>
      refine ⟨Bucket.get_put_self _ _ _, ⟨_, Bucket.get_put_self _ _ _⟩, ?_⟩
      refine ⟨_, _, action, Bucket.get_put_self _ _ _, rfl, ?_⟩
      exact jsonString_eq_self (GoString.valid_append.mpr
        ⟨GoString.valid_ofString _, GoString.valid_ofString _⟩)

/-- What a successful activation leaves. -/
theorem activateTx_ok {clock : Nat → Time} {id : Nat} {identity : ActorIdentity}
    {action comment : GoString} {u : Unit} {db db' : DB} (hw : VersionsWell db)
    (h : (ActivatePreparedVersion S.D clock id identity action comment).Yields db u db') :
    db'.running = some id ∧ db'.versions = db.versions ∧ VersionsWell db' ∧
      ∃ info, GetVersionInfo db' id = .ok info := by
  have heff := ActivatePreparedVersion_ok (H := S.H) h
  have hwell := heff.versionsWell hw
  cases heff with
  | activate version metadata tip =>
      refine ⟨rfl, rfl, hwell, ?_⟩
      unfold GetVersionInfo
      rw [Bucket.get_put_self]
      exact ⟨_, rfl⟩

/-! ### A successful apply

After the activation both pointers name the new version, which renders to what the engines hold. -/

/-- **A version is the running one**: both pointers name it, with its policy and where it came
from. -/
structure RunsAs (S : Server) (db : DB) (id : Nat) (p : Phragma.Policy) (action : String)
    (sourceVersion : Nat) : Prop where
  running : db.running = some id
  lastKnown : db.lastKnown = some id
  version : db.versions.get id = some (normalizeIdentities S.H p)
  info : ∃ info, db.versionInfo.get id = some info ∧ info.action = GoString.ofString action ∧
    info.sourceVersion = sourceVersion

/-- A version is recorded with where it came from. -/
structure PreparedAs (S : Server) (db : DB) (id : Nat) (p : Phragma.Policy) (action : String)
    (sourceVersion : Nat) : Prop where
  version : db.versions.get id = some (normalizeIdentities S.H p)
  info : ∃ info, db.versionInfo.get id = some info ∧ info.action = GoString.ofString action ∧
    info.sourceVersion = sourceVersion

theorem prepareTx_as {p : Phragma.Policy} {action comment : String} {artifacts : Artifacts String}
    {sourceVersion id : Nat} {approvalID : String} {revision : GoString} {db db' : DB}
    (h : (S.prepareTx env p action comment artifacts sourceVersion approvalID revision).Yields
      db id db') : id = db.versions.seq + 1 ∧ PreparedAs S db' id p action sourceVersion ∧
        ∀ k ≠ id, db'.versionInfo.get k = db.versionInfo.get k := by
  have heff := PreparePolicyApply_ok h
  cases heff with
  | prepare consumed tip =>
      refine ⟨rfl, ⟨Bucket.get_put_self _ _ _, _, Bucket.get_put_self _ _ _, ?_, rfl⟩,
        fun k hk => Bucket.get_put_of_ne hk _ _⟩
      exact jsonString_eq_self (GoString.valid_ofString action)

/-- What a successful `activate` leaves. -/
theorem activate_ok {version id prev : Nat} {info : VersionInfo × Bool} {actions : List Action}
    {w w' : World} {action comment : String} {plan : Plan} {done : List Action} (hw : VersionsWell w.db)
    {p : Phragma.Policy} {origin : String} {sourceVersion : Nat}
    (hprepared : PreparedAs S w.db version p origin sourceVersion)
    (h : S.activate env action comment version plan done w = (⟨.ok (id, prev, info), actions⟩, w')) :
    id = version ∧ RunsAs S w'.db id p origin sourceVersion := by
  unfold Server.activate transact at h
  rcases Tx.update_cases .bolt (env.faults .activate) (ActivatePreparedVersion S.D
    (env.clock .activate) version env.identity (GoString.ofString action)
    (GoString.ofString comment)) w.db with ⟨e, he⟩ | ⟨u, db', he, hy⟩
  · rw [he] at h
    cases h
  · rw [he] at h
    obtain ⟨-, -, -, read, hread⟩ := activateTx_ok (S := S) hw hy
    have heff := ActivatePreparedVersion_ok (H := S.H) hy
    simp only [activatedResult, hread] at h
    cases h
    obtain ⟨hversion, stored, hstored, haction, hsource⟩ := hprepared
    cases heff with
    | activate recorded metadata tip =>
        rw [hstored] at metadata
        cases metadata
        refine ⟨rfl, rfl, rfl, hversion, _, Bucket.get_put_self _ _ _, ?_, hsource⟩
        have hvalid : stored.action.Valid := by
          rw [haction]
          exact GoString.valid_ofString origin
        exact (jsonString_eq_self hvalid).trans haction

/-- **What a successful `apply` leaves**: the policy is the running one. -/
theorem apply_ok {id prev : Nat} {info : VersionInfo × Bool} {actions : List Action} {w w' : World}
    {p : Phragma.Policy} {action comment approvalID : String} {ackRisk ackRuntime : Bool}
    {sourceVersion : Nat} {revision : GoString} (hw : VersionsWell w.db)
    (h : S.apply env p action comment ackRisk ackRuntime sourceVersion approvalID revision w =
      (⟨.ok (id, prev, info), actions⟩, w')) : RunsAs S w'.db id p action sourceVersion := by
  unfold Server.apply at h
  dsimp only at h
  cases hplan : S.plan env (NormalizeRuleIDs S.H p).1 action ackRisk ackRuntime approvalID
    w.db with
  | error failure =>
      rw [hplan] at h
      cases h
  | ok plan =>
      rw [hplan] at h
      dsimp only at h
      unfold transact at h
      rcases Tx.update_cases .bolt (env.faults .prepare) (S.prepareTx env
        (NormalizeRuleIDs S.H p).1 action comment plan.artifacts sourceVersion approvalID revision)
        w.db with ⟨e, he⟩ | ⟨version, db, he, hy⟩
      · rw [he] at h
        cases h
      · rw [he] at h
        obtain ⟨hkept, -, -⟩ := prepareTx_ok hw hy
        obtain ⟨-, hprepared, -⟩ := prepareTx_as hy
        unfold Server.switch at h
        cases happly : S.sup.Apply env.outcomes plan.artifacts plan.prevArtifacts with
        | mk result calls =>
          rw [happly] at h
          cases result with
          | some err => cases h
          | none =>
              obtain ⟨rfl, hruns⟩ := activate_ok hkept.well hprepared h
              refine ⟨hruns.running, hruns.lastKnown, ?_, hruns.info⟩
              rw [hruns.version, normalizeIdentities_NormalizeRuleIDs]

/-! ### In step -/

/-- Every registered engine holds its artifact of the rendered running policy; one without an
artifact is unconfigured. -/
def InSync (S : Server) (w : World) : Prop :=
  ∃ running version artifacts, GetRunning w.db = .ok (running, version) ∧
    S.render running = .ok artifacts ∧ ∀ e ∈ S.sup.engines, w.hold e = artifacts.get e

/-- The engine calls among the actions of a call. -/
def engineCalls (actions : List Action) : List (Engines.Call String) :=
  actions.filterMap fun
    | .engine c => some c
    | _ => none

/-- Undoing works: every engine call after a failed one succeeds, and so does every
activation. -/
structure Undone (actions : List Action) : Prop where
  restores : RestoresSucceed (engineCalls actions)
  activations : ∀ result, Action.activation result ∈ actions → result = .ok ()

/-- What is asked of one call on the world `w`. -/
structure CallSafe (S : Server) (w : World) (r : Outcome × World) : Prop where
  well : VersionsWell r.2.db
  inSync : InSync S w → Undone r.1.actions → InSync S r.2
  unmoved : ∀ status, r.1.result = .error status →
    r.2.db.running = w.db.running ∧ r.2.db.candidate = w.db.candidate
  durable : ∀ pre c post, r.1.actions = pre ++ .engine c :: post →
    ∃ id db, Action.durable id db ∈ pre ∧ IntentRecorded id db

/-- A call that touches no engine and keeps the pointers and the candidate. -/
theorem callSafe_of_kept {w : World} {db : DB} {result : Except Status (Nat × Nat × VersionInfo × Bool)}
    (hw : VersionsWell w.db) (h : Kept w.db db) : CallSafe S w (⟨result, []⟩, { w with db }) where
  well := h.well
  inSync := by
    rintro ⟨running, version, artifacts, hrun, hrender, hhold⟩ -
    refine ⟨running, version, artifacts, ?_, hrender, hhold⟩
    rw [← hrun]
    exact getRunning_eq hw h.running h.versions
  unmoved _ _ := ⟨h.running, h.candidate⟩
  durable pre c post heq := by cases pre <;> cases heq

/-- What the checks of `apply` found. -/
theorem plan_ok {p : Phragma.Policy} {action approvalID : String} {ackRisk ackRuntime : Bool}
    {db : DB} {plan : Plan}
    (h : S.plan env p action ackRisk ackRuntime approvalID db = .ok plan) :
    S.render p = .ok plan.artifacts ∧
      ∃ running, GetRunning db = .ok (running, plan.prevVersion) ∧
        S.render running = .ok plan.prevArtifacts := by
  have hstage : ∀ {α : Type} {name : String} {x : Except String α} {a : α},
      stage name x = .ok a → x = .ok a := by
    intro α name x a hx
    cases x with
    | error e => cases hx
    | ok b => cases hx; rfl
  unfold Server.plan at h
  obtain ⟨-, -, h⟩ := bind_ok.mp h
  obtain ⟨artifacts, hrender, h⟩ := bind_ok.mp h
  obtain ⟨-, -, h⟩ := bind_ok.mp h
  obtain ⟨running, hrun, h⟩ := bind_ok.mp h
  obtain ⟨-, -, h⟩ := bind_ok.mp h
  obtain ⟨-, -, h⟩ := bind_ok.mp h
  obtain ⟨prevArtifacts, hprev, h⟩ := bind_ok.mp h
  obtain ⟨-, -, h⟩ := bind_ok.mp h
  cases h
  refine ⟨hstage hrender, running.1, ?_, hstage hprev⟩
  have hrun := hstage hrun
  cases hg : GetRunning db with
  | error e => rw [hg] at hrun; cases hrun
  | ok r => rw [hg] at hrun; cases hrun; rfl

/-! ### Switching the engines

A switch that fails restores what it has switched, so the engines hold the old artifacts or the new
ones. -/

theorem engineCalls_done (id : Nat) (db : DB) (calls : List (Engines.Call String)) :
    engineCalls (.durable id db :: calls.map .engine) = calls := by
  unfold engineCalls
  rw [List.filterMap_cons_none rfl, List.filterMap_map]
  exact List.filterMap_some

/-- Where the first action is the durable intent, it precedes every engine call. -/
theorem durable_mem_of_first {id : Nat} {db : DB} {rest pre post : List Action}
    {c : Engines.Call String} (h : .durable id db :: rest = pre ++ .engine c :: post) :
    Action.durable id db ∈ pre := by
  cases pre with
  | nil => cases h
  | cons a pre =>
      obtain ⟨rfl, -⟩ := List.cons.inj h
      exact List.mem_cons_self

/-- What the engines hold after a failed `Apply` that could be undone. -/
theorem hold_restored {plan : Plan} {hold : String → Option String} {err : String}
    {calls : List (Engines.Call String)}
    (happly : S.sup.Apply env.outcomes plan.artifacts plan.prevArtifacts = (some err, calls))
    (hsame : SameEngines S plan.artifacts plan.prevArtifacts) (hok : RestoresSucceed calls)
    (hhold : ∀ e ∈ S.sup.engines, hold e = plan.prevArtifacts.get e) :
    ∀ e ∈ S.sup.engines, holds hold calls e = plan.prevArtifacts.get e := by
  intro e he
  by_cases hcalled : ∃ c ∈ calls, c.engine = e
  · obtain ⟨c, hc, rfl⟩ := hcalled
    exact holds_of_failed happly (fun e he hs => (hsame e he).symm.trans hs) hok hold c hc
  · rw [holds_of_not_called fun c hc hce => hcalled ⟨c, hc, hce⟩]
    exact hhold e he

/-- What the engines hold after a successful one. -/
theorem hold_applied {plan : Plan} {hold : String → Option String}
    {calls : List (Engines.Call String)}
    (happly : S.sup.Apply env.outcomes plan.artifacts plan.prevArtifacts = (none, calls))
    (hsame : SameEngines S plan.artifacts plan.prevArtifacts)
    (hhold : ∀ e ∈ S.sup.engines, hold e = plan.prevArtifacts.get e) :
    ∀ e ∈ S.sup.engines, holds hold calls e = plan.artifacts.get e := by
  intro e he
  rw [Apply_applied happly, holds_of_applied he, hhold e he]
  cases hget : plan.artifacts.get e with
  | some cfg => rfl
  | none =>
      have := hsame e he
      rw [hget] at this
      cases hprev : plan.prevArtifacts.get e with
      | none => rfl
      | some cfg => rw [hprev] at this; cases this

/-- The state of a call once its intent is durable: what is known of the plan and the store. -/
structure Ready (S : Server) (w : World) (p : Phragma.Policy) (id : Nat) (plan : Plan) (db : DB) :
    Prop where
  well : VersionsWell w.db
  kept : Kept w.db db
  version : db.versions.get id = some (normalizeIdentities S.H p)
  intent : IntentRecorded id db
  rendered : S.render p = .ok plan.artifacts
  previous : ∃ running version, GetRunning w.db = .ok (running, version) ∧
    S.render running = .ok plan.prevArtifacts
  sameEngines : SameEngines S plan.artifacts plan.prevArtifacts

namespace Ready

variable {w : World} {p : Phragma.Policy} {id : Nat} {plan : Plan} {db : DB}

/-- Engines in step with the running policy hold the previous artifacts. -/
theorem hold_previous (h : Ready S w p id plan db) (hsync : InSync S w) :
    ∀ e ∈ S.sup.engines, w.hold e = plan.prevArtifacts.get e := by
  obtain ⟨running, version, hrun, hprev⟩ := h.previous
  obtain ⟨running', version', artifacts, hrun', hrender, hhold⟩ := hsync
  rw [hrun] at hrun'
  cases hrun'
  rw [hprev] at hrender
  cases hrender
  exact hhold

/-- The end of a call that leaves the engines with the previous artifacts and the running
pointer alone. -/
theorem inSync_previous (h : Ready S w p id plan db) {db' : DB} {hold : String → Option String}
    (hkept : Kept w.db db') (hhold : ∀ e ∈ S.sup.engines, hold e = plan.prevArtifacts.get e) :
    InSync S ⟨db', hold⟩ := by
  obtain ⟨running, version, hrun, hprev⟩ := h.previous
  refine ⟨running, version, plan.prevArtifacts, ?_, hprev, hhold⟩
  rw [← hrun]
  exact getRunning_eq h.well hkept.running hkept.versions

theorem activate_safe (h : Ready S w p id plan db) {action comment : String}
    {calls : List (Engines.Call String)}
    (happly : S.sup.Apply env.outcomes plan.artifacts plan.prevArtifacts = (none, calls)) :
    CallSafe S w (S.activate env action comment id plan (.durable id db :: calls.map .engine)
      ⟨db, holds w.hold calls⟩) := by
  unfold Server.activate transact
  rcases Tx.update_cases .bolt (env.faults .activate) (ActivatePreparedVersion S.D
    (env.clock .activate) id env.identity (GoString.ofString action) (GoString.ofString comment)) db
    with ⟨e, he⟩ | ⟨u, db', he, hy⟩
  · rw [he]
    have hkept := h.kept.trans
      (recordFailure_kept S env action activationStage id (activationFailure e id plan) h.kept.well)
    refine ⟨hkept.well, ?_, fun _ _ => ⟨hkept.running, hkept.candidate⟩, ?_⟩
    · intro _ hundone
      -- the activation failed, which is ruled out
      have := hundone.activations (.error e) (List.mem_append_right _ List.mem_cons_self)
      cases this
    · intro pre c post heq
      exact ⟨id, db, durable_mem_of_first heq, h.intent⟩
  · rw [he]
    obtain ⟨hrunning, hversions, hwell, info, hinfo⟩ := activateTx_ok h.kept.well hy
    refine ⟨hwell, ?_, ?_, ?_⟩
    · intro hsync _
      refine ⟨normalizeIdentities S.H p, id, plan.artifacts, ?_, ?_,
        hold_applied happly h.sameEngines (h.hold_previous hsync)⟩
      · simp only [GetRunning, hrunning, hversions, h.version]
      · rw [render_normalizeIdentities]
        exact h.rendered
    · intro status hstatus
      simp only [activatedResult, hinfo] at hstatus
      cases hstatus
    · intro pre c post heq
      exact ⟨id, db, durable_mem_of_first heq, h.intent⟩

theorem switch_safe (h : Ready S w p id plan db) {action comment : String} :
    CallSafe S w (S.switch env action comment id plan { w with db }) := by
  unfold Server.switch
  cases happly : S.sup.Apply env.outcomes plan.artifacts plan.prevArtifacts with
  | mk result calls =>
    cases result with
    | none => exact h.activate_safe happly
    | some err =>
        have hkept := h.kept.trans
          (recordFailure_kept S env action "apply" id (applyFailure err id plan) h.kept.well)
        refine ⟨hkept.well, ?_, fun _ _ => ⟨hkept.running, hkept.candidate⟩, ?_⟩
        · intro hsync hundone
          have hok := hundone.restores
          rw [engineCalls_done] at hok
          exact h.inSync_previous hkept
            (hold_restored happly h.sameEngines hok (h.hold_previous hsync))
        · intro pre c post heq
          exact ⟨id, db, durable_mem_of_first heq, h.intent⟩

end Ready

/-! ### Whole calls -/

/-- The policy `apply` is called with has artifacts for the engines the running one has. -/
def AppliesSameEngines (S : Server) (p : Phragma.Policy) (db : DB) : Prop :=
  ∀ running version a b, GetRunning db = .ok (running, version) →
    S.render (NormalizeRuleIDs S.H p).1 = .ok a → S.render running = .ok b → SameEngines S a b

/-- **`apply` keeps the engines and the running policy in step.** -/
theorem apply_safe {w : World} (hw : VersionsWell w.db) {p : Phragma.Policy}
    (hsame : AppliesSameEngines S p w.db) {action comment approvalID : String}
    {ackRisk ackRuntime : Bool} {sourceVersion : Nat} {revision : GoString} :
    CallSafe S w (S.apply env p action comment ackRisk ackRuntime sourceVersion approvalID revision
      w) := by
  unfold Server.apply
  dsimp only
  cases hplan : S.plan env (NormalizeRuleIDs S.H p).1 action ackRisk ackRuntime approvalID w.db with
  | error failure => exact callSafe_of_kept hw (recordFailure_kept S env _ _ _ _ hw)
  | ok plan =>
      obtain ⟨hrender, running, hrun, hprev⟩ := plan_ok hplan
      dsimp only
      unfold transact
      rcases Tx.update_cases .bolt (env.faults .prepare) (S.prepareTx env
        (NormalizeRuleIDs S.H p).1 action comment plan.artifacts sourceVersion approvalID revision)
        w.db with ⟨e, he⟩ | ⟨id, db, he, hy⟩
      · rw [he]
        exact callSafe_of_kept hw (recordFailure_kept S env _ _ _ _ hw)
      · rw [he]
        obtain ⟨hkept, hversion, hintent⟩ := prepareTx_ok hw hy
        exact Ready.switch_safe
          ⟨hw, hkept, hversion, hintent, hrender, ⟨running, _, hrun, hprev⟩,
            hsame running _ _ _ hrun hrender hprev⟩

/-! ### Runs of the server -/

/-- The operations of the store that other parts of the server run in between: staging a
candidate, approving it, audit entries and the HA marker. -/
def isStaging : Op → Bool
  | .setCandidate _ => true
  | .setCandidateWithAuditIfRevision _ _ _ => true
  | .createChangeApproval _ _ _ _ _ => true
  | .consumeChangeApproval _ _ _ _ => true
  | .appendAudit _ => true
  | .setHighAvailabilityState _ => true
  | .setHighAvailabilityStateWithAudit _ _ => true
  | _ => false

/-- A call of the policy server, or a staging operation in between. -/
inductive ServerCall
  | commit (env : Env) (req : CommitRequest)
  | rollback (env : Env) (req : RollbackRequest)
  | applyReplicatedPolicy (env : Env) (r : ReplicatedPolicy)
  | staging (c : Store.Call) (h : isStaging c.op = true)

/-- One call; a staging operation has no outcome of its own here. -/
def Server.exec (S : Server) : ServerCall → World → Option Outcome × World
  | .commit env req, w => ((S.Commit env req w).map some id)
  | .rollback env req, w => ((S.Rollback env req w).map some id)
  | .applyReplicatedPolicy env r, w => ((S.ApplyReplicatedPolicy env r w).map some id)
  | .staging c _, w => (none, { w with db := (Store.exec S.H S.D c w.db).2 })

theorem exec_applyReplicatedPolicy (S : Server) (env : Env) (r : ReplicatedPolicy) (w : World) :
    (S.exec (.applyReplicatedPolicy env r) w).1 = some (S.ApplyReplicatedPolicy env r w).1 := rfl

/-- The record of a run of the server. -/
def serverHistory (S : Server) (w : World) (calls : List ServerCall) :
    List (Event ServerCall World (Option Outcome)) :=
  history S.exec w calls

/-- Staging keeps the running policy. -/
theorem staging_running {H : IdentityHash} {D : Digest} {c : Store.Call} {db : DB}
    (h : isStaging c.op = true) :
    (Store.exec H D c db).2.running = db.running := by
  rcases exec_cases (H := H) (D := D) c db with ⟨e, he⟩ | ⟨r, db', hr, heff⟩
  · rw [he]
  · rw [hr]
    generalize c.op = op at h heff
    cases heff with
    | commitVersion => cases h
    | activate => cases h
    | _ => rfl

theorem staging_inSync {c : Store.Call} {w : World} (h : isStaging c.op = true)
    (hw : VersionsWell w.db) (hsync : InSync S w) :
    InSync S { w with db := (Store.exec S.H S.D c w.db).2 } := by
  obtain ⟨running, version, artifacts, hrun, hrender, hhold⟩ := hsync
  refine ⟨running, version, artifacts, ?_, hrender, hhold⟩
  rw [← hrun]
  exact getRunning_eq hw (staging_running h) (exec_versionsKept c hw)

theorem refused_safe {w : World} {status : Status} (hw : VersionsWell w.db) :
    CallSafe S w (refused status w) := callSafe_of_kept hw (.refl hw)

section

variable {w : World} (hsame : ∀ p db, AppliesSameEngines S p db) (hw : VersionsWell w.db)

include hsame hw

theorem Commit_safe (req : CommitRequest) : CallSafe S w (S.Commit env req w) := by
  unfold Server.Commit
  split
  · exact refused_safe hw
  · exact apply_safe hw (hsame _ _)

theorem Rollback_safe (req : RollbackRequest) : CallSafe S w (S.Rollback env req w) := by
  unfold Server.Rollback
  split
  · exact refused_safe hw
  · exact apply_safe hw (hsame _ _)

theorem ApplyReplicatedPolicy_safe (r : ReplicatedPolicy) :
    CallSafe S w (S.ApplyReplicatedPolicy env r w) := by
  unfold Server.ApplyReplicatedPolicy
  split
  · exact refused_safe hw
  · exact apply_safe hw (hsame _ _)

/-- **One call** of the server, where every policy has an artifact for every engine. -/
theorem exec_safe {call : ServerCall} {o : Outcome} (ho : (S.exec call w).1 = some o) :
    CallSafe S w (o, (S.exec call w).2) := by
  have hsome : ∀ {r : Outcome × World}, (r.map some id).1 = some o → CallSafe S w r →
      CallSafe S w (o, (r.map some id).2) := by
    intro r hr hsafe
    cases hr
    exact hsafe
  cases call with
  | commit env req => exact hsome ho (Commit_safe hsame hw req)
  | rollback env req => exact hsome ho (Rollback_safe hsame hw req)
  | applyReplicatedPolicy env r => exact hsome ho (ApplyReplicatedPolicy_safe hsame hw r)
  | staging c h => cases ho

end

/-- A world in which the store is well-formed and the engines are in step. -/
structure Settled (S : Server) (w : World) : Prop where
  well : VersionsWell w.db
  inSync : InSync S w

theorem exec_settled (hsame : ∀ p db, AppliesSameEngines S p db) {call : ServerCall} {w : World}
    (h : Settled S w)
    (hundone : ∀ o, (S.exec call w).1 = some o → Undone o.actions) : Settled S (S.exec call w).2 := by
  cases ho : (S.exec call w).1 with
  | some o =>
      have hsafe := exec_safe hsame h.well ho
      exact ⟨hsafe.well, hsafe.inSync h.inSync (hundone o ho)⟩
  | none =>
      cases call with
      | staging c hc =>
          exact ⟨exec_versionsWell c h.well, staging_inSync hc h.well h.inSync⟩
      | commit env req => cases ho
      | rollback env req => cases ho
      | applyReplicatedPolicy env r => cases ho

theorem appliesSameEngines_controld (hS : ∀ e ∈ S.sup.engines, e ∈ controldSupervisor.engines)
    (p : Phragma.Policy) (db : DB) : AppliesSameEngines S p db := fun _ _ _ _ _ ha hb => sameEngines_controld hS ha hb

/-- **Commit keeps engines and running policy in step.** Let the supervisor's engines be among
those that `controld` registers. Start with all of them in step with the running policy, and
take any run of commits, rollbacks and replicated applies, with staging in between, in which
restores and activations succeed. After every call the engines are in step with the running policy; a call that returns an
error has left the running pointer and the candidate alone; and an engine is called only once
the version and its audit intent are durable. -/
theorem engines_in_step (hS : ∀ e ∈ S.sup.engines, e ∈ controldSupervisor.engines) {w : World}
    (hw : VersionsWell w.db) (hsync : InSync S w) {calls : List ServerCall}
    (hundone : ∀ ev ∈ serverHistory S w calls, ∀ o, ev.output = some o → Undone o.actions) :
    ∀ ev ∈ serverHistory S w calls, InSync S ev.after ∧ ∀ o, ev.output = some o →
      (∀ status, o.result = .error status →
        ev.after.db.running = ev.before.db.running ∧
          ev.after.db.candidate = ev.before.db.candidate) ∧
      ∀ pre c post, o.actions = pre ++ .engine c :: post →
        ∃ id db, Action.durable id db ∈ pre ∧ IntentRecorded id db := by
  have hsame := appliesSameEngines_controld (S := S) hS
  have hsettled : ∀ ev ∈ serverHistory S w calls, Settled S ev.before ∧ Settled S ev.after :=
    history_invariant_of_events (fun call w hC h => exec_settled hsame h hC) hundone ⟨hw, hsync⟩
  intro ev hev
  obtain ⟨hbefore, hafter⟩ := hsettled ev hev
  refine ⟨hafter.inSync, fun o ho => ?_⟩
  have hexec := (history_event hev).2
  have hout : (S.exec ev.input ev.before).1 = some o := by
    rw [hexec]
    exact ho
  have hsafe := exec_safe hsame hbefore.well hout
  rw [hexec] at hsafe
  exact ⟨hsafe.unmoved, hsafe.durable⟩

/-! ### A pull from a peer -/

/-- A server with the engines of `controld`. -/
def sampleServer : Server where
  H := .zero
  D := sampleDigest
  renderers := .empty
  opts := {}
  sup := controldSupervisor
  impactHigh _ _ := false
  readiness := none

/-- A node as it boots: an empty store, and engines that hold the empty policy. -/
def sampleWorld : World where
  db := {}
  hold e := ((sampleServer.render {}).toOption.getD []).get e

/-- No engine and no transaction fails. -/
def calmEnv : Env where
  identity := { name := GoString.ofString "ops" }
  stepUp := none
  outcomes := ⟨fun _ _ => none, fun _ _ _ => none⟩
  clock _ _ := sampleTime
  faults _ := []

/-- A peer's policy with one zone. -/
def peerPolicy : ReplicatedPolicy where
  policy := { zones := [{ name := "lan", interfaces := ["eth0"] }] }
  comment := "pull"
  ackRisk := true
  ackRuntime := true
  sourceVersion := 7

/-- An action without a failure. -/
def Action.isCalm : Action → Bool
  | .engine c => c.error.isNone
  | .activation (.error _) => false
  | _ => true

theorem undone_of_isCalm {actions : List Action} (h : actions.all Action.isCalm = true) :
    Undone actions := by
  rw [List.all_eq_true] at h
  have hcalls : ∀ c ∈ engineCalls actions, c.error = none := by
    intro c hc
    obtain ⟨a, ha, hac⟩ := List.mem_filterMap.mp hc
    have hcalm := h a ha
    cases a with
    | engine d =>
        cases hac
        simpa [Action.isCalm] using hcalm
    | _ => cases hac
  refine ⟨fun pre c post heq _ r hr => ?_, fun result hmem => ?_⟩
  · exact hcalls r (by rw [heq]; simp [hr])
  · have hcalm := h _ hmem
    cases result with
    | ok u => rfl
    | error e => cases hcalm

theorem sampleWorld_inSync : InSync sampleServer sampleWorld := by
  cases h : sampleServer.render {} with
  | error e =>
      have : (sampleServer.render {}).toOption.isSome = true := by decide +kernel
      rw [h] at this
      cases this
  | ok artifacts =>
      refine ⟨{}, 0, artifacts, rfl, h, fun e _ => ?_⟩
      simp only [sampleWorld, h]
      rfl

theorem pull_calm :
    ((sampleServer.ApplyReplicatedPolicy calmEnv peerPolicy sampleWorld).1.actions.all
      Action.isCalm) = true := by
  decide +kernel

/-- The run of a node that boots and pulls its peer's policy once. -/
def pullCalls : List ServerCall := [.applyReplicatedPolicy calmEnv peerPolicy]

theorem pullCalls_undone : ∀ ev ∈ serverHistory sampleServer sampleWorld pullCalls,
    ∀ o, ev.output = some o → Undone o.actions := by
  intro ev hev o ho
  rw [List.mem_singleton.mp hev, exec_applyReplicatedPolicy] at ho
  rw [← Option.some.inj ho]
  exact undone_of_isCalm pull_calm

theorem engines_in_step_pull :
    (sampleServer.ApplyReplicatedPolicy calmEnv peerPolicy sampleWorld).2.db.running = some 1 ∧
      ∀ ev ∈ serverHistory sampleServer sampleWorld pullCalls, InSync sampleServer ev.after :=
  ⟨by decide +kernel, fun ev hev => (engines_in_step (fun _ he => he) versionsWell_empty
    sampleWorld_inSync pullCalls_undone ev hev).1⟩

end Phragma.Apiserver
