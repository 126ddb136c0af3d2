import Phragma.Apiserver.RiskGate
import Phragma.Intel.Refresh

/-!
# Phragma.Apiserver.IntelReload

**The blocklist sets through reloads of the ruleset.** Every ruleset begins by deleting its table,
so a load leaves `intel4` and `intel6` empty; the updater (`internal/intel/updater.go`) fills them
again in a goroutine of its own. It wakes every hour, and on a trigger: `controld` sends one when it
starts and in `OnCommit`, into a channel of capacity one, and drops it when one is waiting there.

A `Node` is the policy server beside its updater, and the calls of the one come in any order with
the steps of the other. `Attended` says that the enabled feeds are or will be in the sets. A
successful call leaves a trigger. A call that fails after it has loaded the ruleset does not,
whatever it restores: those calls, and only those, end the attendance (`attended_iff`).
-/

namespace Phragma.Apiserver

open Lib Go Policy Engines Renderers Store Intel

/-! ### The node -/

/-- `Updater.RunningPolicy`: the running policy of the store. -/
def runningPolicy (db : DB) : Except String Phragma.Policy :=
  match GetRunning db with
  | .error e => .error e.text
  | .ok (p, _) => .ok p

/-- Where `Updater.Run` is: in its `select`, before the refresh that follows, or in that refresh
with the policy it has read. -/
inductive RunPhase
  | waiting
  | woken
  | refreshing (policy : Except String Phragma.Policy)

/-- A policy server and its updater. -/
structure Node where
  world : World
  updater : Updater := {}
  /-- Whether a trigger is in the channel. -/
  intelTrigger : Bool := false
  phase : RunPhase := .waiting
  /-- The last refresh that ended since the ruleset was last loaded. -/
  refilled : Option Surroundings := none

/-- A successful load of the ruleset. -/
def Action.loads : Action → Bool
  | .engine c => c.engine == NftablesName && c.error.isNone
  | _ => false

/-- What an action of the server does to the sets and to the trigger. -/
def Node.act (n : Node) (a : Action) : Node :=
  match a with
  | .onCommit => { n with intelTrigger := true }
  | a =>
      if a.loads then { n with updater := { n.updater with sets := {} }, refilled := none } else n

/-- A step of the server or of the updater. -/
inductive NodeCall
  | server (c : ServerCall)
  /-- The `select` of `Run` returns, by its timer or by a trigger. -/
  | wake (triggered : Bool)
  /-- `Refresh` reads the running policy. -/
  | read
  /-- The rest of `Refresh`. -/
  | finish (w : Surroundings)

/-- The `select` of `Run`; without a trigger in the channel a trigger does not wake it. -/
def Node.wake (triggered : Bool) (n : Node) : Node :=
  match n.phase with
  | .waiting =>
      if triggered then
        if n.intelTrigger then { n with intelTrigger := false, phase := .woken } else n
      else { n with phase := .woken }
  | _ => n

/-- The beginning of `Refresh`. -/
def Node.read (n : Node) : Node :=
  match n.phase with
  | .woken => { n with phase := .refreshing (runningPolicy n.world.db) }
  | _ => n

/-- The rest of `Refresh`, which touches the sets only at its end. -/
def Node.finish (w : Surroundings) (n : Node) : Node :=
  match n.phase with
  | .refreshing policy =>
      { n with
        updater := (Refresh { w with runningPolicy := policy } n.updater).2
        phase := .waiting
        refilled := some { w with runningPolicy := policy } }
  | _ => n

/-- One step. A step of the updater that is not its next one does nothing. -/
def Server.execNode (S : Server) : NodeCall → Node → Option Outcome × Node
  | .server c, n =>
      match S.exec c n.world with
      | (none, world) => (none, { n with world })
      | (some o, world) => (some o, o.actions.foldl Node.act { n with world })
  | .wake triggered, n => (none, n.wake triggered)
  | .read, n => (none, n.read)
  | .finish w, n => (none, n.finish w)

/-- The record of a run of the node. -/
def intelHistory (S : Server) (n : Node) (calls : List NodeCall) :
    List (Event NodeCall Node (Option Outcome)) :=
  history S.execNode n calls

/-- The part of `main` that applies the running policy again when `controld` starts. -/
def Server.boot (S : Server) (outcomes : Outcomes String) (w : World) : Except String Node :=
  match GetRunning w.db with
  | .error e => .error ("read running policy: " ++ e.text)
  | .ok (p, ver) =>
      if 0 < ver then
        match S.render p with
        | .error err => .error ("render running policy v" ++ decimal ver ++ ": " ++ err)
        | .ok artifacts =>
            match S.sup.Apply outcomes artifacts [] with
            | (some err, _) => .error ("re-apply running policy v" ++ decimal ver ++ ": " ++ err)
            | (none, calls) =>
                .ok { world := ⟨w.db, holds w.hold calls⟩, intelTrigger := true }
      else .ok { world := w }

/-! ### What a call does to the node

A call that commits loads the ruleset first and triggers last. What it does in between to the
engines does not concern the sets. -/

/-- The actions of a call load the ruleset. -/
def Loads (actions : List Action) : Prop := ∃ a ∈ actions, a.loads = true

theorem not_loads_nil : ¬ Loads [] := by
  rintro ⟨a, ha, -⟩
  cases ha

theorem loads_cons {a : Action} {actions : List Action} :
    Loads (a :: actions) ↔ a.loads = true ∨ Loads actions := by
  unfold Loads
  exact List.exists_mem_cons_iff _ _ _

/-- What some actions of the server leave of a node. -/
structure Acted (actions : List Action) (n n' : Node) : Prop where
  world : n'.world = n.world
  phase : n'.phase = n.phase
  trigger : n'.intelTrigger = true ↔ n.intelTrigger = true ∨ Action.onCommit ∈ actions
  loaded : Loads actions → n'.refilled = none ∧ n'.updater.sets = {}
  untouched : ¬ Loads actions → n'.refilled = n.refilled ∧ n'.updater = n.updater

theorem act_acted (n : Node) (a : Action) : Acted [a] n (n.act a) := by
  have hone : Loads [a] ↔ a.loads = true := by
    rw [loads_cons]
    exact or_iff_left not_loads_nil
  cases a with
  | onCommit =>
      refine ⟨rfl, rfl, iff_of_true rfl (.inr List.mem_cons_self), fun h => ?_, fun _ => ⟨rfl, rfl⟩⟩
      cases hone.mp h
  | engine c =>
      have htrigger : ¬ Action.onCommit ∈ [Action.engine c] := by
        intro h
        cases List.mem_singleton.mp h
      cases hload : (Action.engine c).loads with
      | true =>
          refine ⟨?_, ?_, ?_, fun _ => ?_, fun h => absurd (hone.mpr hload) h⟩
          all_goals simp [Node.act, hload]
      | false =>
          have hact : n.act (.engine c) = n := by
            unfold Node.act
            simp only [hload, Bool.false_eq_true, if_false]
          rw [hact]
          refine ⟨rfl, rfl, (or_iff_left htrigger).symm, fun h => ?_, fun _ => ⟨rfl, rfl⟩⟩
          rw [hone, hload] at h
          cases h
  | durable id db =>
      refine ⟨rfl, rfl, (or_iff_left ?_).symm, fun h => ?_, fun _ => ⟨rfl, rfl⟩⟩
      · intro h
        cases List.mem_singleton.mp h
      · cases hone.mp h
  | activation result =>
      refine ⟨rfl, rfl, (or_iff_left ?_).symm, fun h => ?_, fun _ => ⟨rfl, rfl⟩⟩
      · intro h
        cases List.mem_singleton.mp h
      · cases hone.mp h

theorem foldl_act (actions : List Action) (n : Node) :
    Acted actions n (actions.foldl Node.act n) := by
  induction actions generalizing n with
  | nil =>
      refine ⟨rfl, rfl, (or_iff_left ?_).symm, fun h => absurd h not_loads_nil, fun _ => ⟨rfl, rfl⟩⟩
      intro h
      cases h
  | cons a actions ih =>
      have hone := act_acted n a
      have hrest := ih (n.act a)
      rw [List.foldl_cons]
      refine ⟨hrest.world.trans hone.world, hrest.phase.trans hone.phase, ?_, ?_, ?_⟩
      · rw [hrest.trigger, hone.trigger, List.mem_singleton, List.mem_cons, or_assoc]
      · intro hloads
        by_cases hlater : Loads actions
        · exact hrest.loaded hlater
        · obtain ⟨hrefilled, hupdater⟩ := hrest.untouched hlater
          have hnow := hone.loaded
            (loads_cons.mpr (.inl ((loads_cons.mp hloads).resolve_right hlater)))
          exact ⟨hrefilled.trans hnow.1, hupdater ▸ hnow.2⟩
      · intro hloads
        have hfirst : ¬ Loads [a] := fun h => hloads
          (loads_cons.mpr (.inl ((loads_cons.mp h).resolve_right not_loads_nil)))
        have hlater : ¬ Loads actions := fun h => hloads (loads_cons.mpr (.inr h))
        obtain ⟨hrefilled, hupdater⟩ := hrest.untouched hlater
        obtain ⟨hrefilled', hupdater'⟩ := hone.untouched hfirst
        exact ⟨hrefilled.trans hrefilled', hupdater.trans hupdater'⟩

/-! ### What a call of the server does -/

/-- The packet filter comes first, as in `controldSupervisor`. -/
def NftablesFirst (s : Supervisor) : Prop := ∃ rest, s.engines = NftablesName :: rest

/-- An engine other than the packet filter is called. -/
def ReachesOthers (actions : List Action) : Prop :=
  ∃ c, Action.engine c ∈ actions ∧ c.engine ≠ NftablesName

/-- **Only a call that succeeds sends a trigger**, and only such a call moves the running policy;
but one that gets past the packet filter has loaded the ruleset. -/
structure Told (S : Server) (w : World) (r : Outcome × World) : Prop where
  onCommit : Action.onCommit ∈ r.1.actions ↔ ∃ a, r.1.result = .ok a
  unmoved : ∀ status, r.1.result = .error status → runningPolicy r.2.db = runningPolicy w.db
  loads : NftablesFirst S.sup → ReachesOthers r.1.actions → Loads r.1.actions

theorem runningPolicy_eq {db db' : DB} (h : GetRunning db' = GetRunning db) :
    runningPolicy db' = runningPolicy db := by
  unfold runningPolicy
  rw [h]

theorem runningPolicy_of_kept {db db' : DB} (hw : VersionsWell db) (h : Kept db db') :
    runningPolicy db' = runningPolicy db :=
  runningPolicy_eq (getRunning_eq hw h.running h.versions)

variable {S : Server} {env : Env}

/-- A call that fails without a trigger and keeps what it should. -/
theorem told_of_kept {w : World} {status : Status} {actions : List Action} {w' : World}
    (hw : VersionsWell w.db) (hno : Action.onCommit ∉ actions) (h : Kept w.db w'.db)
    (hloads : NftablesFirst S.sup → ReachesOthers actions → Loads actions) :
    Told S w (⟨.error status, actions⟩, w') where
  onCommit := by
    refine iff_of_false hno ?_
    rintro ⟨a, ha⟩
    cases ha
  unmoved _ _ := runningPolicy_of_kept hw h
  loads := hloads

/-- The same of a call that touches no engine. -/
theorem told_of_idle {w : World} {status : Status} {w' : World} (hw : VersionsWell w.db)
    (h : Kept w.db w'.db) : Told S w (⟨.error status, []⟩, w') := by
  refine told_of_kept hw List.not_mem_nil h ?_
  rintro - ⟨c, hc, -⟩
  cases hc

theorem loads_append_left {a b : List Action} (h : Loads a) : Loads (a ++ b) := by
  obtain ⟨x, hx, hload⟩ := h
  exact ⟨x, List.mem_append_left _ hx, hload⟩

theorem loads_of_call {id : Nat} {db : DB} {calls : List (Engines.Call String)} {cfg : String}
    (h : ⟨NftablesName, cfg, none⟩ ∈ calls) : Loads (.durable id db :: calls.map .engine) :=
  ⟨_, List.mem_cons_of_mem _ (List.mem_map_of_mem h), rfl⟩

theorem okCalls_first {next : Artifacts String} {rest : List String} {cfg : String}
    (h : next.get NftablesName = some cfg) :
    ⟨NftablesName, cfg, none⟩ ∈ okCalls next (NftablesName :: rest) := by
  rw [okCalls_cons_some h]
  exact List.mem_cons_self

/-- **Past the packet filter the ruleset is loaded.** -/
theorem loads_of_apply {id : Nat} {db : DB} {next prev : Artifacts String} {err : Option String}
    {calls : List (Engines.Call String)} (hnext : (next.get NftablesName).isSome)
    (h : S.sup.Apply env.outcomes next prev = (err, calls)) (hfirst : NftablesFirst S.sup)
    (hothers : ReachesOthers (.durable id db :: calls.map .engine)) :
    Loads (.durable id db :: calls.map .engine) := by
  obtain ⟨rest, hrest⟩ := hfirst
  obtain ⟨cfg, hcfg⟩ := Option.isSome_iff_exists.mp hnext
  cases err with
  | none =>
      have hcalls := Apply_applied h
      rw [hrest] at hcalls
      exact loads_of_call (hcalls ▸ okCalls_first hcfg)
  | some err =>
      obtain ⟨pre, e, post, failed, reason, restores, hengines, -, rfl, hmem, -, -⟩ :=
        Apply_failed h
      cases pre with
      | cons first pre =>
          rw [hrest] at hengines
          obtain ⟨rfl, -⟩ := List.cons.inj hengines
          exact loads_of_call (List.mem_append_left _ (okCalls_first hcfg))
      | nil =>
          -- the packet filter itself failed, and then nothing else is called
          rw [hrest] at hengines
          obtain ⟨rfl, -⟩ := List.cons.inj hengines
          obtain ⟨c, hc, hne⟩ := hothers
          have hc : c ∈ okCalls next [] ++ ⟨NftablesName, failed, some reason⟩ :: restores := by
            rcases List.mem_cons.mp hc with hc | hc
            · cases hc
            · obtain ⟨d, hd, heq⟩ := List.mem_map.mp hc
              cases heq
              exact hd
          rcases List.mem_append.mp hc with hc | hc
          · cases (mem_okCalls.mp hc).1
          · rcases List.mem_cons.mp hc with rfl | hc
            · exact absurd rfl hne
            · rcases (hmem c hc).1 with heq | hswitched
              · exact absurd heq hne
              · cases (List.mem_filter.mp hswitched).1

/-- Every policy has a ruleset. -/
theorem ruleset_of_render {p : Phragma.Policy} {artifacts : Artifacts String}
    (h : S.render p = .ok artifacts) : (artifacts.get NftablesName).isSome := by
  rw [Artifacts.get, isSome_lookup_iff, RenderAll_names h]
  exact List.mem_append_left _ (by decide)

theorem onCommit_not_mem_calls {id : Nat} {db : DB} (calls : List (Engines.Call String)) :
    Action.onCommit ∉ Action.durable id db :: calls.map .engine := by
  intro h
  rcases List.mem_cons.mp h with h | h
  · cases h
  · obtain ⟨c, -, hc⟩ := List.mem_map.mp h
    cases hc

theorem activate_told {w : World} {db : DB} {action comment : String} {id : Nat} {plan : Plan}
    {calls : List (Engines.Call String)} {hold : String → Option String} (hw : VersionsWell w.db)
    (hkept : Kept w.db db) (hloads : NftablesFirst S.sup →
      ReachesOthers (.durable id db :: calls.map .engine) →
      Loads (.durable id db :: calls.map .engine)) :
    Told S w (S.activate env action comment id plan (.durable id db :: calls.map .engine)
      ⟨db, hold⟩) := by
  have hothers : ∀ {more : List Action}, (∀ a ∈ more, ∀ c, a ≠ .engine c) →
      NftablesFirst S.sup → ReachesOthers ((.durable id db :: calls.map .engine) ++ more) →
      Loads ((.durable id db :: calls.map .engine) ++ more) := by
    rintro more hmore hfirst ⟨c, hc, hne⟩
    rcases List.mem_append.mp hc with hc | hc
    · exact loads_append_left (hloads hfirst ⟨c, hc, hne⟩)
    · exact absurd rfl (hmore _ hc c)
  unfold Server.activate transact
  rcases Tx.update_cases .bolt (env.faults .activate) (ActivatePreparedVersion S.D
    (env.clock .activate) id env.identity (GoString.ofString action) (GoString.ofString comment)) db
    with ⟨e, he⟩ | ⟨u, db', he, hy⟩
  · -- the pointer was not moved: the failure is recorded, and the engines hold the new artifacts
    rw [he]
    refine told_of_kept hw ?_ (hkept.trans (recordFailure_kept S env _ _ _ _ hkept.well))
      (hothers ?_)
    · intro h
      rcases List.mem_append.mp h with h | h
      · exact onCommit_not_mem_calls calls h
      · cases List.mem_singleton.mp h
    · intro a ha c heq
      rw [List.mem_singleton.mp ha] at heq
      cases heq
  · -- it was moved, and the channel is told
    rw [he]
    obtain ⟨-, -, -, info, hinfo⟩ := activateTx_ok (S := S) hkept.well hy
    have hok : activatedResult db' id plan.prevVersion = .ok (id, plan.prevVersion, info) := by
      simp only [activatedResult, hinfo]
    refine ⟨iff_of_true ?_ ⟨_, hok⟩, fun status hstatus => ?_, hothers ?_⟩
    · exact List.mem_append_right _ (List.mem_cons_of_mem _ List.mem_cons_self)
    · dsimp only at hstatus
      rw [hok] at hstatus
      cases hstatus
    · intro a ha c heq
      rw [heq] at ha
      simp at ha

theorem apply_told {w : World} (hw : VersionsWell w.db) {p : Phragma.Policy}
    {action comment approvalID : String} {ackRisk ackRuntime : Bool} {sourceVersion : Nat}
    {revision : GoString} :
    Told S w
      (S.apply env p action comment ackRisk ackRuntime sourceVersion approvalID revision w) := by
  unfold Server.apply
  dsimp only
  cases hplan : S.plan env (NormalizeRuleIDs S.H p).1 action ackRisk ackRuntime approvalID w.db with
  | error failure =>
      exact told_of_idle hw (recordFailure_kept S env _ _ _ _ hw)
  | ok plan =>
      dsimp only
      unfold transact
      rcases Tx.update_cases .bolt (env.faults .prepare) (S.prepareTx env
        (NormalizeRuleIDs S.H p).1 action comment plan.artifacts sourceVersion approvalID revision)
        w.db with ⟨e, he⟩ | ⟨id, db, he, hy⟩
      · rw [he]
        exact told_of_idle hw (recordFailure_kept S env _ _ _ _ hw)
      · rw [he]
        obtain ⟨hkept, -, -⟩ := prepareTx_ok hw hy
        dsimp only
        unfold Server.switch
        have hruleset := ruleset_of_render (plan_ok hplan).1
        split
        · next calls happly =>
            exact told_of_kept hw (onCommit_not_mem_calls calls)
              (hkept.trans (recordFailure_kept S env _ _ _ _ hkept.well))
              (loads_of_apply hruleset happly)
        · next calls happly => exact activate_told hw hkept (loads_of_apply hruleset happly)

theorem refused_told {w : World} {status : Status} (hw : VersionsWell w.db) :
    Told S w (refused status w) := told_of_idle hw (.refl hw)

section

variable {w : World} (hw : VersionsWell w.db)

include hw

theorem Commit_told (req : CommitRequest) : Told S w (S.Commit env req w) := by
  unfold Server.Commit
  split
  · exact refused_told hw
  · exact apply_told hw

theorem Rollback_told (req : RollbackRequest) : Told S w (S.Rollback env req w) := by
  unfold Server.Rollback
  split
  · exact refused_told hw
  · exact apply_told hw

theorem ApplyReplicatedPolicy_told (r : ReplicatedPolicy) :
    Told S w (S.ApplyReplicatedPolicy env r w) := by
  unfold Server.ApplyReplicatedPolicy
  split
  · exact refused_told hw
  · exact apply_told hw

/-- **One call**: staging, which leaves the running policy, or a call with its outcome. -/
theorem exec_told (call : ServerCall) :
    ((S.exec call w).1 = none ∧ runningPolicy (S.exec call w).2.db = runningPolicy w.db) ∨
      ∃ o, (S.exec call w).1 = some o ∧ Told S w (o, (S.exec call w).2) := by
  cases call with
  | commit env req => exact .inr ⟨_, rfl, Commit_told hw req⟩
  | rollback env req => exact .inr ⟨_, rfl, Rollback_told hw req⟩
  | applyReplicatedPolicy env r => exact .inr ⟨_, rfl, ApplyReplicatedPolicy_told hw r⟩
  | staging c h =>
      exact .inl ⟨rfl, runningPolicy_eq (getRunning_eq hw (staging_running h)
        (exec_versionsKept c hw))⟩

end

/-! ### What a step does to the node

Each step of updater or server changes one part of the node, and says which. -/

/-- **What a step of the updater can do.** -/
inductive Updated (n : Node) : Node → Prop
  | same : Updated n n
  | woken (trigger : Bool) (waiting : n.phase = .waiting) :
      Updated n { n with intelTrigger := trigger, phase := .woken }
  | read (woken : n.phase = .woken) :
      Updated n { n with phase := .refreshing (runningPolicy n.world.db) }
  | finish (policy : Except String Phragma.Policy) (w : Surroundings)
      (refreshing : n.phase = .refreshing policy) (read : w.runningPolicy = policy) :
      Updated n { n with updater := (Refresh w n.updater).2, phase := .waiting, refilled := some w }

theorem wake_updated (n : Node) (triggered : Bool) : Updated n (n.wake triggered) := by
  unfold Node.wake
  split
  · next hphase =>
      split
      · split
        · exact .woken false hphase
        · exact .same
      · exact .woken n.intelTrigger hphase
  · exact .same

theorem read_updated (n : Node) : Updated n n.read := by
  unfold Node.read
  split
  · next hphase => exact .read hphase
  · exact .same

theorem finish_updated (n : Node) (w : Surroundings) : Updated n (n.finish w) := by
  unfold Node.finish
  split
  · next policy hphase => exact .finish policy _ hphase rfl
  · exact .same

/-- **One step**: staging, a call of the server with its outcome, or a step of the updater. -/
theorem execNode_cases {n : Node} (hw : VersionsWell n.world.db) (call : NodeCall) :
    (∃ world, S.execNode call n = (none, { n with world }) ∧
      runningPolicy world.db = runningPolicy n.world.db ∧ VersionsWell world.db) ∨
    (∃ o n', S.execNode call n = (some o, n') ∧ Told S n.world (o, n'.world) ∧
      Acted o.actions { n with world := n'.world } n' ∧ VersionsWell n'.world.db) ∨
    ∃ n', S.execNode call n = (none, n') ∧ Updated n n' := by
  cases call with
  | server c =>
      have htold := exec_told (S := S) hw c
      have hwell := (exec_moved (S := S) hw c).2
      cases hexec : S.exec c n.world with
      | mk out world =>
        rw [hexec] at htold hwell
        rcases htold with ⟨hnone, hpolicy⟩ | ⟨o, hsome, htold⟩
        · dsimp only at hnone hpolicy
          refine .inl ⟨world, ?_, hpolicy, hwell⟩
          simp only [Server.execNode, hexec, hnone]
        · dsimp only at hsome htold
          have hacted := foldl_act o.actions { n with world }
          refine .inr (.inl ⟨o, o.actions.foldl Node.act { n with world }, ?_, ?_, ?_, ?_⟩)
          · simp only [Server.execNode, hexec, hsome]
          · rw [hacted.world]
            exact htold
          · rw [hacted.world]
            exact hacted
          · rw [hacted.world]
            exact hwell
  | wake triggered => exact .inr (.inr ⟨_, rfl, wake_updated n triggered⟩)
  | read => exact .inr (.inr ⟨_, rfl, read_updated n⟩)
  | finish w => exact .inr (.inr ⟨_, rfl, finish_updated n w⟩)

/-! ### Attendance

The feeds are in the sets, or a trigger waits, or the updater is on its way. Loads take the first
away and triggers bring the second. -/

/-- The feeds that the running policy enables, where there are any. -/
def FeedsOn (db : DB) (feeds : List Feed) : Prop :=
  ∃ p, runningPolicy db = .ok p ∧ EnabledFeeds p.intel = .ok feeds ∧ feeds ≠ []

/-- **The feeds are attended to**: if some are enabled, a trigger is waiting, or the updater is
awake and will refresh by the running policy, or it has done so since the ruleset was loaded. -/
def Attended (n : Node) : Prop :=
  ∀ feeds, FeedsOn n.world.db feeds → n.intelTrigger = true ∨ n.phase = .woken ∨
    n.phase = .refreshing (runningPolicy n.world.db) ∨
    n.phase = .waiting ∧ ∃ w, n.refilled = some w ∧ w.runningPolicy = runningPolicy n.world.db

/-- The sets are as the last refresh left them. -/
def Filled (n : Node) : Prop := ∀ w, n.refilled = some w → ∃ u, n.updater = (Refresh w u).2

/-- A call that fails after it loaded the ruleset, on a node with feeds whose updater is at rest. -/
def Forgotten (ev : Event NodeCall Node (Option Outcome)) : Prop :=
  ∃ o status feeds, ev.output = some o ∧ o.result = .error status ∧ Loads o.actions ∧
    FeedsOn ev.before.world.db feeds ∧ ev.before.intelTrigger = false ∧ ev.before.phase = .waiting

theorem FeedsOn.congr {db db' : DB} {feeds : List Feed} (h : FeedsOn db feeds)
    (heq : runningPolicy db' = runningPolicy db) : FeedsOn db' feeds := by
  unfold FeedsOn
  rw [heq]
  exact h

/-- A node at rest. -/
theorem Attended.refilled {n : Node} (h : Attended n) (hphase : n.phase = .waiting)
    (htrigger : n.intelTrigger = false) {feeds : List Feed} (hfeeds : FeedsOn n.world.db feeds) :
    ∃ w, n.refilled = some w ∧ w.runningPolicy = runningPolicy n.world.db := by
  rcases h feeds hfeeds with h | h | h | ⟨-, h⟩
  · rw [htrigger] at h
    cases h
  · rw [hphase] at h
    cases h
  · rw [hphase] at h
    cases h
  · exact h

/-- A node whose running policy, updater and trigger are as they were. -/
theorem Attended.congr {n n' : Node} (h : Attended n)
    (hpolicy : runningPolicy n'.world.db = runningPolicy n.world.db)
    (htrigger : n'.intelTrigger = n.intelTrigger) (hphase : n'.phase = n.phase)
    (hrefilled : n'.refilled = n.refilled) : Attended n' := by
  intro feeds hfeeds
  rw [htrigger, hphase, hrefilled, hpolicy]
  exact h feeds (hfeeds.congr hpolicy.symm)

theorem server_attended {n n' : Node} {o : Outcome} {call : NodeCall} (h : Attended n)
    (htold : Told S n.world (o, n'.world))
    (hacted : Acted o.actions { n with world := n'.world } n')
    (hno : ¬ Forgotten ⟨call, n, some o, n'⟩) : Attended n' := by
  cases hresult : o.result with
  | ok a =>
      -- the trigger is there
      intro feeds _
      exact .inl (hacted.trigger.mpr (.inr (htold.onCommit.mpr ⟨a, hresult⟩)))
  | error status =>
      have hpolicy : runningPolicy n'.world.db = runningPolicy n.world.db :=
        htold.unmoved status hresult
      have hcommit : Action.onCommit ∉ o.actions := by
        intro hmem
        obtain ⟨a, ha⟩ := htold.onCommit.mp hmem
        rw [hresult] at ha
        cases ha
      have htrigger : n'.intelTrigger = n.intelTrigger :=
        Bool.eq_iff_iff.mpr (hacted.trigger.trans (or_iff_left hcommit))
      by_cases hloads : Loads o.actions
      · intro feeds hfeeds
        have hbefore := hfeeds.congr hpolicy.symm
        rw [htrigger, hacted.phase, hpolicy]
        rcases h feeds hbefore with htrue | hwoken | hrefreshing | ⟨hwaiting, -⟩
        · exact .inl htrue
        · exact .inr (.inl hwoken)
        · exact .inr (.inr (.inl hrefreshing))
        · refine .inl ?_
          by_contra hfalse
          exact hno ⟨o, status, feeds, rfl, hresult, hloads, hbefore, Bool.eq_false_of_not_eq_true
            hfalse, hwaiting⟩
      · exact h.congr hpolicy htrigger hacted.phase (hacted.untouched hloads).1

/-- The refresh that was under way by the policy that is running. -/
theorem updated_attended {n n' : Node} (h : Attended n) (hstep : Updated n n') : Attended n' := by
  cases hstep with
  | same => exact h
  | woken trigger hphase => exact fun _ _ => .inr (.inl rfl)
  | read hphase => exact fun _ _ => .inr (.inr (.inl rfl))
  | finish policy w hphase hpolicy =>
      intro feeds hfeeds
      rcases h feeds hfeeds with htrue | hwoken | hrefreshing | ⟨hwaiting, -⟩
      · exact .inl htrue
      · rw [hphase] at hwoken
        cases hwoken
      · -- it had read the policy that is running now
        rw [hphase] at hrefreshing
        cases hrefreshing
        exact .inr (.inr (.inr ⟨rfl, w, rfl, hpolicy⟩))
      · rw [hphase] at hwaiting
        cases hwaiting

/-- **One step.** -/
theorem execNode_attended {n : Node} (hw : VersionsWell n.world.db) (h : Attended n)
    {call : NodeCall}
    (hno : ¬ Forgotten ⟨call, n, (S.execNode call n).1, (S.execNode call n).2⟩) :
    Attended (S.execNode call n).2 := by
  rcases execNode_cases (S := S) hw call with
    ⟨world, hexec, hpolicy, -⟩ | ⟨o, n', hexec, htold, hacted, -⟩ | ⟨n', hexec, hstep⟩
  · rw [hexec]
    exact h.congr hpolicy rfl rfl rfl
  · rw [hexec] at hno ⊢
    exact server_attended h htold hacted hno
  · rw [hexec]
    exact updated_attended h hstep

theorem execNode_versionsWell {n : Node} (hw : VersionsWell n.world.db) (call : NodeCall) :
    VersionsWell (S.execNode call n).2.world.db := by
  rcases execNode_cases (S := S) hw call with
    ⟨world, hexec, -, hwell⟩ | ⟨o, n', hexec, -, -, hwell⟩ | ⟨n', hexec, hstep⟩
  · rw [hexec]
    exact hwell
  · rw [hexec]
    exact hwell
  · rw [hexec]
    cases hstep <;> exact hw

theorem execNode_filled {n : Node} (hw : VersionsWell n.world.db) (h : Filled n) (call : NodeCall) :
    Filled (S.execNode call n).2 := by
  rcases execNode_cases (S := S) hw call with
    ⟨world, hexec, -, -⟩ | ⟨o, n', hexec, -, hacted, -⟩ | ⟨n', hexec, hstep⟩
  · rw [hexec]
    exact h
  · rw [hexec]
    intro w hrefilled
    dsimp only at hrefilled ⊢
    by_cases hloads : Loads o.actions
    · rw [(hacted.loaded hloads).1] at hrefilled
      cases hrefilled
    · obtain ⟨hsame, hupdater⟩ := hacted.untouched hloads
      rw [hsame] at hrefilled
      rw [hupdater]
      exact h w hrefilled
  · rw [hexec]
    cases hstep with
    | same => exact h
    | woken trigger hphase => exact h
    | read hphase => exact h
    | finish policy w hphase hpolicy =>
        intro w' hrefilled
        cases hrefilled
        exact ⟨n.updater, rfl⟩

/-- What a forgetful call leaves: empty sets, and nothing that will fill them. -/
theorem Forgotten.leaves {n : Node} {call : NodeCall} (hw : VersionsWell n.world.db)
    (h : Forgotten ⟨call, n, (S.execNode call n).1, (S.execNode call n).2⟩) :
    (S.execNode call n).2.updater.sets = {} ∧ ¬ Attended (S.execNode call n).2 := by
  obtain ⟨o, status, feeds, hout, hresult, hloads, hfeeds, htrigger, hphase⟩ := h
  dsimp only at hout hfeeds htrigger hphase
  rcases execNode_cases (S := S) hw call with
    ⟨world, hexec, -, -⟩ | ⟨o', n', hexec, htold, hacted, -⟩ | ⟨n', hexec, -⟩
  · rw [hexec] at hout
    cases hout
  · rw [hexec] at hout ⊢
    cases hout
    obtain ⟨hrefilled, hsets⟩ := hacted.loaded hloads
    refine ⟨hsets, fun hattended => ?_⟩
    have hcommit : Action.onCommit ∉ o.actions := by
      intro hmem
      obtain ⟨a, ha⟩ := htold.onCommit.mp hmem
      rw [hresult] at ha
      cases ha
    have hrest : n'.intelTrigger = false := by
      refine Bool.eq_false_of_not_eq_true fun htrue => ?_
      rcases hacted.trigger.mp htrue with h | h
      · rw [show n.intelTrigger = true from h] at htrigger
        cases htrigger
      · exact hcommit h
    obtain ⟨w, hw, -⟩ := hattended.refilled (hacted.phase.trans hphase) hrest
      (hfeeds.congr (htold.unmoved status hresult))
    dsimp only at hw
    rw [hrefilled] at hw
    cases hw
  · rw [hexec] at hout
    cases hout

/-! ### Runs -/

/-- Of a store without versions nothing is enabled. -/
theorem not_feedsOn_of_unversioned {db : DB} {p : Phragma.Policy} {ver : Nat} {feeds : List Feed}
    (hzero : db.running ≠ some 0) (hrun : GetRunning db = .ok (p, ver)) (hver : ¬ 0 < ver) :
    ¬ FeedsOn db feeds := by
  have hempty : p = {} := by
    unfold GetRunning at hrun
    split at hrun
    · cases hrun
      rfl
    · next id hid =>
        split at hrun
        · cases hrun
        · cases hrun
          rw [Nat.eq_zero_of_not_pos hver] at hid
          exact absurd hid hzero
  rintro ⟨q, hq, hfeeds, hne⟩
  unfold runningPolicy at hq
  rw [hrun] at hq
  cases hq
  rw [hempty] at hfeeds
  cases hfeeds
  exact hne rfl

theorem boot_attended {outcomes : Outcomes String} {w : World} {n : Node}
    (hw : VersionsWell w.db) (hzero : w.db.running ≠ some 0) (h : S.boot outcomes w = .ok n) :
    VersionsWell n.world.db ∧ Attended n ∧ Filled n := by
  unfold Server.boot at h
  split at h
  · cases h
  · next p ver hrun =>
      split at h
      · split at h
        · cases h
        · next artifacts _ =>
            split at h
            · cases h
            · cases h
              refine ⟨hw, fun _ _ => .inl rfl, ?_⟩
              intro w' hrefilled
              cases hrefilled
      · next hver =>
          cases h
          refine ⟨hw, fun feeds hfeeds => ?_, ?_⟩
          · exact absurd hfeeds (not_feedsOn_of_unversioned hzero hrun hver)
          · intro w' hrefilled
            cases hrefilled

/-- **The feeds through reloads.** Let a node boot on a well-formed store, and take any run of
commits, rollbacks, replicated applies and staging, with failures wherever they happen, in any order
with the steps of the updater. The feeds are attended to all along exactly when no call fails after
it has loaded the ruleset while the updater is at rest; such a call leaves the sets empty. And
wherever they are attended to and the updater is at rest, the last refresh was by the running
policy, and if `nft` took it, the sets are what that refresh downloaded. -/
theorem attended_iff {outcomes : Outcomes String} {w : World} {n : Node} (hw : VersionsWell w.db)
    (hzero : w.db.running ≠ some 0) (hboot : S.boot outcomes w = .ok n) (calls : List NodeCall) :
    ((∀ ev ∈ intelHistory S n calls, Attended ev.after) ↔
      ∀ ev ∈ intelHistory S n calls, ¬ Forgotten ev) ∧
    (∀ ev ∈ intelHistory S n calls, Forgotten ev → ev.after.updater.sets = {}) ∧
    ∀ ev ∈ intelHistory S n calls, Attended ev.after → ev.after.phase = .waiting →
      ev.after.intelTrigger = false → ∀ feeds, FeedsOn ev.after.world.db feeds →
        ∃ last, ev.after.refilled = some last ∧
          last.runningPolicy = runningPolicy ev.after.world.db ∧
          (last.nft = .ok () → ev.after.updater.sets = normalizedSets last feeds) := by
  obtain ⟨hwell, hattended, hfilled⟩ := boot_attended hw hzero hboot
  have hinv := @history_invariant _ _ _ S.execNode (fun n => VersionsWell n.world.db ∧ Filled n)
    (fun _ => True)
    (fun call n _ h => ⟨execNode_versionsWell h.1 call, execNode_filled h.1 h.2 call⟩)
    n calls (fun _ _ => trivial) ⟨hwell, hfilled⟩
  -- a step that forgets the feeds leaves them unattended
  have hleaves : ∀ ev ∈ intelHistory S n calls, Forgotten ev →
      ev.after.updater.sets = {} ∧ ¬ Attended ev.after := by
    intro ev hev hforgotten
    have hexec := (history_event hev).2
    obtain ⟨call, before, out, after⟩ := ev
    have hleaves := @Forgotten.leaves S before call (hinv _ hev).1.1
    rw [hexec] at hleaves
    exact hleaves hforgotten
  refine ⟨⟨fun hall ev hev hforgotten => (hleaves ev hev hforgotten).2 (hall ev hev), ?_⟩,
    fun ev hev hforgotten => (hleaves ev hev hforgotten).1, ?_⟩
  · -- and no other step does, from the boot on
    intro hno ev hev
    refine (history_invariant_of_events (I := fun n => VersionsWell n.world.db ∧ Attended n)
      (fun call n hno h => ?_) hno ⟨hwell, hattended⟩ ev hev).2.2
    exact ⟨execNode_versionsWell h.1 call, execNode_attended h.1 h.2 hno⟩
  · intro ev hev hrest hphase htrigger feeds hfeeds
    obtain ⟨last, hlast, hpolicy⟩ := hrest.refilled hphase htrigger hfeeds
    obtain ⟨u, hu⟩ := (hinv ev hev).2.2 last hlast
    obtain ⟨p, hp, henabled, hne⟩ := hfeeds
    refine ⟨last, hlast, hpolicy, fun hnft => ?_⟩
    rw [hu]
    -- the last refill went through, so the sets are those of its downloads
    rcases Refresh_eq (hpolicy.trans hp) henabled u with
      ⟨hnil, -⟩ | ⟨e, he, -⟩ | ⟨-, -, k, -, hsets⟩
    · exact absurd hnil hne
    · rw [hnft] at he
      cases he
    · exact hsets

/-- A call that got past the packet filter and failed is such a call. -/
theorem forgotten_of_reachesOthers {n : Node} {ev : Event NodeCall Node (Option Outcome)}
    (hfirst : NftablesFirst S.sup) (hw : VersionsWell n.world.db) {calls : List NodeCall}
    (hev : ev ∈ intelHistory S n calls) {o : Outcome} {status : Status} {feeds : List Feed}
    (hout : ev.output = some o) (hresult : o.result = .error status)
    (hothers : ReachesOthers o.actions) (hfeeds : FeedsOn ev.before.world.db feeds)
    (htrigger : ev.before.intelTrigger = false) (hphase : ev.before.phase = .waiting) :
    Forgotten ev := by
  have hbefore := (@history_invariant _ _ _ S.execNode (fun n => VersionsWell n.world.db)
    (fun _ => True) (fun call n _ h => execNode_versionsWell h call) n calls (fun _ _ => trivial) hw
    ev hev).1
  have hexec := (history_event hev).2
  refine ⟨o, status, feeds, hout, hresult, ?_, hfeeds, htrigger, hphase⟩
  rcases execNode_cases (S := S) hbefore ev.input with
    ⟨world, heq, -, -⟩ | ⟨o', n', heq, htold, -, -⟩ | ⟨n', heq, -⟩
  · rw [hexec, hout] at heq
    cases heq
  · rw [hexec, hout] at heq
    cases heq
    exact htold.loads hfirst hothers
  · rw [hexec, hout] at heq
    cases heq

/-! ### A refused ruleset -/

/-- A peer's policy with a feed, as its `n`-th version. -/
def peerFeed (n : Nat) : ReplicatedPolicy where
  policy := oneFeedPolicy
  comment := "pull"
  ackRisk := true
  ackRuntime := true
  sourceVersion := n

/-- Suricata refuses what it is given. -/
def suricataRefuses : Env :=
  { calmEnv with outcomes := ⟨fun _ _ => none,
      fun _ e _ => if e = SuricataName then some "exit status 1" else none⟩ }

/-- A node that boots, pulls a policy with a feed, refreshes, and then pulls one that an engine
refuses. -/
def refusedPull : List NodeCall :=
  [.server (.applyReplicatedPolicy calmEnv (peerFeed 7)), .wake true, .read, .finish networkDown,
    .server (.applyReplicatedPolicy suricataRefuses (peerFeed 8))]

/-- A call of an engine other than the packet filter. -/
def Action.reachesOther : Action → Bool
  | .engine c => c.engine != NftablesName
  | _ => false

/-- A failed call past the packet filter, on a node with feeds whose updater is at rest. -/
def failsPast (ev : Event NodeCall Node (Option Outcome)) : Bool :=
  match ev.output, ev.before.phase, runningPolicy ev.before.world.db with
  | some ⟨.error _, actions⟩, .waiting, .ok p =>
      actions.any Action.reachesOther && !ev.before.intelTrigger &&
        match EnabledFeeds p.intel with
        | .ok feeds => !feeds.isEmpty
        | .error _ => false
  | _, _, _ => false

theorem forgotten_of_failsPast {n : Node} {ev : Event NodeCall Node (Option Outcome)}
    (hfirst : NftablesFirst S.sup) (hw : VersionsWell n.world.db) {calls : List NodeCall}
    (hev : ev ∈ intelHistory S n calls) (h : failsPast ev = true) : Forgotten ev := by
  unfold failsPast at h
  split at h
  · next status actions p hout hphase hpolicy =>
      simp only [Bool.and_eq_true, Bool.not_eq_true', List.any_eq_true] at h
      obtain ⟨⟨⟨a, ha, hother⟩, htrigger⟩, hfeeds⟩ := h
      have hothers : ReachesOthers actions := by
        cases a with
        | engine c => exact ⟨c, ha, by simpa [Action.reachesOther] using hother⟩
        | _ => cases hother
      split at hfeeds
      · next feeds henabled =>
          have hon : FeedsOn ev.before.world.db feeds :=
            ⟨p, hpolicy, henabled, by simpa using hfeeds⟩
          exact forgotten_of_reachesOthers hfirst hw hev hout rfl hothers hon htrigger hphase
      · cases hfeeds
  · cases h

theorem attended_iff_refusedPull :
    ¬ ∀ ev ∈ intelHistory sampleServer { world := sampleWorld } refusedPull, Attended ev.after := by
  intro hall
  have hno := (@attended_iff sampleServer calmEnv.outcomes sampleWorld _ versionsWell_empty
    (by decide) rfl refusedPull).1.mp hall
  have hany :
      (intelHistory sampleServer { world := sampleWorld } refusedPull).any failsPast = true := by
    decide +kernel
  obtain ⟨ev, hev, hfails⟩ := List.any_eq_true.mp hany
  exact hno ev hev (forgotten_of_failsPast ⟨_, rfl⟩ versionsWell_empty hev hfails)

end Phragma.Apiserver
