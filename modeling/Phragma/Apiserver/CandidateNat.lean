import Phragma.Lib.Thread
import Phragma.Apiserver.Rename

/-!
# Phragma.Apiserver.CandidateNat

The calls that stage a candidate (`internal/apiserver/policy.go`): `SetCandidate`, the
edits of one translation rule, `UpsertCandidateSourceNat`, `DeleteCandidateSourceNat` and
their two counterparts for destination rules, `RenamePolicyObject` and the staging part of
`PreviewBackupSnapshotRestore`.

An edit is a pure function on policies, the same for both tables of rules but for the texts of
its errors. Around it stands a handler that reads the policy to edit, applies the edit,
validates the result and stores it under the revision the client expects. The handlers are
`Lib.Thread`s over the world: each access of the store is one atomic action, and what is
under the server's mutex is marked as such. The read of the policy is not, nor is anything of
the restore of a snapshot.
-/

namespace Phragma.Apiserver

open Lib Go Policy Engines Renderers Store

/-! ### Editing a table of translation rules

An edit takes a table and gives it back with one rule put in, replaced or removed. Which rule is
meant is said by its id or, without one, by its name. -/

/-- A translation rule of either table. -/
inductive NatRule
  | source (rule : SourceNat)
  | destination (rule : DestinationNat)
  deriving DecidableEq, Repr

/-- `natRuleName`: the name of a rule. -/
def natRuleName : NatRule → String
  | .source rule => rule.name
  | .destination rule => rule.name

/-- One of the two tables of translation rules. -/
structure NatTable (ρ : Type) where
  /-- The name of the table in texts. -/
  natType : String
  rules : NatRules → List ρ
  withRules : NatRules → List ρ → NatRules
  name : ρ → String
  id : ρ → String
  withId : ρ → String → ρ
  natRule : ρ → NatRule

/-- The source translations. -/
def sourceNats : NatTable SourceNat where
  natType := "source"
  rules := NatRules.source
  withRules nat source := { nat with source }
  name := SourceNat.name
  id := SourceNat.id
  withId rule id := { rule with id }
  natRule := .source

/-- The destination translations. -/
def destinationNats : NatTable DestinationNat where
  natType := "destination"
  rules := NatRules.destination
  withRules nat destination := { nat with destination }
  name := DestinationNat.name
  id := DestinationNat.id
  withId rule id := { rule with id }
  natRule := .destination

section

variable {ρ : Type} (T : NatTable ρ)

/-- The loop that looks for the one rule with a durable id; `matched` is what it has found. -/
def resolveNatLoop (id : String) : Nat → Option (Nat × ρ) → List ρ → Except Status (Nat × ρ)
  | _, matched, [] =>
      match matched with
      | none =>
          .error ⟨.notFound, T.natType ++ " NAT id " ++ quote id ++
            " not found in candidate; reload candidate NAT and select a current durable ID"⟩
      | some found => .ok found
  | i, matched, existing :: rest =>
      if trimSpace (T.id existing) ≠ id then resolveNatLoop id (i + 1) matched rest
      else
        match matched with
        | some _ =>
            .error ⟨.failedPrecondition, T.natType ++ " NAT id " ++ quote id ++
              " is ambiguous in candidate; reload candidate NAT and repair duplicate durable " ++
              "IDs before retrying"⟩
        | none => resolveNatLoop id (i + 1) (some (i, existing)) rest

/-- `resolveSourceNatIndexByID` and `resolveDestinationNatIndexByID`: the index of the rule with
a durable id, and the rule there. -/
def resolveNatIndexByID (rules : List ρ) (id : String) : Except Status (Nat × ρ) :=
  resolveNatLoop T id 0 none rules

/-- Put a rule in place of the one with the given id, or the first one with its name, or at
the end: the action taken, the rule as it is stored and the rules after it. -/
def upsertNatRule (rules : List ρ) (rule : ρ) (id : String) :
    Except Status (String × ρ × List ρ) :=
  if id ≠ "" then
    if trimSpace (T.id rule) ≠ "" ∧ trimSpace (T.id rule) ≠ id then
      .error ⟨.invalidArgument, T.natType ++ " NAT rule id " ++ quote (trimSpace (T.id rule)) ++
        " does not match requested id " ++ quote id⟩
    else
      (resolveNatIndexByID T rules id).map fun found =>
        ("updated", T.withId rule id, rules.set found.1 (T.withId rule id))
  else
    match rules.findIdx? fun existing => T.name existing = T.name rule with
    | some i => .ok ("updated", rule, rules.set i rule)
    | none => .ok ("added", rule, rules ++ [rule])

/-- Remove the rule with the given id, or the first one with the given name. -/
def deleteNatRule (rules : List ρ) (name id : String) : Except Status (String × ρ × List ρ) :=
  if id ≠ "" then
    (resolveNatIndexByID T rules id).map fun found =>
      ("deleted", found.2, rules.eraseIdx found.1)
  else if trimSpace name = "" then .error ⟨.invalidArgument, "name is required"⟩
  else
    match rules.zipIdx.find? fun existing => T.name existing.1 = trimSpace name with
    | some found => .ok ("deleted", found.1, rules.eraseIdx found.2)
    | none =>
        .error ⟨.notFound, T.natType ++ " NAT " ++ quote (trimSpace name) ++
          " not found in candidate"⟩

/-- An edit of a policy, with what its response and its audit entry name. -/
structure NatMutation where
  next : Phragma.Policy
  natType : String
  action : String
  rule : NatRule

/-- An edit of the rules of a table as an edit of a policy. -/
def editNat (edit : List ρ → Except Status (String × ρ × List ρ)) (p : Phragma.Policy) :
    Except Status NatMutation :=
  (edit (T.rules (getNat p))).map fun r =>
    { next := { p with nat := some (T.withRules (getNat p) r.2.2) }
      natType := T.natType
      action := r.1
      rule := T.natRule r.2.1 }

end

/-- `upsertSourceNat`: a source rule put in or replaced. -/
def upsertSourceNat (rule : SourceNat) (id : String) : Phragma.Policy → Except Status NatMutation :=
  editNat sourceNats fun rules => upsertNatRule sourceNats rules rule id

/-- `deleteSourceNat`: a source rule removed. -/
def deleteSourceNat (name id : String) : Phragma.Policy → Except Status NatMutation :=
  editNat sourceNats fun rules => deleteNatRule sourceNats rules name id

/-- `upsertDestinationNat`: a destination rule put in or replaced. -/
def upsertDestinationNat (rule : DestinationNat) (id : String) :
    Phragma.Policy → Except Status NatMutation :=
  editNat destinationNats fun rules => upsertNatRule destinationNats rules rule id

/-- `deleteDestinationNat`: a destination rule removed. -/
def deleteDestinationNat (name id : String) : Phragma.Policy → Except Status NatMutation :=
  editNat destinationNats fun rules => deleteNatRule destinationNats rules name id

/-! ### What an edit does

Nothing but the one rule is touched: the other rules of the table keep their order, and the other
table stays. -/

/-- One rule is replaced, added at the end or removed; the others stay, in their order. -/
inductive OneEdit {ρ : Type} : List ρ → List ρ → Prop
  | replace (pre post : List ρ) (old new : ρ) : OneEdit (pre ++ old :: post) (pre ++ new :: post)
  | add (rules : List ρ) (new : ρ) : OneEdit rules (rules ++ [new])
  | remove (pre post : List ρ) (old : ρ) : OneEdit (pre ++ old :: post) (pre ++ post)

section

variable {ρ : Type} {T : NatTable ρ}

theorem oneEdit_set {rules : List ρ} {i : Nat} (hi : i < rules.length) (new : ρ) :
    OneEdit rules (rules.set i new) := by
  rw [List.set_eq_take_append_cons_drop, if_pos hi]
  have h := OneEdit.replace (rules.take i) (rules.drop (i + 1)) rules[i] new
  rwa [← List.drop_eq_getElem_cons hi, List.take_append_drop] at h

theorem oneEdit_eraseIdx {rules : List ρ} {i : Nat} (hi : i < rules.length) :
    OneEdit rules (rules.eraseIdx i) := by
  rw [List.eraseIdx_eq_take_drop_succ]
  have h := OneEdit.remove (rules.take i) (rules.drop (i + 1)) rules[i]
  rwa [← List.drop_eq_getElem_cons hi, List.take_append_drop] at h

/-- The rule that is found by its id is one of the table's. -/
theorem resolveNatLoop_ok {id : String} {i : Nat} {matched : Option (Nat × ρ)} {rules : List ρ}
    {found : Nat × ρ} (h : resolveNatLoop T id i matched rules = .ok found) :
    matched = some found ∨ i ≤ found.1 ∧ found.1 < i + rules.length := by
  induction rules generalizing i matched with
  | nil =>
      cases matched with
      | none => cases h
      | some m => cases h; exact .inl rfl
  | cons existing rest ih =>
      unfold resolveNatLoop at h
      rw [List.length_cons]
      split_ifs at h with hid
      · rcases ih h with hm | hlt
        · exact .inl hm
        · exact .inr (by omega)
      · cases matched with
        | some m => cases h
        | none =>
            rcases ih h with hm | hlt
            · cases hm
              exact .inr (by simp)
            · exact .inr (by omega)

theorem resolveNatIndexByID_lt {rules : List ρ} {id : String} {found : Nat × ρ}
    (h : resolveNatIndexByID T rules id = .ok found) : found.1 < rules.length := by
  rcases resolveNatLoop_ok h with hm | hlt
  · cases hm
  · omega

theorem map_ok {ε α β : Type} {x : Except ε α} {f : α → β} {b : β} (h : x.map f = .ok b) :
    ∃ a, x = .ok a ∧ f a = b := by
  cases x with
  | error e => cases h
  | ok a => cases h; exact ⟨a, rfl, rfl⟩

/-- An upsert is one edit. -/
theorem upsertNatRule_oneEdit {rules : List ρ} {rule : ρ} {id : String}
    {r : String × ρ × List ρ} (h : upsertNatRule T rules rule id = .ok r) :
    OneEdit rules r.2.2 := by
  unfold upsertNatRule at h
  split_ifs at h with hid hbody
  · obtain ⟨found, hfound, rfl⟩ := map_ok h
    exact oneEdit_set (resolveNatIndexByID_lt hfound) _
  · split at h
    · next i hi =>
        cases h
        exact oneEdit_set (List.findIdx?_eq_some_iff_getElem.mp hi).1 _
    · cases h
      exact .add _ _

/-- A delete is one edit. -/
theorem deleteNatRule_oneEdit {rules : List ρ} {name id : String} {r : String × ρ × List ρ}
    (h : deleteNatRule T rules name id = .ok r) : OneEdit rules r.2.2 := by
  unfold deleteNatRule at h
  split_ifs at h with hid hname
  · obtain ⟨found, hfound, rfl⟩ := map_ok h
    exact oneEdit_eraseIdx (resolveNatIndexByID_lt hfound)
  · split at h
    · next found hfound =>
        cases h
        obtain ⟨-, hlt, -⟩ := List.mem_zipIdx (List.mem_of_find?_eq_some hfound)
        exact oneEdit_eraseIdx (by omega)
    · cases h

/-- An edit touches nothing of the policy but its table. -/
theorem editNat_ok {edit : List ρ → Except Status (String × ρ × List ρ)} {p : Phragma.Policy}
    {m : NatMutation} (h : editNat T edit p = .ok m) :
    ∃ r, edit (T.rules (getNat p)) = .ok r ∧
      m.next = { p with nat := some (T.withRules (getNat p) r.2.2) } := by
  obtain ⟨r, hr, rfl⟩ := map_ok h
  exact ⟨r, hr, rfl⟩

end

/-- **An edit is a single edit**: one rule of one table is replaced, added or removed, and the
other table and all other sections of the policy stay. -/
def SingleEdit (p next : Phragma.Policy) : Prop :=
  ∃ nat, next = { p with nat := some nat } ∧
    ((OneEdit (getNat p).source nat.source ∧ nat.destination = (getNat p).destination) ∨
      (OneEdit (getNat p).destination nat.destination ∧ nat.source = (getNat p).source))

theorem upsertSourceNat_single {rule : SourceNat} {id : String} {p : Phragma.Policy}
    {m : NatMutation} (h : upsertSourceNat rule id p = .ok m) : SingleEdit p m.next := by
  obtain ⟨r, hr, hnext⟩ := editNat_ok h
  exact ⟨_, hnext, .inl ⟨upsertNatRule_oneEdit hr, rfl⟩⟩

theorem deleteSourceNat_single {name id : String} {p : Phragma.Policy} {m : NatMutation}
    (h : deleteSourceNat name id p = .ok m) : SingleEdit p m.next := by
  obtain ⟨r, hr, hnext⟩ := editNat_ok h
  exact ⟨_, hnext, .inl ⟨deleteNatRule_oneEdit hr, rfl⟩⟩

theorem upsertDestinationNat_single {rule : DestinationNat} {id : String} {p : Phragma.Policy}
    {m : NatMutation} (h : upsertDestinationNat rule id p = .ok m) : SingleEdit p m.next := by
  obtain ⟨r, hr, hnext⟩ := editNat_ok h
  exact ⟨_, hnext, .inr ⟨upsertNatRule_oneEdit hr, rfl⟩⟩

theorem deleteDestinationNat_single {name id : String} {p : Phragma.Policy} {m : NatMutation}
    (h : deleteDestinationNat name id p = .ok m) : SingleEdit p m.next := by
  obtain ⟨r, hr, hnext⟩ := editNat_ok h
  exact ⟨_, hnext, .inr ⟨deleteNatRule_oneEdit hr, rfl⟩⟩

/-! ### Staging -/

/-- What a handler does with the store and the engines, one atomic action each. -/
inductive Access
  /-- `GetCandidate`. -/
  | getCandidate
  /-- `GetRunning`. -/
  | getRunning
  /-- `CandidateRevision`. -/
  | candidateRevision
  /-- The read of `validatePolicy`. -/
  | validate
  /-- `SetCandidateWithAuditIfRevision`. -/
  | stage
  /-- `SetCandidateWithAuditIfRevision` of the restore of a snapshot. -/
  | stageSnapshot
  /-- The reads of `candidateStatusFor`. -/
  | status
  /-- The read of `apply` before the durable intent. -/
  | plan
  | prepare
  | engines
  | activate
  /-- The read of the activated version's metadata. -/
  | readBack
  | mark
  | failureAudit
  deriving DecidableEq, Repr

/-- The response to a NAT edit; what it says about the candidate's status and validation is
left out. -/
structure NatResponse where
  action : String
  natType : String
  rule : NatRule
  candidateRevision : GoString
  deriving DecidableEq

/-- `PreviewBackupSnapshotRestoreResponse`; of its diff only the version is kept, and the status
of the candidate is left out. -/
structure RestoreResponse where
  jobId : String
  validation : List String
  fromVersion : Nat
  stagedCandidate : Bool
  detail : GoString
  deriving DecidableEq

/-- What the calls return. -/
inductive Response
  | setCandidate (r : Except Status GoString)
  | nat (r : Except Status NatResponse)
  | rename (r : Except Status RenameResponse)
  | restore (r : Except Status RestoreResponse)
  | commit (o : Outcome)

/-- The handler of a call. -/
abbrev Handler := Thread World Access Response

/-- A transaction of the server on the store, as an action on the world. -/
def onStore {α : Type} (env : Env) (step : StoreStep) (t : Tx DB Error α) (w : World) :
    Except Error α × World :=
  ((transact env step t w.db).1, { w with db := (transact env step t w.db).2 })

/-- The audit entry of staging. -/
def stagingEntry (env : Env) (action detail : String) : AuditEntry where
  actor := env.identity.name
  actorRole := env.identity.role
  authSource := env.identity.authSource
  action := GoString.ofString action
  detail := GoString.ofString detail

/-- The transaction that stages a policy. -/
def Server.stageTx (S : Server) (env : Env) (p : Phragma.Policy) (expectedRevision : String)
    (entry : AuditEntry) : Tx DB Error GoString :=
  SetCandidateWithAuditIfRevision S.H S.D (env.clock .stage 0) p
    (GoString.ofString expectedRevision) entry

/-- `SetCandidateRequest`: a whole policy, under the revision that the client has seen. -/
structure SetCandidateRequest where
  policy : Option Phragma.Policy
  expectedCandidateRevision : String

/-- The audit detail of `SetCandidate`. -/
def setCandidateDetail (p : Phragma.Policy) : String :=
  decimal p.zones.length ++ " zones, " ++ decimal p.rules.length ++ " rules, " ++
    decimal p.applications.length ++ " applications, " ++ decimal p.securityProfiles.length ++
    " security profiles"

/-- The status of a failed `SetCandidate`. -/
def setCandidateStatus : Error → Status
  | .candidateRevisionConflict =>
      ⟨.failedPrecondition,
        "candidate changed since it was loaded; reload candidate state before staging"⟩
  | e => ⟨.internal, "store candidate with audit: " ++ e.text⟩

/-- `SetCandidate`: the candidate replaced, under the lock. -/
def Server.SetCandidate (S : Server) (env : Env) (req : SetCandidateRequest) : Handler :=
  match req.policy with
  | none => .ret (.setCandidate (.error ⟨.invalidArgument, "policy is required"⟩))
  | some p =>
      .locked <| .transact .stage
        (onStore env .stage (S.stageTx env p (trimSpace req.expectedCandidateRevision)
          (stagingEntry env "set-candidate" (setCandidateDetail p))))
        fun r => .ret (.setCandidate (r.mapError setCandidateStatus))

/-! ### Editing the candidate

The policy is read before the lock is taken. What holds the edits together is the revision, which is
compared when the edit is stored. -/

/-- What the four kinds of NAT edit have in common: the edit, unless the request lacks its rule,
and the texts of the request. -/
structure NatCall where
  required : Except Status (Phragma.Policy → Except Status NatMutation)
  expectedCandidateRevision : String
  comment : String
  reason : String

/-- `candidateNatAuditComment`: comment and reason as one text, one of which is required. -/
def candidateNatAuditComment (comment reason : String) : Except Status String :=
  if trimSpace comment ≠ "" ∧ trimSpace reason ≠ "" then
    .ok (trimSpace comment ++ " (reason: " ++ trimSpace reason ++ ")")
  else if trimSpace comment ≠ "" then .ok (trimSpace comment)
  else if trimSpace reason ≠ "" then .ok (trimSpace reason)
  else .error ⟨.invalidArgument, "comment or reason is required"⟩

/-- The policy of `GetRunning`, with the error of a NAT edit. -/
def readRunning (db : DB) : Except Status Phragma.Policy :=
  match GetRunning db with
  | .error e => .error ⟨.internal, "read running policy: " ++ e.text⟩
  | .ok running => .ok running.1

/-- `editableCandidatePolicyForMutation`: the candidate, or else the running policy. The two
are read one after the other, and without the mutex. -/
def editableCandidatePolicyForMutation (next : Except Status Phragma.Policy → Handler) : Handler :=
  .view .getCandidate fun w =>
    match w.db.candidate with
    | some candidate => next (.ok candidate)
    | none => .view .getRunning fun w => next (readRunning w.db)

/-- The errors `validatePolicy` reports; none when the policy is valid. -/
def Server.validatePolicy (S : Server) (env : Env) (p : Phragma.Policy) (db : DB) :
    Except Status (List String) :=
  let cand := (NormalizeRuleIDs S.H p).1
  match readRunning db with
  | .error status => .error status
  | .ok _ =>
      if Validate cand ≠ [] then .ok (Validate cand)
      else
        match S.render cand with
        | .error err => .ok [err]
        | .ok artifacts =>
            match S.sup.Validate env.outcomes artifacts with
            | .error err => .ok [err]
            | .ok _ => .ok []

/-- The audit detail of a NAT edit. -/
def natDetail (m : NatMutation) (comment : String) : String :=
  m.natType ++ " NAT " ++ m.action ++ " " ++ quote (natRuleName m.rule) ++ ": " ++ comment

/-- The status of a NAT edit that could not be stored. -/
def natStageStatus : Error → Status
  | .candidateRevisionConflict =>
      ⟨.failedPrecondition,
        "candidate changed since it was loaded; reload candidate NAT before staging"⟩
  | e => ⟨.internal, "store candidate NAT mutation with audit: " ++ e.text⟩

/-- The transaction that stores a NAT edit. -/
def Server.natTx (S : Server) (env : Env) (expectedRevision comment : String) (m : NatMutation) :
    Tx DB Error GoString :=
  S.stageTx env m.next expectedRevision
    (stagingEntry env "mutate-candidate-nat" (natDetail m comment))

/-- The response to a NAT edit, once it is stored. -/
def natResponse (m : NatMutation) (revision : GoString) (db : DB) : Except Status NatResponse :=
  (readRunning db).map fun _ =>
    { action := m.action, natType := m.natType, rule := m.rule,
      candidateRevision := revision }

/-- The part of `storeCandidateNatMutation` under the mutex. -/
def Server.stageNatMutation (S : Server) (env : Env) (expectedRevision comment : String)
    (m : NatMutation) : Handler :=
  .transact .stage (onStore env .stage (S.natTx env expectedRevision comment m)) fun
    | .error e => .ret (.nat (.error (natStageStatus e)))
    | .ok revision => .view .status fun w => .ret (.nat (natResponse m revision w.db))

/-- `storeCandidateNatMutation`: the edited policy, validated and stored under the revision that is
expected. -/
def Server.storeCandidateNatMutation (S : Server) (env : Env) (expectedRevision comment : String)
    (m : NatMutation) : Handler :=
  if trimSpace expectedRevision = "" then
    .ret (.nat (.error ⟨.invalidArgument, "expected_candidate_revision is required"⟩))
  else
    .view .validate fun w =>
      match S.validatePolicy env m.next w.db with
      | .error status => .ret (.nat (.error status))
      | .ok [] => .locked (S.stageNatMutation env expectedRevision comment m)
      | .ok errors =>
          .ret (.nat (.error
            ⟨.invalidArgument, "candidate NAT mutation is invalid: " ++ join errors "; "⟩))

/-- The middle of the four handlers: edit what was read, and store it. -/
def Server.editLoaded (S : Server) (env : Env) (c : NatCall)
    (edit : Phragma.Policy → Except Status NatMutation) (comment : String)
    (loaded : Except Status Phragma.Policy) : Handler :=
  match loaded.bind edit with
  | .error status => .ret (.nat (.error status))
  | .ok m => S.storeCandidateNatMutation env (trimSpace c.expectedCandidateRevision) comment m

/-- The body the four handlers share. -/
def Server.mutateCandidateNat (S : Server) (env : Env) (c : NatCall) : Handler :=
  match c.required with
  | .error status => .ret (.nat (.error status))
  | .ok edit =>
      match candidateNatAuditComment c.comment c.reason with
      | .error status => .ret (.nat (.error status))
      | .ok comment => editableCandidatePolicyForMutation (S.editLoaded env c edit comment)

/-- `UpsertCandidateSourceNatRequest` and `UpsertCandidateDestinationNatRequest`. -/
structure UpsertNatRequest (ρ : Type) where
  rule : Option ρ
  expectedCandidateRevision : String
  comment : String
  reason : String
  id : String

/-- `DeleteCandidateSourceNatRequest` and `DeleteCandidateDestinationNatRequest`. -/
structure DeleteNatRequest where
  name : String
  expectedCandidateRevision : String
  comment : String
  reason : String
  id : String

/-- An upsert as a NAT edit. -/
def UpsertNatRequest.natCall {ρ : Type} (T : NatTable ρ)
    (upsert : ρ → String → Phragma.Policy → Except Status NatMutation) (req : UpsertNatRequest ρ) :
    NatCall where
  required :=
    match req.rule with
    | none => .error ⟨.invalidArgument, T.natType ++ " NAT rule is required"⟩
    | some rule => .ok (upsert rule (trimSpace req.id))
  expectedCandidateRevision := req.expectedCandidateRevision
  comment := req.comment
  reason := req.reason

/-- A delete as a NAT edit. -/
def DeleteNatRequest.natCall (delete : String → String → Phragma.Policy → Except Status NatMutation)
    (req : DeleteNatRequest) : NatCall where
  required := .ok (delete req.name (trimSpace req.id))
  expectedCandidateRevision := req.expectedCandidateRevision
  comment := req.comment
  reason := req.reason

/-- `UpsertCandidateSourceNat`: the edit of a source rule. -/
def Server.UpsertCandidateSourceNat (S : Server) (env : Env) (req : UpsertNatRequest SourceNat) :
    Handler :=
  S.mutateCandidateNat env (req.natCall sourceNats upsertSourceNat)

/-- `DeleteCandidateSourceNat`: the removal of a source rule. -/
def Server.DeleteCandidateSourceNat (S : Server) (env : Env) (req : DeleteNatRequest) : Handler :=
  S.mutateCandidateNat env (req.natCall deleteSourceNat)

/-- `UpsertCandidateDestinationNat`: the edit of a destination rule. -/
def Server.UpsertCandidateDestinationNat (S : Server) (env : Env)
    (req : UpsertNatRequest DestinationNat) : Handler :=
  S.mutateCandidateNat env (req.natCall destinationNats upsertDestinationNat)

/-- `DeleteCandidateDestinationNat`: the removal of a destination rule. -/
def Server.DeleteCandidateDestinationNat (S : Server) (env : Env) (req : DeleteNatRequest) :
    Handler :=
  S.mutateCandidateNat env (req.natCall deleteDestinationNat)

/-! ### Renaming an object -/

/-- The response to a rename, once it is stored. -/
def renameResponse (req : RenameRequest) (names : RenameNames) (renamed : Renamed) (db : DB) :
    Except Status RenameResponse :=
  (readRunning db).map fun _ =>
    { kind := req.kind, oldName := names.oldName, newName := names.newName,
      rewrittenReferences := renamedObjectReferences renamed.rewritten names.newName }

/-- The transaction that stores a renamed candidate. -/
def Server.renameTx (S : Server) (env : Env) (req : RenameRequest) (names : RenameNames)
    (renamed : Renamed) : Tx DB Error GoString :=
  S.stageTx env renamed.next ""
    (stagingEntry env "rename-policy-object" (renameDetail req names renamed.rewritten.length))

/-- What `RenamePolicyObject` does once it has read the candidate. -/
def Server.stageRenamed (S : Server) (env : Env) (req : RenameRequest) (names : RenameNames)
    (candidate : Option Phragma.Policy) : Handler :=
  match candidate with
  | none => .ret (.rename (.error ⟨.failedPrecondition, "no candidate policy is set"⟩))
  | some candidate =>
      match renameCandidate req.kind names candidate with
      | .error status => .ret (.rename (.error status))
      | .ok renamed =>
          .transact .stage (onStore env .stage (S.renameTx env req names renamed)) fun
            | .error e =>
                .ret (.rename (.error
                  ⟨.internal, "store renamed candidate with audit: " ++ e.text⟩))
            | .ok _ =>
                .view .status fun w => .ret (.rename (renameResponse req names renamed w.db))

/-- `RenamePolicyObject`: an object of the candidate renamed, under the lock. -/
def Server.RenamePolicyObject (S : Server) (env : Env) (req : RenameRequest) : Handler :=
  match renameNames req with
  | .error status => .ret (.rename (.error status))
  | .ok names =>
      .locked <| .view .getCandidate fun w => S.stageRenamed env req names w.db.candidate

/-! ### Restoring a snapshot -/

/-- `PreviewBackupSnapshotRestoreRequest`, with what `GetBackupSnapshot` answers to its id. -/
structure RestoreRequest where
  snapshot : Except String (String × Phragma.Policy)
  stageCandidate : Bool
  expectedCandidateRevision : String
  comment : String

/-- The status of a snapshot that could not be staged. -/
def restoreStageStatus : Error → Status
  | .candidateRevisionConflict =>
      ⟨.failedPrecondition,
        "candidate changed since it was loaded; reload snapshot restore preview"⟩
  | e => ⟨.internal, "stage backup snapshot candidate: " ++ e.text⟩

/-- The preview of a restore. -/
def restorePreview (id : String) (validation : List String) (runningVersion : Nat) :
    RestoreResponse where
  jobId := "restore-preview-" ++ id
  validation
  fromVersion := runningVersion
  stagedCandidate := false
  detail :=
    GoString.ofString "Restore preview only; running policy and engines are unchanged."

/-- The response to a restore whose snapshot is staged. -/
def restoreStaged (preview : RestoreResponse) (id : String) (revision : GoString) (db : DB) :
    Except Status RestoreResponse :=
  (readRunning db).map fun _ =>
    { preview with
      stagedCandidate := true
      detail := GoString.ofString ("Snapshot " ++ id ++ " staged as candidate revision ") ++
        revision ++ GoString.ofString ". Commit is still required before live apply." }

/-- The transaction that stages a snapshot. -/
def Server.restoreTx (S : Server) (env : Env) (req : RestoreRequest) (id : String)
    (p : Phragma.Policy) (comment : String) : Tx DB Error GoString :=
  S.stageTx env p (trimSpace req.expectedCandidateRevision)
    (stagingEntry env "backup-snapshot-restore-stage"
      ("snapshot " ++ id ++ " staged as candidate: " ++ comment))

/-- The end of `PreviewBackupSnapshotRestore`: stage the snapshot, if that is asked for. The
mutex is not taken. -/
def Server.stageSnapshot (S : Server) (env : Env) (req : RestoreRequest) (id : String)
    (p : Phragma.Policy) (preview : RestoreResponse) : Handler :=
  if !req.stageCandidate then .ret (.restore (.ok preview))
  else
    match requiredAuditComment req.comment "restore preview comment" with
    | .error status => .ret (.restore (.error status))
    | .ok comment =>
        if preview.validation ≠ [] then
          .ret (.restore (.error
            ⟨.failedPrecondition, "snapshot validation failed; candidate was not staged"⟩))
        else
          .transact .stageSnapshot (onStore env .stage (S.restoreTx env req id p comment)) fun
            | .error e => .ret (.restore (.error (restoreStageStatus e)))
            | .ok revision =>
                .view .status fun w => .ret (.restore (restoreStaged preview id revision w.db))

/-- `PreviewBackupSnapshotRestore`: a snapshot, shown and, if asked for, staged. No lock is
taken. -/
def Server.PreviewBackupSnapshotRestore (S : Server) (env : Env) (req : RestoreRequest) :
    Handler :=
  match req.snapshot with
  | .error err => .ret (.restore (.error ⟨.notFound, err⟩))
  | .ok (id, p) => .view .validate fun w =>
      match S.validatePolicy env p w.db with
      | .error status => .ret (.restore (.error status))
      | .ok validation => .view .getRunning fun w =>
          match GetRunning w.db with
          | .error e =>
              .ret (.restore (.error ⟨.internal, "read running policy: " ++ e.text⟩))
          | .ok running =>
              S.stageSnapshot env req id p (restorePreview id validation running.2)

end Phragma.Apiserver
