import Phragma.Authz.StepUp

/-!
# Phragma.Authz.Roles

The role table of `internal/authz/authz.go`, the check of the interceptor against it, and the
RPCs whose handlers demand a step-up token.

Every such handler starts with `RequireStepUp`, and the only handler that makes challenges is
that of `CreateStepUpChallenge`. The table admits operators to `Commit` and `Rollback`, but only
administrators to `CreateStepUpChallenge`: **an operator cannot obtain the token that a commit
demands** (`canStepUp_iff`).
-/

namespace Phragma.Authz

open Lib Go Apiserver

/-! ### The role table -/

/-- `minRoles`: the role that each call asks for. What is not listed is refused. -/
def minRoles : List (String × Role) :=
  [
    ("/openngfw.v1.SystemService/GetVersion", .viewer),
    ("/openngfw.v1.SystemService/GetStatus", .viewer),
    ("/openngfw.v1.SystemService/ProveNetworkPath", .viewer),
    ("/openngfw.v1.SystemService/GetTelemetryExportStatus", .viewer),
    ("/openngfw.v1.SystemService/VerifyTelemetryExport", .admin),
    ("/openngfw.v1.SystemService/ListSystemLogs", .viewer),
    ("/openngfw.v1.SystemService/CheckRuntimeReadiness", .viewer),
    ("/openngfw.v1.SystemService/GetHighAvailabilityStatus", .viewer),
    ("/openngfw.v1.SystemService/PullHighAvailabilityPolicy", .operator),
    ("/openngfw.v1.SystemService/ActivateHighAvailabilityFailover", .admin),
    ("/openngfw.v1.SystemService/GetReleaseAcceptanceStatus", .viewer),
    ("/openngfw.v1.SystemService/GetSupportBundle", .operator),
    ("/openngfw.v1.SystemService/GetIdentity", .viewer),
    ("/openngfw.v1.SystemService/CreateStepUpChallenge", .admin),
    ("/openngfw.v1.SystemService/GetAccessAdministration", .admin),
    ("/openngfw.v1.SystemService/RunOIDCPreflight", .admin),
    ("/openngfw.v1.SystemService/GetOIDCProviderConfig", .admin),
    ("/openngfw.v1.SystemService/ValidateOIDCProviderConfig", .admin),
    ("/openngfw.v1.SystemService/SetOIDCProviderConfig", .admin),
    ("/openngfw.v1.SystemService/DisableOIDCProvider", .admin),
    ("/openngfw.v1.SystemService/GetSAMLProviderConfig", .admin),
    ("/openngfw.v1.SystemService/ValidateSAMLProviderConfig", .admin),
    ("/openngfw.v1.SystemService/SetSAMLProviderConfig", .admin),
    ("/openngfw.v1.SystemService/DisableSAMLProvider", .admin),
    ("/openngfw.v1.SystemService/CreateLocalUser", .admin),
    ("/openngfw.v1.SystemService/UpdateLocalUser", .admin),
    ("/openngfw.v1.SystemService/RotateLocalUserToken", .admin),
    ("/openngfw.v1.SystemService/DisableLocalUser", .admin),
    ("/openngfw.v1.SystemService/RevokeAccessSession", .admin),
    ("/openngfw.v1.SystemService/PlanPacketCapture", .viewer),
    ("/openngfw.v1.SystemService/ListPacketCaptures", .admin),
    ("/openngfw.v1.SystemService/TuneHost", .admin),
    ("/openngfw.v1.SystemService/StartPacketCapture", .admin),
    ("/openngfw.v1.SystemService/DownloadPacketCapture", .admin),
    ("/openngfw.v1.SystemService/SetPacketCaptureRetention", .admin),
    ("/openngfw.v1.PolicyService/GetPolicy", .viewer),
    ("/openngfw.v1.PolicyService/GetCandidateStatus", .viewer),
    ("/openngfw.v1.PolicyService/ListNatRules", .viewer),
    ("/openngfw.v1.PolicyService/ListObjectReferences", .viewer),
    ("/openngfw.v1.PolicyService/DiffPolicy", .viewer),
    ("/openngfw.v1.PolicyService/ListChangeApprovals", .viewer),
    ("/openngfw.v1.PolicyService/ListBackupSnapshots", .viewer),
    ("/openngfw.v1.PolicyService/GetBackupSnapshot", .viewer),
    ("/openngfw.v1.PolicyService/ValidateBackupSnapshot", .viewer),
    ("/openngfw.v1.PolicyService/ListVersions", .viewer),
    ("/openngfw.v1.PolicyService/ListAuditEntries", .viewer),
    ("/openngfw.v1.PolicyService/VerifyAuditIntegrity", .viewer),
    ("/openngfw.v1.PolicyService/SetCandidate", .operator),
    ("/openngfw.v1.PolicyService/Validate", .operator),
    ("/openngfw.v1.PolicyService/UpsertCandidateSourceNat", .operator),
    ("/openngfw.v1.PolicyService/DeleteCandidateSourceNat", .operator),
    ("/openngfw.v1.PolicyService/UpsertCandidateDestinationNat", .operator),
    ("/openngfw.v1.PolicyService/DeleteCandidateDestinationNat", .operator),
    ("/openngfw.v1.PolicyService/RenamePolicyObject", .operator),
    ("/openngfw.v1.PolicyService/CreateBackupSnapshot", .operator),
    ("/openngfw.v1.PolicyService/PreviewBackupSnapshotRestore", .operator),
    ("/openngfw.v1.PolicyService/Commit", .operator),
    ("/openngfw.v1.PolicyService/Rollback", .operator),
    ("/openngfw.v1.PolicyService/CreateChangeApproval", .admin),
    ("/openngfw.v1.AlertService/ListAlerts", .viewer),
    ("/openngfw.v1.FlowService/ListFlows", .viewer),
    ("/openngfw.v1.FlowService/ListSessions", .viewer),
    ("/openngfw.v1.ComplianceService/ListComplianceReports", .viewer),
    ("/openngfw.v1.ComplianceService/GetComplianceReport", .viewer),
    ("/openngfw.v1.ComplianceService/ExportComplianceReport", .viewer),
    ("/openngfw.v1.ComplianceService/CreateComplianceReport", .operator),
    ("/openngfw.v1.AppIdService/ListAppIdObservations", .viewer),
    ("/openngfw.v1.AppIdService/CompareAppIdReplay", .viewer),
    ("/openngfw.v1.AppIdService/StageAppIdObservation", .operator),
    ("/openngfw.v1.AppIdService/StageAppIdRegressionSample", .operator),
    ("/openngfw.v1.ExplainService/ExplainFlow", .viewer),
    ("/openngfw.v1.IntelService/ListFeeds", .viewer),
    ("/openngfw.v1.IntelService/ListContentPackages", .viewer),
    ("/openngfw.v1.IntelService/GetContentEvidence", .viewer),
    ("/openngfw.v1.IntelService/GetContentCorpus", .viewer),
    ("/openngfw.v1.ThreatTuningService/ListThreatExceptions", .viewer),
    ("/openngfw.v1.ThreatTuningService/StageThreatException", .operator),
    ("/openngfw.v1.ThreatTuningService/UpdateThreatException", .operator),
    ("/openngfw.v1.ThreatTuningService/SetThreatExceptionState", .operator),
    ("/openngfw.v1.ThreatTuningService/RemoveThreatException", .operator),
    ("/openngfw.v1.ThreatTuningService/ReplayThreatEvidence", .viewer),
    ("/openngfw.v1.IntelService/PreviewContentPackage", .admin),
    ("/openngfw.v1.IntelService/CompareContentPackage", .admin),
    ("/openngfw.v1.IntelService/InstallContentPackage", .admin),
    ("/openngfw.v1.IntelService/RollbackContentPackage", .admin),
    ("/openngfw.v1.IntelService/RefreshFeeds", .operator)]

/-- The check of `UnaryInterceptor` on a caller it has authenticated. -/
def authorize (role : Role) (method : String) : Except Status Unit :=
  match minRoles.lookup method with
  | none =>
      .error ⟨.permissionDenied, "method is not registered in RBAC policy: " ++ method⟩
  | some required =>
      if role.level < required.level then
        .error ⟨.permissionDenied, "role does not permit " ++ method⟩
      else .ok ()

/-- The RPCs whose handlers call `RequireStepUp`. -/
inductive GuardedRpc
  | setOIDCProviderConfig
  | disableOIDCProvider
  | setSAMLProviderConfig
  | disableSAMLProvider
  | createLocalUser
  | updateLocalUser
  | rotateLocalUserToken
  | disableLocalUser
  | activateHighAvailabilityFailover
  | commit
  | rollback
  | installContentPackage
  | rollbackContentPackage
  deriving DecidableEq, Repr

namespace GuardedRpc

/-- The full name of the method. -/
def method : GuardedRpc → String
  | setOIDCProviderConfig => "/openngfw.v1.SystemService/SetOIDCProviderConfig"
  | disableOIDCProvider => "/openngfw.v1.SystemService/DisableOIDCProvider"
  | setSAMLProviderConfig => "/openngfw.v1.SystemService/SetSAMLProviderConfig"
  | disableSAMLProvider => "/openngfw.v1.SystemService/DisableSAMLProvider"
  | createLocalUser => "/openngfw.v1.SystemService/CreateLocalUser"
  | updateLocalUser => "/openngfw.v1.SystemService/UpdateLocalUser"
  | rotateLocalUserToken => "/openngfw.v1.SystemService/RotateLocalUserToken"
  | disableLocalUser => "/openngfw.v1.SystemService/DisableLocalUser"
  | activateHighAvailabilityFailover =>
      "/openngfw.v1.SystemService/ActivateHighAvailabilityFailover"
  | commit => "/openngfw.v1.PolicyService/Commit"
  | rollback => "/openngfw.v1.PolicyService/Rollback"
  | installContentPackage => "/openngfw.v1.IntelService/InstallContentPackage"
  | rollbackContentPackage => "/openngfw.v1.IntelService/RollbackContentPackage"

/-- The action the handler demands a token for. -/
def action : GuardedRpc → String
  | setOIDCProviderConfig => "access-oidc-set"
  | disableOIDCProvider => "access-oidc-disable"
  | setSAMLProviderConfig => "access-saml-set"
  | disableSAMLProvider => "access-saml-disable"
  | createLocalUser => "access-local-user-create"
  | updateLocalUser => "access-local-user-update"
  | rotateLocalUserToken => "access-local-user-rotate-token"
  | disableLocalUser => "access-local-user-disable"
  | activateHighAvailabilityFailover => "ha-failover-activate"
  | commit => "commit"
  | rollback => "rollback"
  | installContentPackage => "content-package-install"
  | rollbackContentPackage => "content-package-rollback"

end GuardedRpc

/-! ### Step-up tokens

A token is random bytes in base64, so it has no white space and survives being trimmed. -/

/-- The alphabet of `base64.RawURLEncoding`. -/
def base64Alphabet : List Char :=
  "ABCDEFGHIJKLMNOPQRSTUVWXYZabcdefghijklmnopqrstuvwxyz0123456789-_".toList

/-- The character of six bits. -/
def base64Char (n : Nat) : Char := base64Alphabet[n]?.getD '_'

/-- `base64.RawURLEncoding.EncodeToString`: bytes in base64, without padding. -/
def rawURLEncode : List UInt8 → List Char
  | [] => []
  | [a] => [base64Char (a.toNat / 4), base64Char (a.toNat % 4 * 16)]
  | [a, b] =>
      [base64Char (a.toNat / 4), base64Char (a.toNat % 4 * 16 + b.toNat / 16),
        base64Char (b.toNat % 16 * 4)]
  | a :: b :: c :: rest =>
      base64Char (a.toNat / 4) :: base64Char (a.toNat % 4 * 16 + b.toNat / 16) ::
        base64Char (b.toNat % 16 * 4 + c.toNat / 64) :: base64Char (c.toNat % 64) ::
        rawURLEncode rest

/-- `randomStepUpToken`, from the bytes it has drawn. -/
def randomStepUpToken (raw : List UInt8) : String := "stepup_" ++ String.ofList (rawURLEncode raw)

theorem isSpace_base64Char (n : Nat) : isSpace (base64Char n) = false := by
  unfold base64Char
  cases h : base64Alphabet[n]? with
  | none => decide
  | some c =>
      have hall : ∀ c ∈ base64Alphabet, isSpace c = false := by decide
      exact hall c (List.mem_of_getElem? h)

theorem isSpace_rawURLEncode (raw : List UInt8) :
    ∀ c ∈ rawURLEncode raw, isSpace c = false := by
  induction raw using rawURLEncode.induct with
  | case1 => simp [rawURLEncode]
  | case2 a => simp [rawURLEncode, isSpace_base64Char]
  | case3 a b => simp [rawURLEncode, isSpace_base64Char]
  | case4 a b c rest ih =>
      simp only [rawURLEncode, List.forall_mem_cons]
      exact ⟨isSpace_base64Char _, isSpace_base64Char _, isSpace_base64Char _,
        isSpace_base64Char _, ih⟩

/-- A token is presented as it was issued. -/
theorem isWord_randomStepUpToken (raw : List UInt8) : IsWord (randomStepUpToken raw) := by
  unfold randomStepUpToken
  refine ⟨fun h => ?_, fun c hc => ?_⟩
  · exact absurd (String.append_eq_empty_iff.mp h).1 (by decide)
  · rw [String.toList_append] at hc
    rcases List.mem_append.mp hc with hc | hc
    · have hall : ∀ c ∈ "stepup_".toList, isSpace c = false := by decide
      exact hall c hc
    · rw [String.toList_ofList] at hc
      exact isSpace_rawURLEncode raw c hc

/-! ### RPCs and the store of challenges

A challenge is created by a call of its own and presented by the guarded one, both by the same
caller. So the role table decides about both. -/

/-- A request, as far as the store of challenges goes. -/
inductive Rpc
  | createStepUpChallenge (ackStepUp : Bool) (action comment : String)
  | guarded (rpc : GuardedRpc) (stepUpToken : String)
  | other (method : String)

def Rpc.method : Rpc → String
  | .createStepUpChallenge _ _ _ => "/openngfw.v1.SystemService/CreateStepUpChallenge"
  | .guarded rpc _ => rpc.method
  | .other method => method

/-- A request, who makes it and when. -/
structure RpcCall where
  caller : Identity
  rpc : Rpc
  now : Int

/-- What the handler of a request does to the store; `raw` are the bytes it draws. -/
def handle (call : RpcCall) (raw : List UInt8) (s : StepUpStore) : StepUpStore :=
  match call.rpc with
  | .createStepUpChallenge ack action comment =>
      if ack then
        (CreateStepUpChallenge toLower (some call.caller) action comment
          (.ok (randomStepUpToken raw)) call.now s).2
      else s
  | .guarded rpc token => (RequireStepUp toLower (some call.caller) rpc.action token call.now s).2
  | .other _ => s

/-- `UnaryInterceptor`, on an authenticated caller. -/
def UnaryInterceptor (call : RpcCall) (raw : List UInt8) (s : StepUpStore) : StepUpStore :=
  match authorize call.caller.role call.rpc.method with
  | .error _ => s
  | .ok () => handle call raw s

/-- The requests are served one after the other; each draws its own bytes. -/
def serve (raws : Nat → List UInt8) : List RpcCall → StepUpStore → StepUpStore
  | [], s => s
  | call :: calls, s => serve (fun n => raws (n + 1)) calls (UnaryInterceptor call (raws 0) s)

/-- The role is admitted to the method. -/
def Admitted (role : Role) (method : String) : Prop := authorize role method = .ok ()

instance (role : Role) (method : String) : Decidable (Admitted role method) :=
  inferInstanceAs (Decidable (_ = _))

/-- From `now` on, callers of the identity's role have requests they are admitted to after which the
identity has a token for the RPC, whatever bytes are drawn. -/
def CanStepUp (id : Identity) (rpc : GuardedRpc) (now : Int) (s : StepUpStore) : Prop :=
  ∀ raws : Nat → List UInt8, ∃ calls : List RpcCall,
    (∀ call ∈ calls, call.caller.role = id.role ∧ Admitted call.caller.role call.rpc.method ∧
        now ≤ call.now) ∧
      ∃ token later, now ≤ later ∧
        (RequireStepUp toLower (some id) rpc.action token later (serve raws calls s)).1 = .ok ()

/-- The store holds an unexpired challenge for the RPC that is bound to the identity. -/
def HoldsFor (id : Identity) (rpc : GuardedRpc) (now : Int) (s : StepUpStore) : Prop :=
  ∃ token c, s (trimSpace token) = some c ∧ trimSpace token ≠ "" ∧ now ≤ c.expiresAt ∧
    c.action = normalizeStepUpAction toLower rpc.action ∧ c.actor = id.name ∧
    c.authSource = id.authSource

/-- A challenge that is held is good. -/
theorem require_of_holds {id : Identity} (hid : id.Authenticated) {action token : String}
    {now : Int} {s : StepUpStore} {c : StepUpChallenge} (hc : s (trimSpace token) = some c)
    (hne : trimSpace token ≠ "") (hle : now ≤ c.expiresAt)
    (haction : c.action = normalizeStepUpAction toLower action) (hactor : c.actor = id.name)
    (hsource : c.authSource = id.authSource) :
    (RequireStepUp toLower (some id) action token now s).1 = .ok () := by
  unfold RequireStepUp
  dsimp only
  have hkept : reapLocked now s (trimSpace token) = some c := by
    unfold reapLocked
    rw [hc, Option.filter_some, decide_eq_true hle, if_pos rfl]
  rw [if_neg (not_or.mpr hid), if_neg hne, hkept]
  dsimp only
  unfold checkChallenge
  rw [if_neg (not_lt.mpr hle), if_neg (not_not.mpr haction),
    if_neg (not_or.mpr ⟨not_not.mpr hactor, not_not.mpr hsource⟩)]

/-- An administrator gets a token from `CreateStepUpChallenge`. -/
theorem canStepUp_of_admin {id : Identity} (hid : id.Authenticated) (hrole : id.role = .admin)
    (rpc : GuardedRpc) (now : Int) (s : StepUpStore) : CanStepUp id rpc now s := by
  intro raws
  have hword := isWord_randomStepUpToken (raws 0)
  have htrim : trimSpace (randomStepUpToken (raws 0)) = randomStepUpToken (raws 0) :=
    trimSpace_eq_self hword.2
  have hadmit : Admitted id.role "/openngfw.v1.SystemService/CreateStepUpChallenge" := by
    rw [hrole]
    decide
  have haction : normalizeStepUpAction toLower rpc.action ≠ "" := by cases rpc <;> decide
  refine ⟨[⟨id, .createStepUpChallenge true rpc.action "", now⟩], ?_,
    randomStepUpToken (raws 0), now, le_rfl, ?_⟩
  · intro call hcall
    rw [List.mem_singleton.mp hcall]
    exact ⟨rfl, hadmit, le_rfl⟩
  · have hserve : serve raws [⟨id, .createStepUpChallenge true rpc.action "", now⟩] s =
        Function.update (reapLocked now s) (randomStepUpToken (raws 0))
          (some (stepUpChallenge toLower id rpc.action "" (randomStepUpToken (raws 0)) now)) := by
      unfold serve serve UnaryInterceptor
      dsimp only [Rpc.method]
      rw [show authorize id.role _ = .ok () from hadmit]
      dsimp only [handle]
      rw [if_pos rfl]
      unfold CreateStepUpChallenge
      dsimp only
      rw [if_neg (not_or.mpr hid), if_neg haction]
    refine require_of_holds hid
      (c := stepUpChallenge toLower id rpc.action "" (randomStepUpToken (raws 0)) now)
      ?_ ?_ ?_ rfl rfl rfl
    · rw [hserve, htrim, Function.update_self]
    · rw [htrim]
      exact hword.1
    · show now ≤ now + defaultStepUpTTL
      unfold defaultStepUpTTL
      omega

/-- Only administrators are admitted to `CreateStepUpChallenge`. -/
theorem admin_of_admitted {role : Role}
    (h : Admitted role "/openngfw.v1.SystemService/CreateStepUpChallenge") : role = .admin := by
  revert h
  cases role <;> decide

/-- **Others add nothing to the store.** -/
theorem stored_of_serve {role : Role} (hrole : role ≠ .admin) {raws : Nat → List UInt8}
    {calls : List RpcCall}
    (hcalls : ∀ call ∈ calls, call.caller.role = role ∧ Admitted call.caller.role call.rpc.method)
    {s : StepUpStore} {token : String} {c : StepUpChallenge}
    (h : serve raws calls s token = some c) : s token = some c := by
  induction calls generalizing s raws with
  | nil => exact h
  | cons call calls ih =>
      obtain ⟨hcaller, hadmit⟩ := hcalls call List.mem_cons_self
      have hnext := ih (fun b hb => hcalls b (List.mem_cons_of_mem _ hb)) h
      unfold UnaryInterceptor at hnext
      rw [show authorize _ _ = .ok () from hadmit] at hnext
      dsimp only [handle] at hnext
      cases hrpc : call.rpc with
      | createStepUpChallenge ack action comment =>
          rw [hrpc] at hadmit
          exact (hrole (hcaller ▸ admin_of_admitted hadmit)).elim
      | guarded rpc raw =>
          rw [hrpc] at hnext
          exact stored_of_require _ _ _ _ hnext
      | other method =>
          rw [hrpc] at hnext
          exact hnext

theorem holdsFor_of_canStepUp {id : Identity} (hid : id.Authenticated) (hrole : id.role ≠ .admin)
    {rpc : GuardedRpc} {now : Int} {s : StepUpStore} (h : CanStepUp id rpc now s) :
    HoldsFor id rpc now s := by
  obtain ⟨calls, hcalls, token, later, hlater, hok⟩ := h fun _ => []
  obtain ⟨c, hc, hle, haction, hactor, hsource, hne⟩ :=
    (RequireStepUp_cases hid rpc.action token later _).2.2 hok
  have hstored := stored_of_serve hrole (fun call h => ⟨(hcalls call h).1, (hcalls call h).2.1⟩) hc
  exact ⟨token, c, hstored, hne, hlater.trans hle, haction, hactor, hsource⟩

/-- **Who can step up.** An authenticated identity can come to satisfy the demand of a guarded RPC
exactly when it is an administrator or the store already holds a challenge for it. -/
theorem canStepUp_iff (id : Identity) (hid : id.Authenticated) (rpc : GuardedRpc) (now : Int)
    (s : StepUpStore) : CanStepUp id rpc now s ↔ id.role = .admin ∨ HoldsFor id rpc now s := by
  refine ⟨fun h => ?_, fun h => ?_⟩
  · by_cases hrole : id.role = .admin
    · exact .inl hrole
    · exact .inr (holdsFor_of_canStepUp hid hrole h)
  · rcases h with hrole | ⟨token, c, hc, hne, hle, haction, hactor, hsource⟩
    · exact canStepUp_of_admin hid hrole rpc now s
    · intro raws
      exact ⟨[], fun _ h => (List.not_mem_nil h).elim, token, now, le_rfl,
        require_of_holds hid hc hne hle haction hactor hsource⟩

/-- An administrator with no challenge yet can commit. -/
theorem canStepUp_admin_commit :
    CanStepUp ⟨"ann", .admin, AuthSourceLocalUsersFile⟩ .commit 0 noChallenges :=
  (canStepUp_iff ⟨"ann", .admin, AuthSourceLocalUsersFile⟩ (by decide) .commit 0
    noChallenges).mpr (.inl rfl)

/-- **An operator is admitted to `Commit`**, and with no challenge in the store nothing an operator
may call leads to the token that it demands. -/
theorem operator_cannot_commit :
    Admitted .operator GuardedRpc.commit.method ∧
      ¬ CanStepUp ⟨"bob", .operator, AuthSourceLocalUsersFile⟩ .commit 0 noChallenges := by
  refine ⟨by decide, fun h => ?_⟩
  obtain ⟨_, _, hc, -⟩ := holdsFor_of_canStepUp (by decide) (by decide) h
  cases hc

end Phragma.Authz
