import Phragma.Authz.Roles
import Phragma.Authz.Users
import Phragma.Lib.Expiring
import Mathlib.Data.String.Basic

/-!
# Phragma.Authz.Sessions

Browser sessions and login states: the two maps that `internal/authz/oidc.go` and
`internal/authz/saml.go` keep, each authenticator its own, and the operations on them.

A login stores a login state under a fresh name; the callback of the identity provider takes it out
and, if all is well, stores a session under a fresh token. Every operation but `handleLogout` first
drops what has expired, by the clock reading it makes itself; readings of different operations need
not be in order. A map that has outgrown its bound loses its oldest entries. The operations run
under one lock, so that a run is a sequence of them.

The two authenticators differ in their identifiers and defaults, in what a login state holds and in
who serves the logout path; `Provider` says which of them is meant. Go's maps have no order.
`oldestKey` goes through the entries as they stand in a list, and `picksOldest_oldestKey` shows
that their order does not matter.
-/

namespace Phragma.Authz

open Lib Go

/-! ### The two authenticators

OIDC and SAML keep the same two maps and handle them alike. They differ in defaults, in names, and
in what a login state holds. -/

/-- `OIDCAuthenticator` or `SAMLAuthenticator`. -/
inductive Provider
  | oidc
  | saml
  deriving DecidableEq, Repr

namespace Provider

/-- `defaultOIDCMaxStates`, `defaultSAMLMaxStates`. -/
def defaultMaxStates : Provider → Nat
  | oidc => 1024
  | saml => 1024

/-- `defaultOIDCMaxSessions`, `defaultSAMLMaxSessions`. -/
def defaultMaxSessions : Provider → Nat
  | oidc => 1024
  | saml => 1024

/-- The random bytes in the name of a login state. -/
def stateBytes : Provider → Nat
  | oidc => 32
  | saml => 24

/-- What the identifier of a session starts with. -/
def sessionIDLead : Provider → String
  | oidc => "oidc-session-sha256:"
  | saml => "saml-session-sha256:"

end Provider

/-- What the operations read of `OIDCConfig` and `SAMLConfig`. -/
structure BrowserConfig where
  stateTTL : Int
  maxStates : Int
  maxSessions : Int

/-- The bound on the login states. -/
def BrowserConfig.stateLimit (cfg : BrowserConfig) (p : Provider) : Nat :=
  if cfg.maxStates ≤ 0 then p.defaultMaxStates else cfg.maxStates.toNat

/-- The bound on the sessions. -/
def BrowserConfig.sessionLimit (cfg : BrowserConfig) (p : Provider) : Nat :=
  if cfg.maxSessions ≤ 0 then p.defaultMaxSessions else cfg.maxSessions.toNat

/-- `loginState`: what is remembered of a login that has been started, until its time is over. -/
structure LoginState where
  nonce : String
  codeVerifier : String
  returnPath : String
  expiresAt : Int
  deriving DecidableEq, Repr

/-- `session`: who is signed in, until when, and the token that its writes must carry. -/
structure Session where
  identity : Identity
  expiresAt : Int
  csrfToken : String
  deriving DecidableEq, Repr

/-- The maps of an authenticator. -/
structure Stores where
  states : Table String LoginState
  sessions : Table String Session
  deriving DecidableEq

def noSessions : Stores := ⟨.empty, .empty⟩

/-- `n` bytes from the random source. -/
abbrev Random (n : Nat) := { raw : List UInt8 // raw.length = n }

/-- `randomURLToken`, from the bytes it has drawn. -/
def randomURLToken {n : Nat} (raw : Random n) : String := String.ofList (rawURLEncode raw.1)

/-- `oidcSessionID`, `samlSessionID`. -/
def sessionID (sha : Sha256) (p : Provider) (token : String) : String :=
  p.sessionIDLead ++ String.ofList (hexEncode (sha.sum token))

/-- `normalizeOIDCSessionID`: an id as ids are compared. Both authenticators use it. -/
def normalizeOIDCSessionID (id : String) : String := toLower (trimSpace id)

/-! ### The oldest entry

A full map gives up the entry that expires first; among several, the one with the least key. The
loop goes over a map, so its result must not depend on the order, and does not. -/

/-- The loop of `oldestLoginStateKey` and `oldestSessionKey`, with what it has found so far. The
empty key stands for nothing. -/
def oldestKeyLoop {ν : Type} (expires : ν → Int) :
    String → Int → List (String × ν) → String
  | oldestKey, _, [] => oldestKey
  | oldestKey, oldest, (key, v) :: rest =>
      if oldestKey = "" ∨ expires v < oldest ∨ (expires v = oldest ∧ key < oldestKey) then
        oldestKeyLoop expires key (expires v) rest
      else oldestKeyLoop expires oldestKey oldest rest

/-- What the loop finds, if anything. -/
def oldestKey {ν : Type} (expires : ν → Int) (entries : List (String × ν)) : Option String :=
  let key := oldestKeyLoop expires "" 0 entries
  if key ≠ "" then some key else none

/-- `oldestLoginStateKey`: the login state to give up. -/
def oldestLoginStateKey : List (String × LoginState) → Option String :=
  oldestKey LoginState.expiresAt

/-- `oldestSessionKey`: the session to give up. -/
def oldestSessionKey : List (String × Session) → Option String :=
  oldestKey Session.expiresAt

/-! ### Operations

Every operation first drops what has expired, so an expired entry is never seen. Each is one step:
the lock is held throughout. -/

/-- `reapExpiredLocked`: what has not expired. -/
def reapExpiredLocked (now : Int) (s : Stores) : Stores where
  states := s.states.reap LoginState.expiresAt now
  sessions := s.sessions.reap Session.expiresAt now

/-- `enforceStateLimitLocked`: as many login states as are allowed. -/
def enforceStateLimitLocked (p : Provider) (cfg : BrowserConfig) (s : Stores) : Stores :=
  { s with states := s.states.evict oldestLoginStateKey (cfg.stateLimit p) }

/-- `enforceSessionLimitLocked`: as many sessions as are allowed. -/
def enforceSessionLimitLocked (p : Provider) (cfg : BrowserConfig) (s : Stores) : Stores :=
  { s with sessions := s.sessions.evict oldestSessionKey (cfg.sessionLimit p) }

/-- What `handleLogin` stores: for SAML there is no code verifier, and the nonce is the ID of the
authentication request. -/
def loginState (p : Provider) (cfg : BrowserConfig) (nonce verifier returnPath : String)
    (now : Int) : LoginState where
  nonce
  codeVerifier := match p with
    | .oidc => verifier
    | .saml => ""
  returnPath
  expiresAt := now + cfg.stateTTL

/-- The part of `handleLogin` under the lock. -/
def storeState (p : Provider) (cfg : BrowserConfig) (state : String) (st : LoginState) (now : Int)
    (s : Stores) : Stores :=
  let s := reapExpiredLocked now s
  enforceStateLimitLocked p cfg { s with states := s.states.put state st }

/-- `storeSession`: a new session under its token. -/
def storeSession (p : Provider) (cfg : BrowserConfig) (token : String) (sess : Session) (now : Int)
    (s : Stores) : Stores :=
  let s := reapExpiredLocked now s
  enforceSessionLimitLocked p cfg { s with sessions := s.sessions.put token sess }

/-- `popState`. It reads the clock twice. -/
def popState (state : String) (now later : Int) (s : Stores) : Option LoginState × Stores :=
  let s := reapExpiredLocked now s
  match s.states.get state with
  | none => (none, s)
  | some st =>
      let s := { s with states := s.states.remove state }
      if later < st.expiresAt then (some st, s) else (none, s)

/-- `lookupSession`: the session of a token. -/
def lookupSession (token : String) (now : Int) (s : Stores) : Option Session × Stores :=
  let s := reapExpiredLocked now s
  match s.sessions.get token with
  | none => (none, s)
  | some sess =>
      if now < sess.expiresAt then (some sess, s)
      else (none, { s with sessions := s.sessions.remove token })

/-- `RevokeSession`: the session of an id removed. The id is a digest of the token. -/
def RevokeSession (sha : Sha256) (p : Provider) (id : String) (now : Int) (s : Stores) : Stores :=
  let want := normalizeOIDCSessionID id
  if want = "" then s
  else
    let s := reapExpiredLocked now s
    match s.sessions.entries.find? fun e => normalizeOIDCSessionID (sessionID sha p e.1) = want with
    | none => s
    | some e => { s with sessions := s.sessions.remove e.1 }

/-- `RevokeAllSessions`: all sessions removed. -/
def RevokeAllSessions (now : Int) (s : Stores) : Stores :=
  { reapExpiredLocked now s with sessions := .empty }

/-- `handleLogout` of the OIDC authenticator. The SAML authenticator does not serve the path. -/
def handleLogout (p : Provider) (cookie : String) (s : Stores) : Stores :=
  match p with
  | .oidc => { s with sessions := s.sessions.remove cookie }
  | .saml => s

/-- `RevokeBrowserSessionToken`, the logout that both authenticators share. -/
def RevokeBrowserSessionToken (sha : Sha256) (p : Provider) (token : String) (now : Int)
    (s : Stores) : Stores :=
  let token := trimSpace token
  if token = "" then s else RevokeSession sha p (sessionID sha p token) now s

/-! ### Runs

Times and random numbers are those that the calls have met. Nothing says that times only grow: what
is promised of a session is said of the times it was looked up at. -/

/-- A critical section, with what its caller gives it and the clock readings it makes. -/
inductive BrowserCall (p : Provider)
  | login (state : Random p.stateBytes) (nonce verifier returnPath : String) (now : Int)
  | popState (state : String) (now later : Int)
  | storeSession (token : Random 32) (sess : Session) (now : Int)
  | lookupSession (token : String) (now : Int)
  | handleLogout (cookie : String)
  | revokeBrowserSessionToken (token : String) (now : Int)
  | revokeSession (id : String) (now : Int)
  | revokeAllSessions (now : Int)
  /-- `ListSessions`, `SessionRecord` and the status pages. -/
  | inspect (now : Int)

/-- What a call hands out. -/
inductive HandedOut
  | nothing
  | state (st : LoginState)
  | session (sess : Session)
  deriving DecidableEq, Repr

/-- Run a call. -/
def execBrowser (sha : Sha256) (p : Provider) (cfg : BrowserConfig) :
    BrowserCall p → Stores → HandedOut × Stores
  | .login state nonce verifier returnPath now, s =>
      (.nothing, storeState p cfg (randomURLToken state)
        (loginState p cfg nonce verifier returnPath now) now s)
  | .popState state now later, s =>
      let r := popState state now later s
      (r.1.elim .nothing .state, r.2)
  | .storeSession token sess now, s => (.nothing, storeSession p cfg (randomURLToken token) sess now s)
  | .lookupSession token now, s =>
      let r := lookupSession token now s
      (r.1.elim .nothing .session, r.2)
  | .handleLogout cookie, s => (.nothing, handleLogout p cookie s)
  | .revokeBrowserSessionToken token now, s =>
      (.nothing, RevokeBrowserSessionToken sha p token now s)
  | .revokeSession id now, s => (.nothing, RevokeSession sha p id now s)
  | .revokeAllSessions now, s => (.nothing, RevokeAllSessions now s)
  | .inspect now, s => (.nothing, reapExpiredLocked now s)

/-- The call ends the session of `token`. -/
def BrowserCall.LogsOut (sha : Sha256) {p : Provider} (token : String) : BrowserCall p → Prop
  | .handleLogout cookie => p = .oidc ∧ cookie = token
  | .revokeBrowserSessionToken given _ => trimSpace given = token
  | .revokeSession id _ => normalizeOIDCSessionID id = normalizeOIDCSessionID (sessionID sha p token)
  | .revokeAllSessions _ => True
  | _ => False

/-- The token under which the call stores a session. -/
def BrowserCall.storedToken? {p : Provider} : BrowserCall p → Option String
  | .storeSession token _ _ => some (randomURLToken token)
  | _ => none

/-- The name under which the call stores a login state. -/
def BrowserCall.storedState? {p : Provider} : BrowserCall p → Option String
  | .login state _ _ _ _ => some (randomURLToken state)
  | _ => none

abbrev BrowserEvent (p : Provider) := Event (BrowserCall p) Stores HandedOut

/-! ### Tokens and identifiers

An id is a digest in hexadecimal, so it is normal and tells tokens apart unless digests collide. -/

theorem rawURLEncode_ne_nil {raw : List UInt8} (h : raw ≠ []) : rawURLEncode raw ≠ [] := by
  cases raw using rawURLEncode.fun_cases with
  | case1 => exact absurd rfl h
  | case2 a => simp [rawURLEncode]
  | case3 a b => simp [rawURLEncode]
  | case4 a b c rest => simp [rawURLEncode]

theorem randomURLToken_ne_empty {n : Nat} (hn : 0 < n) (raw : Random n) :
    randomURLToken raw ≠ "" := by
  have hne : raw.1 ≠ [] := List.ne_nil_of_length_pos (Nat.lt_of_lt_of_eq hn raw.2.symm)
  intro h
  apply rawURLEncode_ne_nil hne
  have hlist := congrArg String.toList h
  rwa [randomURLToken, String.toList_ofList] at hlist

/-- The characters of an identifier. -/
def isIDChar (c : Char) : Bool := !isSpace c && toLowerRune c == c

theorem isIDChar_hexByte : ∀ b < 256, ∀ c ∈ hexByte b, isIDChar c = true := by decide +kernel

theorem isIDChar_sessionID (sha : Sha256) (p : Provider) (token : String) :
    ∀ c ∈ (sessionID sha p token).toList, isIDChar c = true := by
  intro c hc
  rw [sessionID, String.toList_append, String.toList_ofList] at hc
  rcases List.mem_append.mp hc with hc | hc
  · have hlead : ∀ c ∈ p.sessionIDLead.toList, isIDChar c = true := by
      cases p with
      | oidc => decide
      | saml => decide
    exact hlead c hc
  · obtain ⟨b, -, hb⟩ := List.mem_flatMap.mp hc
    exact isIDChar_hexByte b.toNat b.toNat_lt c hb

/-- Identifiers are in normal form. -/
theorem normalizeOIDCSessionID_sessionID (sha : Sha256) (p : Provider) (token : String) :
    normalizeOIDCSessionID (sessionID sha p token) = sessionID sha p token := by
  have hchars := isIDChar_sessionID sha p token
  have htrim : trimSpace (sessionID sha p token) = sessionID sha p token := by
    apply trimSpace_eq_self
    intro c hc
    have h := hchars c hc
    rw [isIDChar, Bool.and_eq_true, Bool.not_eq_true'] at h
    exact h.1
  have hlower : (sessionID sha p token).toList.map toLowerRune = (sessionID sha p token).toList := by
    refine (List.map_congr_left fun c hc => ?_).trans (List.map_id _)
    have h := hchars c hc
    rw [isIDChar, Bool.and_eq_true, beq_iff_eq] at h
    exact h.2
  rw [normalizeOIDCSessionID, htrim, toLower, hlower, String.ofList_toList]

/-- Sessions with one identifier have tokens with one digest. -/
theorem sum_of_sessionID {sha : Sha256} {p : Provider} {t u : String}
    (h : sessionID sha p t = sessionID sha p u) : sha.sum t = sha.sum u := by
  have hlist := congrArg String.toList h
  rw [sessionID, sessionID, String.toList_append, String.toList_append, String.toList_ofList,
    String.toList_ofList] at hlist
  have hhex := congrArg hexDecode (List.append_cancel_left hlist)
  rw [hexDecode_hexEncode, hexDecode_hexEncode] at hhex
  exact Option.some.inj hhex

theorem sessionID_ne_empty (sha : Sha256) (p : Provider) (token : String) :
    sessionID sha p token ≠ "" := by
  intro h
  have hlead := (String.append_eq_empty_iff.mp h).1
  cases p with
  | oidc => exact absurd hlead (by decide)
  | saml => exact absurd hlead (by decide)

/-! ### The oldest entry is found -/

section Oldest

variable {ν : Type} {expires : ν → Int}

/-- From an entry on, the loop finds the oldest of it and of those that follow. -/
theorem oldestKeyLoop_spec (expires : ν → Int) {first : String × ν} {l : List (String × ν)}
    (hnd : ((first :: l).map Prod.fst).Nodup) (hkeys : ∀ e ∈ first :: l, e.1 ≠ "") :
    ∃ e ∈ first :: l, oldestKeyLoop expires first.1 (expires first.2) l = e.1 ∧
      ∀ e' ∈ first :: l, e' ≠ e → Table.Older expires e e' := by
  induction l generalizing first with
  | nil =>
      refine ⟨first, List.mem_cons_self, rfl, fun e' he' hne => ?_⟩
      exact (hne (List.mem_singleton.mp he')).elim
  | cons next l ih =>
      obtain ⟨hfirst, hrest⟩ := List.nodup_cons.mp hnd
      have hne : next.1 ≠ first.1 := fun h => hfirst (h ▸ List.mem_cons_self)
      by_cases hold : Table.Older expires next first
      · -- The loop goes on with the next entry.
        obtain ⟨e, he, hloop, hmin⟩ := ih hrest fun e he => hkeys e (List.mem_cons_of_mem _ he)
        refine ⟨e, List.mem_cons_of_mem _ he, ?_, fun e' he' hne' => ?_⟩
        · rw [oldestKeyLoop, if_pos (.inr hold)]
          exact hloop
        · rcases List.mem_cons.mp he' with rfl | he'
          · by_cases heq : next = e
            · exact heq ▸ hold
            · exact (hmin next List.mem_cons_self heq).trans hold
          · exact hmin e' he' hne'
      · -- the loop keeps the entry it has
        have hnd' : ((first :: l).map Prod.fst).Nodup :=
          List.nodup_cons.mpr ⟨fun h => hfirst (List.mem_cons_of_mem _ h),
            (List.nodup_cons.mp hrest).2⟩
        have hsub : ∀ e ∈ first :: l, e ∈ first :: next :: l := by
          intro e he
          rcases List.mem_cons.mp he with rfl | he
          · exact List.mem_cons_self
          · exact List.mem_cons_of_mem _ (List.mem_cons_of_mem _ he)
        obtain ⟨e, he, hloop, hmin⟩ := ih hnd' fun e he => hkeys e (hsub e he)
        refine ⟨e, hsub e he, ?_, fun e' he' hne' => ?_⟩
        · rw [oldestKeyLoop, if_neg]
          · exact hloop
          · rintro (hempty | hlt)
            · exact hkeys first List.mem_cons_self hempty
            · exact hold hlt
        · rcases List.mem_cons.mp he' with rfl | he'
          · exact hmin e' List.mem_cons_self hne'
          · rcases List.mem_cons.mp he' with rfl | he'
            · have hyoung := Table.Older.of_not hne hold
              by_cases heq : first = e
              · exact heq ▸ hyoung
              · exact (hmin first List.mem_cons_self heq).trans hyoung
            · exact hmin e' (List.mem_cons_of_mem _ he') hne'

/-- **The oldest entry is found**, in whichever order the map is gone through. -/
theorem picksOldest_oldestKey : Table.PicksOldest expires (fun k => k ≠ "") (oldestKey expires) := by
  intro l hne hnd hkeys
  cases l with
  | nil => exact absurd rfl hne
  | cons first l =>
      obtain ⟨e, he, hloop, hmin⟩ := oldestKeyLoop_spec expires hnd hkeys
      refine ⟨e, he, ?_, hmin⟩
      have hstart : oldestKeyLoop expires "" 0 (first :: l) = e.1 := by
        rw [oldestKeyLoop, if_pos (.inl rfl)]
        exact hloop
      simp only [oldestKey, hstart]
      exact if_pos (hkeys e he)

end Oldest

/-! ### What a call does

Entries come from a call that stored them and leave by expiry, by removal or by eviction. Each call
is inverted once, into what of a map it keeps. -/

section Steps

variable {sha : Sha256} {p : Provider} {cfg : BrowserConfig} {s : Stores}

/-- The names and tokens in the stores come from calls of the run. -/
structure Stores.NamedBy (calls : List (BrowserCall p)) (s : Stores) : Prop where
  states : ∀ e ∈ s.states.entries, e.1 ∈ calls.filterMap BrowserCall.storedState?
  sessions : ∀ e ∈ s.sessions.entries, e.1 ∈ calls.filterMap BrowserCall.storedToken?

theorem ne_empty_of_storedState {calls : List (BrowserCall p)} {state : String}
    (h : state ∈ calls.filterMap BrowserCall.storedState?) : state ≠ "" := by
  obtain ⟨call, -, hcall⟩ := List.mem_filterMap.mp h
  cases call with
  | login raw nonce verifier returnPath now =>
      cases hcall
      exact randomURLToken_ne_empty (by cases p <;> decide) raw
  | _ => cases hcall

theorem ne_empty_of_storedToken {calls : List (BrowserCall p)} {token : String}
    (h : token ∈ calls.filterMap BrowserCall.storedToken?) : token ≠ "" := by
  obtain ⟨call, -, hcall⟩ := List.mem_filterMap.mp h
  cases call with
  | storeSession raw sess now =>
      cases hcall
      exact randomURLToken_ne_empty (by decide) raw
  | _ => cases hcall

/-- Storing a session drops the oldest ones. -/
theorem storeSession_evicted (cfg : BrowserConfig) {calls : List (BrowserCall p)}
    (hs : s.NamedBy calls) {token : String} (htoken : token ≠ "") (sess : Session) (now : Int) :
    Table.Evicted Session.expiresAt (cfg.sessionLimit p)
      ((s.sessions.reap Session.expiresAt now).put token sess)
      (storeSession p cfg token sess now s).sessions := by
  refine Table.evict_spec picksOldest_oldestKey fun e he => ?_
  rcases Table.mem_put.mp he with rfl | ⟨he, -⟩
  · exact htoken
  · exact ne_empty_of_storedToken (hs.sessions e (Table.mem_reap.mp he).1)

/-- Storing a login state drops the oldest ones. -/
theorem storeState_evicted (cfg : BrowserConfig) {calls : List (BrowserCall p)}
    (hs : s.NamedBy calls) {state : String} (hstate : state ≠ "") (st : LoginState) (now : Int) :
    Table.Evicted LoginState.expiresAt (cfg.stateLimit p)
      ((s.states.reap LoginState.expiresAt now).put state st)
      (storeState p cfg state st now s).states := by
  refine Table.evict_spec picksOldest_oldestKey fun e he => ?_
  rcases Table.mem_put.mp he with rfl | ⟨he, -⟩
  · exact hstate
  · exact ne_empty_of_storedState (hs.states e (Table.mem_reap.mp he).1)

theorem mem_reaped_sessions {now : Int} {e : String × Session}
    (he : e ∈ (reapExpiredLocked now s).sessions.entries) : e ∈ s.sessions.entries :=
  (Table.mem_reap.mp he).1

theorem mem_reaped_states {now : Int} {e : String × LoginState}
    (he : e ∈ (reapExpiredLocked now s).states.entries) : e ∈ s.states.entries :=
  (Table.mem_reap.mp he).1

theorem mem_revoked_sessions {id : String} {now : Int} {e : String × Session}
    (he : e ∈ (RevokeSession sha p id now s).sessions.entries) : e ∈ s.sessions.entries := by
  unfold RevokeSession at he
  dsimp only at he
  split at he
  · exact he
  · split at he
    · exact mem_reaped_sessions he
    · exact mem_reaped_sessions (Table.mem_remove.mp he).1

theorem mem_revoked_states {id : String} {now : Int} {e : String × LoginState}
    (he : e ∈ (RevokeSession sha p id now s).states.entries) : e ∈ s.states.entries := by
  unfold RevokeSession at he
  dsimp only at he
  split at he
  · exact he
  · split at he
    · exact mem_reaped_states he
    · exact mem_reaped_states he

/-- A session that is there after a call was there before, or is the one the call stores. -/
theorem mem_sessions_exec {call : BrowserCall p} {e : String × Session}
    (he : e ∈ (execBrowser sha p cfg call s).2.sessions.entries) :
    e ∈ s.sessions.entries ∨
      ∃ raw now, call = .storeSession raw e.2 now ∧ randomURLToken raw = e.1 := by
  cases call with
  | login raw nonce verifier returnPath now => exact .inl (mem_reaped_sessions he)
  | popState state now later =>
      suffices hreaped : e ∈ (reapExpiredLocked now s).sessions.entries from
        .inl (mem_reaped_sessions hreaped)
      dsimp only [execBrowser, popState] at he
      split at he
      · exact he
      · split at he <;> exact he
  | storeSession raw sess now =>
      rcases Table.mem_put.mp (Table.mem_evict he) with rfl | ⟨he, -⟩
      · exact .inr ⟨raw, now, rfl, rfl⟩
      · exact .inl (mem_reaped_sessions he)
  | lookupSession token now =>
      suffices hreaped : e ∈ (reapExpiredLocked now s).sessions.entries from
        .inl (mem_reaped_sessions hreaped)
      dsimp only [execBrowser, lookupSession] at he
      split at he
      · exact he
      · split at he
        · exact he
        · exact (Table.mem_remove.mp he).1
  | handleLogout cookie =>
      cases p with
      | oidc => exact .inl (Table.mem_remove.mp he).1
      | saml => exact .inl he
  | revokeBrowserSessionToken token now =>
      dsimp only [execBrowser, RevokeBrowserSessionToken] at he
      split at he
      · exact .inl he
      · exact .inl (mem_revoked_sessions he)
  | revokeSession id now =>
      dsimp only [execBrowser] at he
      exact .inl (mem_revoked_sessions he)
  | revokeAllSessions now => cases he
  | inspect now => exact .inl (mem_reaped_sessions he)

/-- A login state that is there after a call was there before, or is the one the call stores. -/
theorem mem_states_exec {call : BrowserCall p} {e : String × LoginState}
    (he : e ∈ (execBrowser sha p cfg call s).2.states.entries) :
    e ∈ s.states.entries ∨ call.storedState? = some e.1 := by
  cases call with
  | login raw nonce verifier returnPath now =>
      rcases Table.mem_put.mp (Table.mem_evict he) with rfl | ⟨he, -⟩
      · exact .inr rfl
      · exact .inl (mem_reaped_states he)
  | popState state now later =>
      suffices hreaped : e ∈ (reapExpiredLocked now s).states.entries from
        .inl (mem_reaped_states hreaped)
      dsimp only [execBrowser, popState] at he
      split at he
      · exact he
      · split at he <;> exact (Table.mem_remove.mp he).1
  | storeSession raw sess now => exact .inl (mem_reaped_states he)
  | lookupSession token now =>
      suffices hreaped : e ∈ (reapExpiredLocked now s).states.entries from
        .inl (mem_reaped_states hreaped)
      dsimp only [execBrowser, lookupSession] at he
      split at he
      · exact he
      · split at he <;> exact he
  | handleLogout cookie =>
      cases p with
      | oidc => exact .inl he
      | saml => exact .inl he
  | revokeBrowserSessionToken token now =>
      dsimp only [execBrowser, RevokeBrowserSessionToken] at he
      split at he
      · exact .inl he
      · exact .inl (mem_revoked_states he)
  | revokeSession id now =>
      dsimp only [execBrowser] at he
      exact .inl (mem_revoked_states he)
  | revokeAllSessions now => exact .inl (mem_reaped_states he)
  | inspect now => exact .inl (mem_reaped_states he)

theorem namedBy_step {calls : List (BrowserCall p)} {call : BrowserCall p} (hcall : call ∈ calls)
    (hs : s.NamedBy calls) : (execBrowser sha p cfg call s).2.NamedBy calls := by
  refine ⟨fun e he => ?_, fun e he => ?_⟩
  · rcases mem_states_exec he with h | h
    · exact hs.states e h
    · exact List.mem_filterMap.mpr ⟨call, hcall, h⟩
  · rcases mem_sessions_exec he with h | ⟨raw, now, rfl, h⟩
    · exact hs.sessions e h
    · exact List.mem_filterMap.mpr ⟨_, hcall, congrArg some h⟩

/-- A lookup finds a session that is there and has not expired. -/
theorem lookupSession_eq_some {token : String} {now : Int} {sess : Session}
    (h : (lookupSession token now s).1 = some sess) :
    s.sessions.get token = some sess ∧ now < sess.expiresAt := by
  dsimp only [lookupSession] at h
  split at h
  · cases h
  · next found hget =>
      split at h
      · next hlt =>
          cases h
          exact ⟨Table.get_eq_some.mpr (mem_reaped_sessions (Table.get_eq_some.mp hget)), hlt⟩
      · cases h

theorem lookupSession_some (sha : Sha256) (cfg : BrowserConfig) {token : String} {now : Int}
    {sess : Session} (h : (execBrowser sha p cfg (.lookupSession token now) s).1 = .session sess) :
    s.sessions.get token = some sess ∧ now < sess.expiresAt := by
  refine lookupSession_eq_some ?_
  dsimp only [execBrowser] at h
  cases hr : (lookupSession token now s).1 with
  | none => rw [hr] at h; cases h
  | some found => rw [hr] at h; cases h; rfl

/-- A login state is handed out before it expires if it is there, and is there no longer. -/
theorem popState_eq_some {state : String} {now later : Int} {st : LoginState}
    (h : (popState state now later s).1 = some st) :
    s.states.get state = some st ∧ later < st.expiresAt ∧
      (popState state now later s).2.states.get state = none := by
  dsimp only [popState] at h ⊢
  split at h
  · cases h
  · next found hget =>
      split at h
      · next hlt =>
          cases h
          refine ⟨Table.get_eq_some.mpr (mem_reaped_states (Table.get_eq_some.mp hget)), hlt, ?_⟩
          rw [if_pos hlt]
          exact Table.get_remove_self _ _
      · cases h

theorem popState_some (sha : Sha256) (cfg : BrowserConfig) {state : String} {now later : Int}
    {st : LoginState}
    (h : (execBrowser sha p cfg (.popState state now later) s).1 = .state st) :
    s.states.get state = some st ∧
      (execBrowser sha p cfg (.popState state now later) s).2.states.get state = none := by
  dsimp only [execBrowser] at h ⊢
  cases hr : (popState state now later s).1 with
  | none => rw [hr] at h; cases h
  | some found =>
      rw [hr] at h
      cases h
      obtain ⟨hget, -, hgone⟩ := popState_eq_some hr
      exact ⟨hget, hgone⟩

/-- With distinct digests, revoking the identifier of a token removes its session. -/
theorem get_revoked {calls : List (BrowserCall p)} (hs : s.NamedBy calls)
    (hsha : ∀ t ∈ calls.filterMap BrowserCall.storedToken?,
      ∀ u ∈ calls.filterMap BrowserCall.storedToken?, sha.sum t = sha.sum u → t = u)
    {token id : String} (htoken : token ∈ calls.filterMap BrowserCall.storedToken?)
    (hid : normalizeOIDCSessionID id = sessionID sha p token) (now : Int) :
    (RevokeSession sha p id now s).sessions.get token = none := by
  rw [Option.eq_none_iff_forall_ne_some]
  intro sess hget
  have hmem := Table.get_eq_some.mp hget
  unfold RevokeSession at hmem
  rw [hid, if_neg (sessionID_ne_empty sha p token)] at hmem
  dsimp only at hmem
  split at hmem
  · next hnone =>
      have hne := List.find?_eq_none.mp hnone _ hmem
      exact hne (decide_eq_true (normalizeOIDCSessionID_sessionID sha p token))
  · next e hsome =>
      obtain ⟨hmem, hne⟩ := Table.mem_remove.mp hmem
      have hsame := List.find?_some hsome
      rw [decide_eq_true_iff, normalizeOIDCSessionID_sessionID] at hsame
      have he := hs.sessions e (mem_reaped_sessions (List.mem_of_find?_eq_some hsome))
      exact hne (hsha e.1 he token htoken (sum_of_sessionID hsame)).symm

/-- A logged-out token has no session. -/
theorem get_of_logsOut (cfg : BrowserConfig) {calls : List (BrowserCall p)}
    (hs : s.NamedBy calls)
    (hsha : ∀ t ∈ calls.filterMap BrowserCall.storedToken?,
      ∀ u ∈ calls.filterMap BrowserCall.storedToken?, sha.sum t = sha.sum u → t = u)
    {token : String} (htoken : token ∈ calls.filterMap BrowserCall.storedToken?)
    {call : BrowserCall p} (hout : call.LogsOut sha token) :
    (execBrowser sha p cfg call s).2.sessions.get token = none := by
  cases call with
  | handleLogout cookie =>
      obtain ⟨rfl, rfl⟩ := hout
      exact Table.get_remove_self _ _
  | revokeBrowserSessionToken given now =>
      change trimSpace given = token at hout
      show (RevokeBrowserSessionToken sha p given now s).sessions.get token = none
      dsimp only [RevokeBrowserSessionToken]
      rw [hout, if_neg (ne_empty_of_storedToken htoken)]
      exact get_revoked hs hsha htoken (normalizeOIDCSessionID_sessionID sha p token) now
  | revokeSession id now =>
      exact get_revoked hs hsha htoken
        (hout.trans (normalizeOIDCSessionID_sessionID sha p token)) now
  | revokeAllSessions now => exact Table.get_empty token
  | _ => exact hout.elim

end Steps

/-! ### Whole runs -/

section Runs

variable {sha : Sha256} {p : Provider} {cfg : BrowserConfig} {calls : List (BrowserCall p)}

theorem namedBy_event : ∀ ev ∈ history (execBrowser sha p cfg) noSessions calls,
    ev.before.NamedBy calls ∧ ev.after.NamedBy calls := by
  have h0 : noSessions.NamedBy calls := ⟨fun e he => (by cases he), fun e he => (by cases he)⟩
  exact history_invariant (fun _ _ hc hs => namedBy_step hc hs) (fun _ hc => hc) h0

/-- A login state that is handed out. -/
def HandsOut (ev : BrowserEvent p) (state : String) : Prop :=
  ∃ now later st, ev.input = .popState state now later ∧ ev.output = .state st

/-- **A session that is there** was stored by an earlier call, was there ever since, and was not
logged out. -/
theorem stored_of_session
    (hsha : ∀ t ∈ calls.filterMap BrowserCall.storedToken?,
      ∀ u ∈ calls.filterMap BrowserCall.storedToken?, sha.sum t = sha.sum u → t = u)
    {pre post : List (BrowserEvent p)} {ev : BrowserEvent p}
    (hes : history (execBrowser sha p cfg) noSessions calls = pre ++ ev :: post) {token : String}
    {sess : Session} (hget : ev.before.sessions.get token = some sess) :
    ∃ pre' a mid raw now, pre = pre' ++ a :: mid ∧ a.input = .storeSession raw sess now ∧
      randomURLToken raw = token ∧ (∀ b ∈ a :: mid, b.after.sessions.get token = some sess) ∧
      ∀ b ∈ mid, ¬ b.input.LogsOut sha token := by
  have h0 : ¬ noSessions.sessions.get token = some sess := by
    rw [noSessions, Table.get_empty]
    exact fun h => nomatch h
  obtain ⟨pre', a, mid, rfl, hbefore, hafter, hmid⟩ :=
    history_last_cause (P := fun s => s.sessions.get token = some sess) h0 hes hget
  have hsub : ∀ b ∈ a :: mid, b ∈ history (execBrowser sha p cfg) noSessions calls := by
    intro b hb
    rw [hes]
    exact List.mem_append_left _ (List.mem_append_right _ hb)
  have hexec := (history_event (hsub a List.mem_cons_self)).2
  have hmem : (token, sess) ∈ (execBrowser sha p cfg a.input a.before).2.sessions.entries := by
    rw [hexec]
    exact Table.get_eq_some.mp hafter
  rcases mem_sessions_exec hmem with hold | ⟨raw, now, hinput, hraw⟩
  · exact (hbefore (Table.get_eq_some.mpr hold)).elim
  · refine ⟨pre', a, mid, raw, now, rfl, hinput, hraw, ?_, fun b hb hout => ?_⟩
    · exact List.forall_mem_cons.mpr ⟨hafter, hmid⟩
    · have hb' := hsub b (List.mem_cons_of_mem _ hb)
      have htoken : token ∈ calls.filterMap BrowserCall.storedToken? :=
        (namedBy_event b hb').2.sessions _ (Table.get_eq_some.mp (hmid b hb))
      have hnone := get_of_logsOut cfg (namedBy_event b hb').1 hsha htoken hout
      rw [(history_event hb').2, hmid b hb] at hnone
      cases hnone

/-- **Between two times a login state is handed out, it is stored.** -/
theorem stored_between {pre mid post : List (BrowserEvent p)} {a b : BrowserEvent p}
    (hes : history (execBrowser sha p cfg) noSessions calls = pre ++ a :: (mid ++ b :: post))
    {state : String} (ha : HandsOut a state) (hb : HandsOut b state) :
    ∃ c ∈ mid, c.input.storedState? = some state := by
  obtain ⟨now, later, st, hain, haout⟩ := ha
  obtain ⟨now', later', st', hbin, hbout⟩ := hb
  have haev : a ∈ history (execBrowser sha p cfg) noSessions calls :=
    hes ▸ List.mem_append_right _ List.mem_cons_self
  have hbev : b ∈ history (execBrowser sha p cfg) noSessions calls :=
    hes ▸ List.mem_append_right _ (List.mem_cons_of_mem _
      (List.mem_append_right _ List.mem_cons_self))
  have haexec := (history_event haev).2
  have hbexec := (history_event hbev).2
  rw [hain] at haexec
  rw [hbin] at hbexec
  have hgone : a.after.states.get state = none := by
    have h := (popState_some sha cfg (by rw [haexec]; exact haout)).2
    rwa [haexec] at h
  have hthere : b.before.states.get state = some st' :=
    (popState_some sha cfg (by rw [hbexec]; exact hbout)).1
  -- The rest of the run starts without the login state.
  obtain ⟨xs, ys, -, -, hrest⟩ := history_split hes
  cases ys with
  | nil => cases hrest
  | cons i ys =>
      obtain ⟨rfl, hlater⟩ := List.cons.inj hrest
      have h0 : ¬ (execBrowser sha p cfg i (final (execBrowser sha p cfg) noSessions xs)).2.states.get
          state = some st' := by
        intro h
        rw [hgone] at h
        cases h
      obtain ⟨c, hc, hcbefore, hcafter⟩ :=
        history_cause (P := fun s => s.states.get state = some st') h0 hlater.symm hthere
      have hcexec := (history_event (hlater ▸ List.mem_append_left _ hc)).2
      refine ⟨c, hc, ?_⟩
      have hmem : (state, st') ∈ (execBrowser sha p cfg c.input c.before).2.states.entries := by
        rw [hcexec]
        exact Table.get_eq_some.mp hcafter
      rcases mem_states_exec hmem with hold | hstored
      · exact (hcbefore (Table.get_eq_some.mpr hold)).elim
      · exact hstored

/-- What storing an entry leaves of a table of at most `limit` entries that held `before`. -/
structure StoredWithin {ν : Type} (expires : ν → Int) (limit : Nat) (key : String) (v : ν)
    (now : Int) (before after : Table String ν) : Prop where
  /-- The table is within its bound. -/
  size : after.size ≤ limit
  /-- Of what had not expired and the new entry, the oldest entries are evicted, as many as are
  too many. -/
  evicted : Table.Evicted expires limit ((before.reap expires now).put key v) after
  /-- An entry that expires after all others is there. -/
  newest : (∀ e ∈ before.entries, e.1 ≠ key → expires e.2 < expires v) → after.get key = some v

theorem StoredWithin.of_evicted {ν : Type} {expires : ν → Int} {limit : Nat} {key : String} {v : ν}
    {now : Int} {before after : Table String ν} (hlimit : 0 < limit)
    (h : Table.Evicted expires limit ((before.reap expires now).put key v) after) :
    StoredWithin expires limit key v now before after := by
  refine ⟨?_, h, fun hnew => Table.get_eq_some.mpr (h.newest_mem hlimit ?_ fun e he hne => ?_)⟩
  · rw [h.size]
    exact Nat.min_le_right _ _
  · exact Table.mem_put.mpr (.inl rfl)
  · rcases Table.mem_put.mp he with rfl | ⟨he, hkey⟩
    · exact absurd rfl hne
    · exact .inl (hnew e (Table.mem_reap.mp he).1 hkey)

theorem stateLimit_pos : 0 < cfg.stateLimit p := by
  unfold BrowserConfig.stateLimit
  split
  · cases p <;> decide
  · omega

theorem sessionLimit_pos : 0 < cfg.sessionLimit p := by
  unfold BrowserConfig.sessionLimit
  split
  · cases p <;> decide
  · omega

theorem storedWithin_session {ev : BrowserEvent p}
    (hev : ev ∈ history (execBrowser sha p cfg) noSessions calls) {raw : Random 32}
    {sess : Session} {now : Int} (hin : ev.input = .storeSession raw sess now) :
    StoredWithin Session.expiresAt (cfg.sessionLimit p) (randomURLToken raw) sess now
      ev.before.sessions ev.after.sessions := by
  have hexec := (history_event hev).2
  rw [hin] at hexec
  have hevicted := storeSession_evicted cfg (namedBy_event ev hev).1
    (randomURLToken_ne_empty (by decide) raw) sess now
  have hafter : ev.after = storeSession p cfg (randomURLToken raw) sess now ev.before :=
    (congrArg Prod.snd hexec).symm
  exact hafter ▸ StoredWithin.of_evicted sessionLimit_pos hevicted

theorem storedWithin_state {ev : BrowserEvent p}
    (hev : ev ∈ history (execBrowser sha p cfg) noSessions calls) {raw : Random p.stateBytes}
    {nonce verifier returnPath : String} {now : Int}
    (hin : ev.input = .login raw nonce verifier returnPath now) :
    StoredWithin LoginState.expiresAt (cfg.stateLimit p) (randomURLToken raw)
      (loginState p cfg nonce verifier returnPath now) now ev.before.states ev.after.states := by
  have hexec := (history_event hev).2
  rw [hin] at hexec
  have hevicted := storeState_evicted cfg (namedBy_event ev hev).1
    (randomURLToken_ne_empty (by cases p <;> decide) raw)
    (loginState p cfg nonce verifier returnPath now) now
  have hafter : ev.after = storeState p cfg (randomURLToken raw)
      (loginState p cfg nonce verifier returnPath now) now ev.before :=
    (congrArg Prod.snd hexec).symm
  exact hafter ▸ StoredWithin.of_evicted stateLimit_pos hevicted

end Runs

/-- **Browser sessions and login states**, for either authenticator and any run of its operations,
whose clock readings are arbitrary. The tokens of the run have distinct SHA-256 digests, which is
what `RevokeSession` identifies a session by.

A lookup that succeeds does so before the session expires, and returns what was stored with the
token by a call since which the session was there all along and was not logged out. Between two
times a login state is handed out, it is stored. A store keeps the table within its bound, evicts
the oldest entries first, and never the one just stored if that is the last to expire. -/
theorem browser_session_stores (sha : Sha256) (p : Provider) (cfg : BrowserConfig)
    (calls : List (BrowserCall p))
    (hsha : ∀ t ∈ calls.filterMap BrowserCall.storedToken?,
      ∀ u ∈ calls.filterMap BrowserCall.storedToken?, sha.sum t = sha.sum u → t = u) :
    let es := history (execBrowser sha p cfg) noSessions calls
    (∀ pre ev post token now sess, es = pre ++ ev :: post →
        ev.input = .lookupSession token now → ev.output = .session sess →
      now < sess.expiresAt ∧
        ∃ pre' a mid raw at', pre = pre' ++ a :: mid ∧ a.input = .storeSession raw sess at' ∧
          randomURLToken raw = token ∧
          (∀ b ∈ a :: mid, b.after.sessions.get token = some sess) ∧
          ∀ b ∈ mid, ¬ b.input.LogsOut sha token) ∧
      (∀ pre a mid b post state, es = pre ++ a :: (mid ++ b :: post) →
          HandsOut a state → HandsOut b state →
        ∃ c ∈ mid, c.input.storedState? = some state) ∧
      (∀ ev ∈ es, ∀ raw sess now, ev.input = .storeSession raw sess now →
        StoredWithin Session.expiresAt (cfg.sessionLimit p) (randomURLToken raw) sess now
          ev.before.sessions ev.after.sessions) ∧
      ∀ ev ∈ es, ∀ raw nonce verifier returnPath now,
        ev.input = .login raw nonce verifier returnPath now →
        StoredWithin LoginState.expiresAt (cfg.stateLimit p) (randomURLToken raw)
          (loginState p cfg nonce verifier returnPath now) now ev.before.states
          ev.after.states := by
  intro es
  refine ⟨?_, ?_, ?_, ?_⟩
  · intro pre ev post token now sess hes hin hout
    have hev : ev ∈ es := hes ▸ List.mem_append_right _ List.mem_cons_self
    have hexec := (history_event hev).2
    rw [hin] at hexec
    obtain ⟨hget, hlt⟩ := lookupSession_some sha cfg (by rw [hexec]; exact hout)
    exact ⟨hlt, stored_of_session hsha hes hget⟩
  · intro pre a mid b post state hes ha hb
    exact stored_between hes ha hb
  · intro ev hev raw sess now hin
    exact storedWithin_session hev hin
  · intro ev hev raw nonce verifier returnPath now hin
    exact storedWithin_state hev hin

def sampleTokenSum (s : String) : List UInt8 :=
  if s = "AAAAAAAAAAAAAAAAAAAAAAAAAAAAAAAAAAAAAAAAAAA" then
    [15, 0, 115, 133, 182, 249, 212, 183, 238, 178, 116, 134, 5, 175, 225, 169, 132, 160, 163,
      191, 163, 240, 20, 208, 158, 42, 120, 76, 233, 229, 205, 26]
  else if s = "__________________________________________8" then
    [34, 95, 126, 117, 50, 157, 212, 90, 163, 84, 151, 93, 115, 152, 115, 25, 48, 147, 147, 175,
      58, 76, 103, 51, 188, 19, 96, 26, 79, 27, 135, 150]
  else List.replicate 32 0

/-- SHA-256 on the two tokens of the run below. -/
def sampleTokenSha : Sha256 where
  sum := sampleTokenSum
  size := by
    intro s
    unfold sampleTokenSum
    split
    · rfl
    · split <;> rfl

def sampleRaw (b : UInt8) : Random 32 := ⟨List.replicate 32 b, List.length_replicate⟩

/-- Two sessions where there is room for one, and a lookup of each. -/
def sampleCalls : List (BrowserCall .oidc) :=
  let alice : Session := ⟨⟨"alice", .admin, "oidc-session"⟩, 100, "csrf"⟩
  let bob : Session := ⟨⟨"bob", .viewer, "oidc-session"⟩, 110, "csrf"⟩
  [.storeSession (sampleRaw 0) alice 0, .storeSession (sampleRaw 255) bob 10,
    .lookupSession (randomURLToken (sampleRaw 0)) 20,
    .lookupSession (randomURLToken (sampleRaw 255)) 20]

/-- The second session evicts the first, which expires before it. -/
theorem browser_session_stores_evicts :
    ((history (execBrowser sampleTokenSha .oidc ⟨600, 0, 1⟩) noSessions sampleCalls).map
        Event.output = [.nothing, .nothing, .nothing,
          .session ⟨⟨"bob", .viewer, "oidc-session"⟩, 110, "csrf"⟩]) ∧
      ∀ ev ∈ history (execBrowser sampleTokenSha .oidc ⟨600, 0, 1⟩) noSessions sampleCalls,
        ∀ raw sess now, ev.input = .storeSession raw sess now → ev.after.sessions.size ≤ 1 := by
  refine ⟨by decide, fun ev hev raw sess now hin => ?_⟩
  have hsha : ∀ t ∈ sampleCalls.filterMap BrowserCall.storedToken?,
      ∀ u ∈ sampleCalls.filterMap BrowserCall.storedToken?,
        sampleTokenSha.sum t = sampleTokenSha.sum u → t = u := by decide
  exact ((browser_session_stores sampleTokenSha .oidc ⟨600, 0, 1⟩ sampleCalls hsha).2.2.1 ev hev raw
    sess now hin).size

end Phragma.Authz
