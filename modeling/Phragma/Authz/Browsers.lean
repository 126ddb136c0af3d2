import Phragma.Authz.Sessions
import Mathlib.Logic.Function.Basic

/-!
# Phragma.Authz.Browsers

Browsers that sign in: `handleLogin` and `handleCallback` of `internal/authz/oidc.go`,
`handleLogin` and `handleACS` of `internal/authz/saml.go`, and the cookie jars of the browsers
that send the requests.

A callback takes the login state out of the store under one lock, asks the identity provider,
and stores the session under another, so requests interleave in between: a callback is two steps,
and what it has taken is in flight until the second. What a browser presents is arbitrary.

A login state is a name in the store and nothing else: neither authenticator ties it to the
browser whose login created it (`otherBrowser_signsIn`). What a sign-in rests on is that some
login created the state, that it has not expired and that nobody has taken it since
(`signIn_follows_login`).
-/

namespace Phragma.Authz

open Lib Go

/-! ### Identities

What a login says of its user comes as claims. A claim may be a text or a list of texts. -/

/-- A claim as the handlers look at it: an item that is no string is `none`. -/
inductive Claim
  | str (s : String)
  | list (items : List (Option String))
  | other

/-- The loop of `roleFromClaim`; `none` before the first role. -/
def bestRole : Option Role → List (Option String) → Option Role
  | best, [] => best
  | _, none :: _ => none
  | best, some s :: items =>
      match ParseRole s with
      | .error _ => none
      | .ok role => bestRole (if best.elim 0 Role.level < role.level then some role else best) items

/-- `roleFromClaim`: the role of a claim, the best of several, or the default where there is no
claim. -/
def roleFromClaim (v : Option Claim) (fallback : Role) : Option Role :=
  match v with
  | none => some fallback
  | some (.str s) => (ParseRole s).toOption
  | some (.list []) => some fallback
  | some (.list items) => bestRole none items
  | some .other => none

/-- `firstClaimString`: the first claim that is a text and not blank. -/
def firstClaimString (claims : String → Option Claim) : List String → String
  | [] => ""
  | key :: keys =>
      match claims key with
      | some (.str s) => if trimSpace s ≠ "" then trimSpace s else firstClaimString claims keys
      | _ => firstClaimString claims keys

/-- What the handlers read of a verified ID token. -/
structure IDToken where
  nonce : String
  subject : String
  claims : String → Option Claim

/-- What the handlers read of an attribute of a SAML assertion. -/
structure Attribute where
  name : String
  friendlyName : String
  /-- The values, each with the name identifier in it. -/
  values : List (String × Option String)

/-- What the handlers read of a SAML assertion. -/
structure Assertion where
  attributes : List Attribute
  subjectNameID : Option String

/-- The values of an attribute that are not empty. -/
def Attribute.texts (attr : Attribute) : List String :=
  attr.values.filterMap fun value =>
    let v := trimSpace value.1
    let v := if v = "" then value.2.elim v trimSpace else v
    if v ≠ "" then some v else none

/-- `samlAssertionClaims`: later attributes win. -/
def samlAssertionClaims (assertion : Assertion) (key : String) : Option Claim :=
  assertion.attributes.foldl (fun found attr =>
    if key = "" ∨ attr.texts = [] then found
    else if trimSpace attr.name = key ∨ trimSpace attr.friendlyName = key then
      match attr.texts with
      | [v] => some (.str v)
      | vs => some (.list (vs.map some))
    else found) none

/-- What the handlers read of `OIDCConfig` and `SAMLConfig`; the default role as it is
parsed. -/
structure LoginConfig extends BrowserConfig where
  cookieName : String
  sessionTTL : Int
  /-- `RoleClaim`, `RoleAttribute`. -/
  roleClaim : String
  defaultRole : Role

/-- `identityFromToken`: the user of an OIDC token. -/
def identityFromToken (cfg : LoginConfig) (idToken : IDToken) : Option Identity :=
  match roleFromClaim (idToken.claims cfg.roleClaim) cfg.defaultRole with
  | none => none
  | some role =>
      let name := firstClaimString idToken.claims ["preferred_username", "name", "email"]
      let name := if name = "" then idToken.subject else name
      if name = "" then none else some ⟨name, role, "oidc-session"⟩

/-- `identityFromAssertion`: the user of a SAML assertion. -/
def identityFromAssertion (cfg : LoginConfig) (assertion : Assertion) : Option Identity :=
  let claims := samlAssertionClaims assertion
  match roleFromClaim (claims cfg.roleClaim) cfg.defaultRole with
  | none => none
  | some role =>
      let name := firstClaimString claims ["preferred_username", "name", "email", "mail", "uid"]
      let name := if name = "" then assertion.subjectNameID.elim "" trimSpace else name
      if name = "" then none else some ⟨name, role, "saml-session"⟩

/-! ### Requests

Logins and callbacks of any number of browsers come in any order, and each is some steps, between
which others come. -/

/-- What the identity provider answers, and the libraries make of it. -/
structure Answers where
  /-- `oauth2.Config.Exchange`: the raw ID token for a code and a code verifier. -/
  exchange : String → String → Option String
  /-- `oidc.IDTokenVerifier.Verify`. -/
  verify : String → Option IDToken
  /-- `saml.ServiceProvider.ParseResponse`, with the requests it may answer. -/
  parseResponse : String → List String → Option Assertion

/-- What a callback or ACS request presents. -/
structure Presented where
  /-- The `error` parameter of a callback. -/
  error : String
  /-- `state`, `RelayState`. -/
  state : String
  /-- `code`, `SAMLResponse`. -/
  credential : String

/-- A callback or ACS request that has taken a login state. -/
structure Flight (β : Type) where
  provider : Provider
  browser : β
  presented : Presented
  st : LoginState

/-- The identity a callback signs in, from the answers for the login state it has taken. -/
def Flight.identify {β : Type} (f : Flight β) (cfg : LoginConfig) (answers : Answers) :
    Option Identity :=
  match f.provider with
  | .oidc =>
      match answers.exchange f.presented.credential f.st.codeVerifier with
      | none => none
      | some rawIDToken =>
          if rawIDToken = "" then none
          else
            match answers.verify rawIDToken with
            | none => none
            | some idToken =>
                if idToken.nonce ≠ f.st.nonce then none else identityFromToken cfg idToken
  | .saml =>
      match answers.parseResponse f.presented.credential [f.st.nonce] with
      | none => none
      | some assertion => identityFromAssertion cfg assertion

/-- The stores of the authenticators, the cookie jar of every browser, and the callbacks that
are asking the identity provider. -/
structure World (β : Type) where
  stores : Provider → Stores
  jar : β → String → Option String
  inFlight : List (Flight β)

/-- Nobody has signed in. -/
def World.start {β : Type} : World β := ⟨fun _ => noSessions, fun _ _ => none, []⟩

/-- A step of a request of a browser, with the randomness it draws and the clock readings it
makes. -/
inductive BrowserStep (β : Type)
  | login (p : Provider) (browser : β) (raw : Random p.stateBytes)
      (nonce verifier returnPath : String) (now : Int)
  /-- A callback or ACS request, up to the login state. -/
  | present (p : Provider) (browser : β) (presented : Presented) (now later : Int)
  /-- The rest of the callback or ACS request in flight at an index. -/
  | complete (i : Nat) (answers : Answers) (token csrf : Random 32) (issued now : Int)

/-- What a step gives the browser. -/
inductive Outcome (β : Type)
  /-- To the identity provider, with the name of the login state. -/
  | redirected (state : String)
  | pending
  | refused
  /-- The session cookie, after the login state of this name. -/
  | signedIn (p : Provider) (browser : β) (state token : String)

section Steps

variable {β : Type} [DecidableEq β] (cfg : Provider → LoginConfig)

/-- The part of `handleLogin` that stores the login state. -/
def handleLogin (p : Provider) (raw : Random p.stateBytes) (nonce verifier returnPath : String)
    (now : Int) (w : World β) : Outcome β × World β :=
  let st := loginState p (cfg p).toBrowserConfig nonce verifier returnPath now
  let s := storeState p (cfg p).toBrowserConfig (randomURLToken raw) st now (w.stores p)
  (.redirected (randomURLToken raw), { w with stores := Function.update w.stores p s })

/-- `handleCallback` and `handleACS` up to `popState`. Only the callback looks at `error`. -/
def takeState (p : Provider) (browser : β) (presented : Presented) (now later : Int)
    (w : World β) : Outcome β × World β :=
  if p = .oidc ∧ presented.error ≠ "" then (.refused, w)
  else
    let r := popState presented.state now later (w.stores p)
    let w := { w with stores := Function.update w.stores p r.2 }
    match r.1 with
    | none => (.refused, w)
    | some st => (.pending, { w with inFlight := ⟨p, browser, presented, st⟩ :: w.inFlight })

/-- `handleCallback` and `handleACS` after `popState`. -/
def signIn (f : Flight β) (answers : Answers) (token csrf : Random 32) (issued now : Int)
    (w : World β) : Outcome β × World β :=
  match f.identify (cfg f.provider) answers with
  | none => (.refused, w)
  | some id =>
      let sess : Session := ⟨id, issued + (cfg f.provider).sessionTTL, randomURLToken csrf⟩
      let s := storeSession f.provider (cfg f.provider).toBrowserConfig (randomURLToken token) sess
        now (w.stores f.provider)
      let jar := Function.update (w.jar f.browser) (cfg f.provider).cookieName
        (some (randomURLToken token))
      (.signedIn f.provider f.browser f.presented.state (randomURLToken token),
        { w with stores := Function.update w.stores f.provider s,
                 jar := Function.update w.jar f.browser jar })

/-- Run a step. -/
def execStep : BrowserStep β → World β → Outcome β × World β
  | .login p _ raw nonce verifier returnPath now, w =>
      handleLogin cfg p raw nonce verifier returnPath now w
  | .present p browser presented now later, w => takeState p browser presented now later w
  | .complete i answers token csrf issued now, w =>
      match w.inFlight[i]? with
      | none => (.refused, w)
      | some f =>
          signIn cfg f answers token csrf issued now { w with inFlight := w.inFlight.eraseIdx i }

end Steps

/-! ### What a step does

A login puts in a state; a callback takes one out, and only then asks the provider; a session is
stored at the end. Each step is inverted once. -/

section Effects

variable {β : Type}

/-- Taking a login state: the request is refused, before or after the store was looked at, or
what is there is taken. -/
theorem takeState_cases (p : Provider) (browser : β) (presented : Presented) (now later : Int)
    (w : World β) :
    takeState p browser presented now later w = (.refused, w) ∨
    takeState p browser presented now later w = (.refused, { w with
      stores := Function.update w.stores p (popState presented.state now later (w.stores p)).2 }) ∨
    ∃ st, (popState presented.state now later (w.stores p)).1 = some st ∧
      takeState p browser presented now later w = (.pending, { w with
        stores := Function.update w.stores p (popState presented.state now later (w.stores p)).2,
        inFlight := ⟨p, browser, presented, st⟩ :: w.inFlight }) := by
  unfold takeState
  split
  · exact .inl rfl
  · dsimp only
    cases hpop : (popState presented.state now later (w.stores p)).1 with
    | none => exact .inr (.inl rfl)
    | some st => exact .inr (.inr ⟨st, rfl, rfl⟩)

variable [DecidableEq β] {cfg : Provider → LoginConfig} {w : World β}

/-- The step is a login of `browser` that stores the login state `st` under `state`. -/
def BrowserStep.Begins (cfg : Provider → LoginConfig) (step : BrowserStep β) (p : Provider)
    (browser : β) (state : String) (st : LoginState) : Prop :=
  ∃ raw nonce verifier returnPath now, step = .login p browser raw nonce verifier returnPath now ∧
    state = randomURLToken raw ∧
    st = loginState p (cfg p).toBrowserConfig nonce verifier returnPath now

theorem mem_popped {state : String} {now later : Int} {s : Stores} {e : String × LoginState}
    (he : e ∈ (popState state now later s).2.states.entries) : e ∈ s.states.entries := by
  dsimp only [popState] at he
  split at he
  · exact mem_reaped_states he
  · split at he <;> exact mem_reaped_states (Table.mem_remove.mp he).1

/-- A login state that is there after a step was there before, or the step is the login that
stores it. -/
theorem mem_states_step {step : BrowserStep β} {p : Provider} {e : String × LoginState}
    (he : e ∈ ((execStep cfg step w).2.stores p).states.entries) :
    e ∈ (w.stores p).states.entries ∨ ∃ browser, step.Begins cfg p browser e.1 e.2 := by
  cases step with
  | login q browser raw nonce verifier returnPath now =>
      by_cases hp : p = q
      · subst hp
        simp only [execStep, handleLogin, Function.update_self] at he
        rcases Table.mem_put.mp (Table.mem_evict he) with rfl | ⟨he, -⟩
        · exact .inr ⟨browser, raw, nonce, verifier, returnPath, now, rfl, rfl, rfl⟩
        · exact .inl (mem_reaped_states he)
      · simp only [execStep, handleLogin, Function.update_of_ne hp] at he
        exact .inl he
  | present q browser presented now later =>
      left
      rw [execStep] at he
      have hpopped : e ∈ (Function.update w.stores q
          (popState presented.state now later (w.stores q)).2 p).states.entries →
          e ∈ (w.stores p).states.entries := by
        by_cases hp : p = q
        · subst hp
          rw [Function.update_self]
          exact mem_popped
        · rw [Function.update_of_ne hp]
          exact id
      rcases takeState_cases q browser presented now later w with h | h | ⟨st, -, h⟩
      · rwa [h] at he
      · rw [h] at he
        exact hpopped he
      · rw [h] at he
        exact hpopped he
  | complete i answers token csrf issued now =>
      left
      simp only [execStep] at he
      split at he
      · exact he
      · next f hf =>
          simp only [signIn] at he
          split at he
          · exact he
          · next id hid =>
              by_cases hp : p = f.provider
              · subst hp
                simp only [Function.update_self] at he
                exact mem_reaped_states he
              · simp only [Function.update_of_ne hp] at he
                exact he

/-- A callback that is in flight after a step was so before, or has just taken its login state,
which was there. -/
theorem mem_inFlight_step {step : BrowserStep β} {f : Flight β}
    (hf : f ∈ (execStep cfg step w).2.inFlight) :
    f ∈ w.inFlight ∨ ∃ now later, step = .present f.provider f.browser f.presented now later ∧
      (w.stores f.provider).states.get f.presented.state = some f.st ∧ later < f.st.expiresAt ∧
      ((execStep cfg step w).2.stores f.provider).states.get f.presented.state = none := by
  cases step with
  | login q browser raw nonce verifier returnPath now => exact .inl hf
  | present q browser presented now later =>
      rw [execStep] at hf ⊢
      rcases takeState_cases q browser presented now later w with h | h | ⟨st, hpop, h⟩
      · rw [h] at hf
        exact .inl hf
      · rw [h] at hf
        exact .inl hf
      · rw [h] at hf ⊢
        rcases List.mem_cons.mp hf with rfl | hf
        · obtain ⟨hget, hlt, hgone⟩ := popState_eq_some hpop
          refine .inr ⟨now, later, rfl, hget, hlt, ?_⟩
          simp only [Function.update_self]
          exact hgone
        · exact .inl hf
  | complete i answers token csrf issued now =>
      left
      simp only [execStep] at hf
      split at hf
      · exact hf
      · simp only [signIn] at hf
        split at hf
        · exact List.mem_of_mem_eraseIdx hf
        · exact List.mem_of_mem_eraseIdx hf

/-- A step that signs a browser in completes a callback of it, and sets its cookie. -/
theorem signedIn_step {step : BrowserStep β} {p : Provider} {b : β} {state token : String}
    (h : (execStep cfg step w).1 = .signedIn p b state token) :
    ∃ i answers raw csrf issued now f id, step = .complete i answers raw csrf issued now ∧
      f ∈ w.inFlight ∧ f.provider = p ∧ f.browser = b ∧ f.presented.state = state ∧
      f.identify (cfg p) answers = some id ∧ token = randomURLToken raw ∧
      (execStep cfg step w).2.jar b (cfg p).cookieName = some token := by
  cases step with
  | login q browser raw nonce verifier returnPath now => cases h
  | present q browser presented now later =>
      rw [execStep] at h
      rcases takeState_cases q browser presented now later w with h' | h' | ⟨st, hpop, h'⟩ <;>
        rw [h'] at h <;> cases h
  | complete i answers raw csrf issued now =>
      simp only [execStep] at h ⊢
      cases hi : w.inFlight[i]? with
      | none =>
          rw [hi] at h
          cases h
      | some f =>
          rw [hi] at h
          cases hid : f.identify (cfg f.provider) answers with
          | none =>
              simp only [signIn, hid] at h
              cases h
          | some id =>
              simp only [signIn, hid, Outcome.signedIn.injEq] at h
              obtain ⟨rfl, rfl, rfl, rfl⟩ := h
              refine ⟨i, answers, raw, csrf, issued, now, f, id, rfl, List.mem_of_getElem? hi, rfl,
                rfl, rfl, hid, rfl, ?_⟩
              simp only [signIn, hid, Function.update_self]

end Effects

/-! ### Runs -/

section Runs

variable {β : Type} [DecidableEq β] {cfg : Provider → LoginConfig} {steps : List (BrowserStep β)}

abbrev BrowserStepEvent (β : Type) := Event (BrowserStep β) (World β) (Outcome β)

/-- **A login state that is there** was stored by an earlier login, and was there ever since. -/
theorem login_of_state {pre post : List (BrowserStepEvent β)} {c : BrowserStepEvent β}
    (hes : history (execStep cfg) World.start steps = pre ++ c :: post) {p : Provider}
    {state : String} {st : LoginState} (hget : (c.before.stores p).states.get state = some st) :
    ∃ pre' a mid browser, pre = pre' ++ a :: mid ∧ a.input.Begins cfg p browser state st ∧
      ∀ m ∈ a :: mid, (m.after.stores p).states.get state = some st := by
  have h0 : ¬ ((World.start : World β).stores p).states.get state = some st := by
    intro h
    cases h
  obtain ⟨pre', a, mid, rfl, hbefore, hafter, hmid⟩ :=
    history_last_cause (P := fun w => (w.stores p).states.get state = some st) h0 hes hget
  have hexec := (history_event (hes ▸ List.mem_append_left _
    (List.mem_append_right _ List.mem_cons_self) : a ∈ history (execStep cfg) _ steps)).2
  have hmem : (state, st) ∈ ((execStep cfg a.input a.before).2.stores p).states.entries := by
    rw [hexec]
    exact Table.get_eq_some.mp hafter
  rcases mem_states_step hmem with hold | ⟨browser, hbegins⟩
  · exact (hbefore (Table.get_eq_some.mpr hold)).elim
  · exact ⟨pre', a, mid, browser, rfl, hbegins, List.forall_mem_cons.mpr ⟨hafter, hmid⟩⟩

/-- **A sign-in follows a login.** In every interleaving of logins and callbacks, at either
authenticator and by any number of browsers that present what they like: when a callback of `b`
sets its session cookie, the login state it took was created by an earlier login at the same
authenticator, which handed its name to the browser that sent it; it was there ever since, had
not expired, and is gone with this callback; and the identity provider answered for that login
state. -/
theorem signIn_follows_login {pre post : List (BrowserStepEvent β)} {ev : BrowserStepEvent β}
    (hes : history (execStep cfg) World.start steps = pre ++ ev :: post) {p : Provider} {b : β}
    {state token : String} (hout : ev.output = .signedIn p b state token) :
    ev.after.jar b (cfg p).cookieName = some token ∧
    ∃ pre' a mid c mid' browser presented st now later,
      pre = pre' ++ a :: (mid ++ c :: mid') ∧
      a.input.Begins cfg p browser state st ∧ a.output = .redirected state ∧
      c.input = .present p b presented now later ∧ presented.state = state ∧
      later < st.expiresAt ∧
      (∀ m ∈ a :: mid, (m.after.stores p).states.get state = some st) ∧
      (c.after.stores p).states.get state = none ∧
      ∃ i answers raw csrf issued at' id, ev.input = .complete i answers raw csrf issued at' ∧
        Flight.identify ⟨p, b, presented, st⟩ (cfg p) answers = some id := by
  have hexec := (history_event (hes ▸ List.mem_append_right _ List.mem_cons_self :
    ev ∈ history (execStep cfg) World.start steps)).2
  obtain ⟨i, answers, raw, csrf, issued, at', f, id, hin, hf, rfl, rfl, rfl, hid, -, hjar⟩ :=
    signedIn_step (by rw [hexec]; exact hout)
  refine ⟨by rw [hexec] at hjar; exact hjar, ?_⟩
  -- the callback that was in flight has taken its login state
  obtain ⟨pre₁, c, mid', rfl, hcbefore, hcafter, -⟩ :=
    history_last_cause (P := fun w => f ∈ w.inFlight) (by intro h; cases h) hes hf
  have hes' : history (execStep cfg) World.start steps = pre₁ ++ c :: (mid' ++ ev :: post) := by
    rw [hes, List.append_assoc, List.cons_append]
  have hcexec := (history_event (hes' ▸ List.mem_append_right _ List.mem_cons_self :
    c ∈ history (execStep cfg) World.start steps)).2
  obtain hold | ⟨now, later, hcin, hget, hlt, hgone⟩ :=
    mem_inFlight_step (by rw [hcexec]; exact hcafter)
  · exact (hcbefore hold).elim
  rw [hcexec] at hgone
  -- and that login state comes from a login
  obtain ⟨pre', a, mid, browser, rfl, hbegins, hmid⟩ := login_of_state hes' hget
  have haexec := (history_event (hes' ▸ List.mem_append_left _
    (List.mem_append_right _ List.mem_cons_self) : a ∈ history (execStep cfg) _ steps)).2
  have haout : a.output = .redirected f.presented.state := by
    obtain ⟨raw, nonce, verifier, returnPath, at', hin, hstate, -⟩ := hbegins
    rw [hin] at haexec
    rw [hstate]
    exact (congrArg Prod.fst haexec).symm
  refine ⟨pre', a, mid, c, mid', browser, f.presented, f.st, now, later, ?_, hbegins, haout, hcin,
    rfl, hlt, hmid, hgone, i, answers, raw, csrf, issued, at', id, hin, hid⟩
  rw [List.append_assoc, List.cons_append]

end Runs

/-- Every login is completed by the browser that began it. -/
def CompletedByBeginner {β : Type} [DecidableEq β] (cfg : Provider → LoginConfig)
    (steps : List (BrowserStep β)) : Prop :=
  ∀ pre ev post p b state token,
    history (execStep cfg) World.start steps = pre ++ ev :: post →
    ev.output = .signedIn p b state token →
    ∃ a ∈ pre, ∃ st, a.input.Begins cfg p b state st

def sampleLogin : Provider → LoginConfig := fun _ =>
  { stateTTL := 600, maxStates := 0, maxSessions := 0, cookieName := "openngfw_session",
    sessionTTL := 28800, roleClaim := "role", defaultRole := .viewer }

/-- The identity provider on the code it issued for the login below: the verifier is that of
the login, and the ID token bears its nonce. -/
def sampleAnswers : Answers where
  exchange := fun code verifier =>
    if code = "code" ∧ verifier = "verifier" then some "id-token" else none
  verify := fun rawIDToken =>
    if rawIDToken = "id-token" then some ⟨"nonce", "mallory", fun _ => none⟩ else none
  parseResponse := fun _ _ => none

/-- One browser begins a login; a browser presents its state, and the code issued for it. -/
def sampleRun (other : String) : List (BrowserStep String) :=
  [.login .oidc "mallory" (sampleRaw 0) "nonce" "verifier" "/ui/" 0,
    .present .oidc other ⟨"", randomURLToken (sampleRaw 0), "code"⟩ 10 10,
    .complete 0 sampleAnswers (sampleRaw 1) (sampleRaw 2) 11 11]

theorem signIn_follows_login_own :
    ∃ pre ev post, history (execStep sampleLogin) World.start (sampleRun "mallory") =
        pre ++ ev :: post ∧
      ev.after.jar "mallory" "openngfw_session" = some (randomURLToken (sampleRaw 1)) := by
  have hes : history (execStep sampleLogin) World.start (sampleRun "mallory") =
    [_, _] ++ _ :: [] := rfl
  exact ⟨_, _, _, hes, (signIn_follows_login hes (rfl : _ = Outcome.signedIn .oidc "mallory"
    (randomURLToken (sampleRaw 0)) (randomURLToken (sampleRaw 1)))).1⟩

/-- **Another browser completes the login**: it is signed in as whoever began it. -/
theorem otherBrowser_signsIn : ¬ CompletedByBeginner sampleLogin (sampleRun "alice") := by
  intro h
  obtain ⟨a, ha, st, raw, nonce, verifier, returnPath, now, hin, -⟩ :=
    h [_, _] _ [] .oidc "alice" (randomURLToken (sampleRaw 0)) (randomURLToken (sampleRaw 1)) rfl rfl
  simp only [List.mem_cons, List.not_mem_nil, or_false] at ha
  rcases ha with rfl | rfl
  · exact absurd (BrowserStep.login.inj hin).2.1 (by decide)
  · cases hin

end Phragma.Authz
