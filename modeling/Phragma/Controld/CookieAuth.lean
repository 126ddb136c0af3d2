import Phragma.Authz.Sessions
import Phragma.Controld.ClientKey
import Mathlib.Logic.Function.Basic

/-!
# Phragma.Controld.CookieAuth

Authentication by session cookie: `dynamicBrowserSessionCookieAuth` of `cmd/controld/main.go`,
which stacks the `WithSessionCookieAuth` of the two authenticators, and the origin and CSRF
checks of `internal/authz/oidc.go`.

A request that changes something is handed on with the bearer token of a session only if it
comes from the origin of the request itself and bears the CSRF token of that same session
(`cookieAuth_sameSite`). Host and port are read by `splitHostPortLoose`, which reads every text
somehow: `readAuthority` says which texts name a host and a port, and for these the two agree
(`splitHostPortLoose_eq`).

`url.Parse` is a parameter, as are the case tables of `unicode`; the cookies of a request stand
as they are parsed.
-/

namespace Phragma.Controld

open Lib Go Authz

/-! ### Requests

A request has what the handlers read of it. The headers of a name are a list, of which the first is
read. -/

/-- What the handlers read of an `http.Request`. -/
structure Request where
  method : String
  header : String → List String
  cookies : List (String × String)
  host : String
  remoteAddr : String
  /-- `r.TLS != nil`. -/
  tls : Bool
  /-- `r.URL.Scheme`. -/
  urlScheme : String

namespace Request

/-- `r.Header.Get`: the first value of a header. -/
def get (r : Request) (key : String) : String := (r.header key).head?.getD ""

/-- A copy with a header set. -/
def set (r : Request) (key value : String) : Request :=
  { r with header := Function.update r.header key [value] }

@[simp] theorem get_set_self (r : Request) (key value : String) : (r.set key value).get key = value := by
  simp [get, set]

/-- `r.Cookie`: the value of the first cookie of the name. -/
def cookie (r : Request) (name : String) : Option String :=
  if name = "" then none else r.cookies.lookup name

end Request

/-- `unsafeHTTPMethod`: does the method change something? -/
def unsafeHTTPMethod (method : String) : Bool :=
  ["POST", "PUT", "PATCH", "DELETE"].contains method

/-- What the handlers read of a `url.URL`. -/
structure URL where
  scheme : String
  host : String
  deriving DecidableEq, Repr

/-- `url.Parse`, and the case tables of `unicode`. -/
structure Tables where
  parse : String → Option URL
  /-- `unicode.ToLower`. -/
  lower : Char → Char
  /-- A rune to a representative of its simple folds. -/
  fold : Char → Char
  /-- No other rune becomes a bracket. -/
  lower_bracket : ∀ c, lower c = '[' ∨ lower c = ']' → c = '[' ∨ c = ']'

/-- `strings.ToLower`: a text in lower case, by the tables. -/
def Tables.toLower (T : Tables) (s : String) : String := String.ofList (s.toList.map T.lower)

/-! ### Origins

The origin that a browser names is compared with the scheme, the host and the port of the request.
Behind a trusted proxy the scheme is what the proxy says. -/

/-- `ForwardedProto`: the scheme that a trusted proxy has seen. -/
def ProxySet.ForwardedProto (set : ProxySet) (remoteAddr header : String) : String :=
  if !set.TrustsRemoteAddr remoteAddr then ""
  else
    let first := ((splitOn ',' header.toList).head?.getD [])
    let proto := Go.toLower (trimSpace (String.ofList first))
    if proto = "http" ∨ proto = "https" then proto else ""

/-- The scheme of the connection. -/
def Request.directScheme (r : Request) : String :=
  if r.tls then "https"
  else if r.urlScheme = "http" ∨ r.urlScheme = "https" then r.urlScheme
  else "http"

/-- `requestScheme`: the scheme of a request. -/
def requestScheme (r : Request) (proxies : ProxySet) : String :=
  let proto := proxies.ForwardedProto r.remoteAddr (r.get "X-Forwarded-Proto")
  if proto ≠ "" then proto else r.directScheme

/-- `defaultOriginPort`: the port of a scheme. -/
def defaultOriginPort (scheme : String) : String :=
  if scheme = "http" then "80"
  else if scheme = "https" then "443"
  else ""

/-- A text in lower case, without brackets around it. -/
def Tables.bareHost (T : Tables) (host : List Char) : String :=
  String.ofList (trim ['[', ']'] (host.map T.lower))

/-- The text up to the last closing bracket, of one that starts with an opening one. -/
def bracketed : List Char → Option (List Char)
  | '[' :: rest => (cutLastRune ']' rest).map Prod.fst
  | _ => none

/-- The two sides of the only colon, if there is something on both. -/
def colonPair (raw : List Char) : Option (List Char × List Char) :=
  if raw.count ':' = 1 then
    match cutRune ':' raw with
    | some (host, port) => if host ≠ [] ∧ port ≠ [] then some (host, port) else none
    | none => none
  else none

/-- `splitHostPortLoose`: host and port of a text, read somehow. -/
def splitHostPortLoose (T : Tables) (raw : String) : String × String :=
  let raw := trimSpace raw
  if raw = "" then ("", "")
  else
    match splitHostPort raw with
    | some (host, port) => (T.bareHost host.toList, port)
    | none =>
        match bracketed raw.toList with
        | some host => (T.bareHost host, "")
        | none =>
            match colonPair raw.toList with
            | some (host, port) => (T.toLower (String.ofList host), String.ofList port)
            | none => (T.bareHost raw.toList, "")

/-- A port, or the one of the scheme. -/
def portOr (port scheme : String) : String :=
  if port = "" then defaultOriginPort scheme else port

/-- `originMatchesRequest`: is the origin that of the request? -/
def originMatchesRequest (T : Tables) (r : Request) (raw : String) (proxies : ProxySet) : Bool :=
  match T.parse raw with
  | none => false
  | some u =>
      if u.scheme = "" ∨ u.host = "" then false
      else
        let scheme := T.toLower u.scheme
        if scheme ≠ "http" ∧ scheme ≠ "https" then false
        else
          let expectedScheme := requestScheme r proxies
          if scheme ≠ expectedScheme then false
          else
            let (reqHost, reqPort) := splitHostPortLoose T r.host
            let (originHost, originPort) := splitHostPortLoose T u.host
            if reqHost = "" ∨ originHost = "" ∨ ¬ EqualFold T.fold reqHost originHost then false
            else decide (portOr reqPort expectedScheme = portOr originPort scheme)

/-- The origin of a request: `Origin` or, if that is blank, `Referer`. -/
def Request.origin (r : Request) : String :=
  if trimSpace (r.get "Origin") ≠ "" then trimSpace (r.get "Origin")
  else trimSpace (r.get "Referer")

/-- `sameOriginRequest`: does the request name its own origin? It must name one. -/
def sameOriginRequest (T : Tables) (r : Request) (proxies : ProxySet) : Bool :=
  if r.origin ≠ "" then originMatchesRequest T r r.origin proxies else false

/-! ### Authentication

A cookie becomes a bearer token. A request that has an authorization already is handed on as it
is. -/

/-- What the handlers read of an authenticator. -/
structure Authenticator where
  cookieName : String
  proxies : ProxySet
  stores : Stores

/-- `validateSessionCSRF`. Both ways to compare the tokens compare their bytes. -/
def validateSessionCSRF (T : Tables) (a : Authenticator) (r : Request) (sess : Session) :
    Except String Unit :=
  if !sameOriginRequest T r a.proxies then .error "same-origin request required"
  else
    let got := trimSpace (r.get "X-Phragma-CSRF")
    if got = "" ∨ sess.csrfToken = "" ∨ got ≠ sess.csrfToken then .error "csrf token required"
    else .ok ()

/-- `WithSessionCookieAuth`, which reads the clock in `lookupSession`: the request that is handed
on, or the error of a 403, and the store. -/
def WithSessionCookieAuth (T : Tables) (a : Authenticator) (now : Int) (r : Request) :
    Except String Request × Stores :=
  if r.get "Authorization" = "" then
    match r.cookie a.cookieName with
    | none => (.ok r, a.stores)
    | some value =>
        match lookupSession value now a.stores with
        | (none, stores) => (.ok r, stores)
        | (some sess, stores) =>
            if unsafeHTTPMethod r.method then
              match validateSessionCSRF T a r sess with
              | .error err => (.error err, stores)
              | .ok () => (.ok (r.set "Authorization" ("Bearer " ++ value)), stores)
            else (.ok (r.set "Authorization" ("Bearer " ++ value)), stores)
  else (.ok r, a.stores)

/-- The handler of an authenticator that may not be there. -/
def optionalCookieAuth (T : Tables) (a : Option Authenticator) (now : Int) (r : Request) :
    Except String Request :=
  match a with
  | none => .ok r
  | some a => (WithSessionCookieAuth T a now r).1

/-- `dynamicBrowserSessionCookieAuth`: what reaches the next handler, through the SAML
authenticator and then the OIDC one. -/
def dynamicBrowserSessionCookieAuth (T : Tables) (oidc saml : Option Authenticator)
    (samlNow oidcNow : Int) (r : Request) : Except String Request := do
  let r ← optionalCookieAuth T saml samlNow r
  optionalCookieAuth T oidc oidcNow r

/-! ### Hosts and ports

`readAuthority` takes the texts that name a host, with a port or without one. Of these the loose
splitter gives host and port as they stand. -/

/-- The runes of a host name or address. -/
def isHostRune (c : Char) : Bool := c != '[' && c != ']' && !isSpace c

/-- The host and the port that a text names: `host`, `host:port`, `[host]` or `[host]:port`,
where only a host in brackets has colons, and the port, in digits, may be left out. -/
def readAuthority (text : String) : Option (String × String) :=
  match text.toList with
  | '[' :: rest =>
      match cutRune ']' rest with
      | some (host, []) => if host.all isHostRune then some (String.ofList host, "") else none
      | some (host, ':' :: port) =>
          if host.all isHostRune && port.all Char.isDigit then
            some (String.ofList host, String.ofList port)
          else none
      | _ => none
  | cs =>
      match cutRune ':' cs with
      | none => if cs.all isHostRune then some (String.ofList cs, "") else none
      | some (host, port) =>
          if host.all isHostRune && port.all Char.isDigit then
            some (String.ofList host, String.ofList port)
          else none

/-- The four forms of an authority. -/
theorem readAuthority_cases {text host port : String} (h : readAuthority text = some (host, port)) :
    (∀ c ∈ host.toList, isHostRune c = true) ∧ (∀ c ∈ port.toList, c.isDigit = true) ∧
      ((text.toList = '[' :: host.toList ++ [']'] ∧ port = "") ∨
        text.toList = '[' :: host.toList ++ ']' :: ':' :: port.toList ∨
        (text = host ∧ ':' ∉ host.toList ∧ port = "") ∨
        (text.toList = host.toList ++ ':' :: port.toList ∧ ':' ∉ host.toList)) := by
  unfold readAuthority at h
  split at h
  · -- a literal in brackets, with and without a port
    next rest htext =>
      split at h
      · next hostRunes hcut =>
          obtain ⟨rfl, -⟩ := cutRune_eq_some hcut
          split at h
          · next hgood =>
              cases h
              rw [String.toList_ofList]
              exact ⟨List.all_eq_true.mp hgood, (fun c hc => by cases hc), .inl ⟨htext, rfl⟩⟩
          · cases h
      · next hostRunes portRunes hcut =>
          obtain ⟨rfl, -⟩ := cutRune_eq_some hcut
          split at h
          · next hgood =>
              cases h
              rw [Bool.and_eq_true] at hgood
              rw [String.toList_ofList, String.toList_ofList]
              exact ⟨List.all_eq_true.mp hgood.1, List.all_eq_true.mp hgood.2,
                .inr (.inl htext)⟩
          · cases h
      · cases h
  · -- a name, with and without a port
    next cs hbracket =>
      split at h
      · next hcut =>
          split at h
          · next hgood =>
              cases h
              rw [String.toList_ofList, String.ofList_toList]
              exact ⟨List.all_eq_true.mp hgood, (fun c hc => by cases hc),
                .inr (.inr (.inl ⟨rfl, notMem_of_cutRune hcut, rfl⟩))⟩
          · cases h
      · next hostRunes portRunes hcut =>
          obtain ⟨htext, hcolon⟩ := cutRune_eq_some hcut
          split at h
          · next hgood =>
              cases h
              rw [Bool.and_eq_true] at hgood
              rw [String.toList_ofList, String.toList_ofList]
              exact ⟨List.all_eq_true.mp hgood.1, List.all_eq_true.mp hgood.2,
                .inr (.inr (.inr ⟨htext, hcolon⟩))⟩
          · cases h

theorem notMem_brackets {host : List Char} (h : ∀ c ∈ host, isHostRune c = true) :
    '[' ∉ host ∧ ']' ∉ host := by
  constructor
  · intro hc
    have := h _ hc
    revert this
    decide
  · intro hc
    have := h _ hc
    revert this
    decide

/-- A host without brackets is only put in lower case. -/
theorem bareHost_eq (T : Tables) {host : String} (h : ∀ c ∈ host.toList, isHostRune c = true) :
    T.bareHost host.toList = T.toLower host := by
  have hkeep : trim ['[', ']'] (host.toList.map T.lower) = host.toList.map T.lower := by
    refine trimList_eq_self fun c hc => ?_
    obtain ⟨d, hd, rfl⟩ := List.mem_map.mp hc
    by_contra hbracket
    have hlower : T.lower d = '[' ∨ T.lower d = ']' := by
      rw [Bool.not_eq_false, List.contains_iff_mem] at hbracket
      simpa using hbracket
    rcases T.lower_bracket d hlower with rfl | rfl
    · exact (notMem_brackets h).1 hd
    · exact (notMem_brackets h).2 hd
  rw [Tables.bareHost, hkeep, Tables.toLower]

theorem isSpace_of_isDigit {c : Char} (h : c.isDigit = true) : isSpace c = false := by
  rw [Char.isDigit_iff_toNat, show '0'.toNat = 48 from rfl, show '9'.toNat = 57 from rfl] at h
  simp only [isSpace, Bool.or_eq_false_iff, Bool.and_eq_false_iff, beq_eq_false_iff_ne,
    decide_eq_false_iff_not]
  omega

/-- There is no white space in an authority. -/
theorem trimSpace_authority {text host port : String}
    (h : readAuthority text = some (host, port)) : trimSpace text = text := by
  obtain ⟨hhost, hport, hforms⟩ := readAuthority_cases h
  have hhostSpace : ∀ c ∈ host.toList, isSpace c = false := by
    intro c hc
    have hrune := hhost c hc
    rw [isHostRune, Bool.and_eq_true] at hrune
    exact Bool.not_eq_true' _ |>.mp hrune.2
  have hportSpace : ∀ c ∈ port.toList, isSpace c = false :=
    fun c hc => isSpace_of_isDigit (hport c hc)
  have hspace : ∀ c ∈ text.toList, isSpace c = false := by
    intro c hc
    rcases hforms with ⟨htext, -⟩ | htext | ⟨rfl, -, -⟩ | ⟨htext, -⟩
    · rw [htext] at hc
      simp only [List.cons_append, List.mem_cons, List.mem_append, List.not_mem_nil, or_false] at hc
      rcases hc with rfl | hc | rfl
      · decide
      · exact hhostSpace c hc
      · decide
    · rw [htext] at hc
      simp only [List.cons_append, List.mem_cons, List.mem_append] at hc
      rcases hc with rfl | hc | rfl | rfl | hc
      · decide
      · exact hhostSpace c hc
      · decide
      · decide
      · exact hportSpace c hc
    · exact hhostSpace c hc
    · rw [htext] at hc
      simp only [List.mem_append, List.mem_cons] at hc
      rcases hc with hc | rfl | hc
      · exact hhostSpace c hc
      · decide
      · exact hportSpace c hc
  rw [trimSpace, trimList_eq_self hspace, String.ofList_toList]

/-- `net.SplitHostPort` on the forms with a port. -/
theorem splitHostPort_of_port {text host port : String}
    (hhost : ∀ c ∈ host.toList, isHostRune c = true) (hport : ∀ c ∈ port.toList, c.isDigit = true)
    (htext : text.toList = '[' :: host.toList ++ ']' :: ':' :: port.toList ∨
      (text.toList = host.toList ++ ':' :: port.toList ∧ ':' ∉ host.toList)) :
    splitHostPort text = some (host, port) := by
  have hdigit : ∀ c, c.isDigit = false → c ∉ port.toList := by
    intro c hc hmem
    rw [hport c hmem] at hc
    cases hc
  obtain ⟨hopen, hclose⟩ := notMem_brackets hhost
  have hp := hdigit '[' (by decide)
  have hp' := hdigit ']' (by decide)
  unfold splitHostPort
  rcases htext with htext | ⟨htext, hcolon⟩
  · have hcut : cutLastRune ':' text.toList =
        some ('[' :: (host.toList ++ [']']), port.toList) := by
      rw [htext, ← cutLastRune_append _ (hdigit ':' (by decide))]
      simp
    rw [hcut]
    dsimp only
    split
    · next inner heq =>
        cases heq
        rw [cutRune_append [] hclose]
        simp [hopen, hp, hp', String.ofList_toList]
    · next hne => exact (hne _ rfl).elim
  · rw [htext, cutLastRune_append _ (hdigit ':' (by decide))]
    dsimp only
    split
    · next inner heq =>
        rw [heq] at hopen
        exact (hopen List.mem_cons_self).elim
    · simp [hcolon, hopen, hclose, hp, hp', String.ofList_toList]

/-- `net.SplitHostPort` on the forms without one. -/
theorem splitHostPort_of_noPort {text host : String}
    (hhost : ∀ c ∈ host.toList, isHostRune c = true)
    (htext : text.toList = '[' :: host.toList ++ [']'] ∨ (text = host ∧ ':' ∉ host.toList)) :
    splitHostPort text = none := by
  obtain ⟨hopen, hclose⟩ := notMem_brackets hhost
  unfold splitHostPort
  rcases htext with htext | ⟨rfl, hcolon⟩
  · cases hcut : cutLastRune ':' text.toList with
    | none => rfl
    | some r =>
        -- the colon is in the host, and no closing bracket before it
        obtain ⟨before, after⟩ := r
        have hsplit := cutLastRune_eq_some hcut
        rw [htext] at hsplit
        obtain ⟨inner, rfl, hinner⟩ : ∃ inner, before = '[' :: inner ∧ ']' ∉ inner := by
          cases before with
          | nil => cases hsplit
          | cons b inner =>
              obtain ⟨rfl, hrest⟩ := List.cons.inj hsplit
              refine ⟨inner, rfl, ?_⟩
              rcases List.append_eq_append_iff.mp hrest with ⟨l, rfl, hl⟩ | ⟨l, hl, -⟩
              · cases l with
                | nil => cases hl
                | cons x xs => simp at hl
              · exact fun hc => hclose (hl ▸ List.mem_append_left _ hc)
        dsimp only
        split
        · next i heq =>
            cases heq
            rw [cutRune_of_notMem hinner]
        · next hne => exact (hne _ rfl).elim
  · rw [cutLastRune_of_notMem hcolon]

/-- **The loose splitter reads authorities as such.** -/
theorem splitHostPortLoose_eq (T : Tables) {text host port : String}
    (h : readAuthority text = some (host, port)) :
    splitHostPortLoose T text = (T.toLower host, port) := by
  obtain ⟨hhost, hport, hforms⟩ := readAuthority_cases h
  unfold splitHostPortLoose
  rw [trimSpace_authority h]
  dsimp only
  by_cases hempty : text = ""
  · subst hempty
    cases h
    rfl
  · rw [if_neg hempty]
    rcases hforms with ⟨htext, rfl⟩ | htext | ⟨rfl, hcolon, rfl⟩ | ⟨htext, hcolon⟩
    · have hbracketed : bracketed text.toList = some host.toList := by
        rw [htext]
        show (cutLastRune ']' (host.toList ++ ']' :: [])).map Prod.fst = _
        rw [cutLastRune_append _ List.not_mem_nil]
        rfl
      rw [splitHostPort_of_noPort hhost (.inl htext)]
      dsimp only
      rw [hbracketed]
      dsimp only
      rw [bareHost_eq T hhost]
    · rw [splitHostPort_of_port hhost hport (.inl htext)]
      dsimp only
      rw [bareHost_eq T hhost]
    · have hbracketed : bracketed text.toList = none := by
        unfold bracketed
        split
        · next rest heq =>
            exact ((notMem_brackets hhost).1 (heq ▸ List.mem_cons_self)).elim
        · rfl
      have hpair : colonPair text.toList = none := by
        rw [colonPair, List.count_eq_zero.mpr hcolon]
        rfl
      rw [splitHostPort_of_noPort hhost (.inr ⟨rfl, hcolon⟩)]
      dsimp only
      rw [hbracketed]
      dsimp only
      rw [hpair]
      dsimp only
      rw [bareHost_eq T hhost]
    · rw [splitHostPort_of_port hhost hport (.inr ⟨htext, hcolon⟩)]
      dsimp only
      rw [bareHost_eq T hhost]

/-! ### What is handed on

The authenticators stand one behind the other, so a request that the first has given a token passes
the second unchanged. -/

/-- Host names that differ in the case of letters at most. -/
def SameHost (T : Tables) (host host' : String) : Prop :=
  EqualFold T.fold (T.toLower host) (T.toLower host')

/-- The origin of the request is that of the request itself: the scheme, as trusted proxies
have seen it, and the host and port, as the loose splitter reads them and, where both texts are
authorities, as they name them. -/
structure SameOrigin (T : Tables) (proxies : ProxySet) (r : Request) (u : URL) : Prop where
  parsed : T.parse r.origin = some u
  scheme : T.toLower u.scheme = requestScheme r proxies
  web : requestScheme r proxies = "http" ∨ requestScheme r proxies = "https"
  /-- No other proxy has a say in the scheme. -/
  trusted : proxies.TrustsRemoteAddr r.remoteAddr = false →
    requestScheme r proxies = r.directScheme
  loose : EqualFold T.fold (splitHostPortLoose T r.host).1 (splitHostPortLoose T u.host).1 ∧
    portOr (splitHostPortLoose T r.host).2 (requestScheme r proxies) =
      portOr (splitHostPortLoose T u.host).2 (requestScheme r proxies)
  named : ∀ host port host' port', readAuthority r.host = some (host, port) →
    readAuthority u.host = some (host', port') →
    SameHost T host host' ∧
      portOr port (requestScheme r proxies) = portOr port' (requestScheme r proxies)

theorem requestScheme_of_untrusted {r : Request} {proxies : ProxySet}
    (h : proxies.TrustsRemoteAddr r.remoteAddr = false) :
    requestScheme r proxies = r.directScheme := by
  simp [requestScheme, ProxySet.ForwardedProto, h]

theorem sameOrigin_of_request {T : Tables} {r : Request} {proxies : ProxySet}
    (h : sameOriginRequest T r proxies = true) : ∃ u, SameOrigin T proxies r u := by
  unfold sameOriginRequest at h
  split at h
  case isFalse => cases h
  unfold originMatchesRequest at h
  split at h
  · cases h
  · next u hparse =>
      split at h
      · cases h
      dsimp only at h
      split at h
      · cases h
      next hweb =>
      split at h
      · cases h
      next hscheme =>
      split at h
      · cases h
      next hhosts =>
      rw [Decidable.not_not] at hscheme
      push Not at hhosts
      rw [decide_eq_true_eq, hscheme] at h
      refine ⟨u, hparse, hscheme, ?_, requestScheme_of_untrusted, ⟨hhosts.2.2, h⟩, ?_⟩
      · rw [hscheme] at hweb
        by_contra hne
        exact hweb (not_or.mp hne)
      · intro host port host' port' hread hread'
        have hloose := hhosts.2.2
        rw [splitHostPortLoose_eq T hread, splitHostPortLoose_eq T hread'] at hloose h
        exact ⟨hloose, h⟩

/-- The request bears the CSRF token of the session and comes from its own origin. -/
theorem validateSessionCSRF_ok {T : Tables} {a : Authenticator} {r : Request} {sess : Session}
    (h : validateSessionCSRF T a r sess = .ok ()) :
    (∃ u, SameOrigin T a.proxies r u) ∧ trimSpace (r.get "X-Phragma-CSRF") = sess.csrfToken ∧
      sess.csrfToken ≠ "" := by
  unfold validateSessionCSRF at h
  split at h
  · cases h
  · next hsame =>
      dsimp only at h
      split at h
      · cases h
      · next htoken =>
          push Not at htoken
          exact ⟨sameOrigin_of_request (by simpa using hsame), htoken.2.2, htoken.2.1⟩

/-- The session of an authenticator, by which a request is handed on as `handed`. -/
structure HandedBy (T : Tables) (a : Authenticator) (now : Int) (r handed : Request)
    (value : String) (sess : Session) : Prop where
  cookie : (a.cookieName, value) ∈ r.cookies
  session : a.stores.sessions.get value = some sess
  live : now < sess.expiresAt
  bearer : handed = r.set "Authorization" ("Bearer " ++ value)
  origin : ∃ u, SameOrigin T a.proxies r u
  csrf : trimSpace (r.get "X-Phragma-CSRF") = sess.csrfToken
  csrfToken : sess.csrfToken ≠ ""

/-- What one authenticator does with a request that changes something: it hands it on as it
is, or by a session. -/
theorem withSessionCookieAuth_cases {T : Tables} {a : Authenticator} {now : Int}
    {r handed : Request} (hmethod : unsafeHTTPMethod r.method = true)
    (h : (WithSessionCookieAuth T a now r).1 = .ok handed) :
    handed = r ∨ ∃ value sess, HandedBy T a now r handed value sess := by
  unfold WithSessionCookieAuth at h
  split at h
  case isFalse =>
    cases h
    exact .inl rfl
  split at h
  · cases h
    exact .inl rfl
  · next value hcookie =>
      split at h
      · cases h
        exact .inl rfl
      · next sess stores hlookup =>
          split at h
          · cases h
          · next hcsrf =>
              cases h
              obtain ⟨hget, hlive⟩ := lookupSession_eq_some (congrArg Prod.fst hlookup)
              obtain ⟨horigin, htoken, hne⟩ := validateSessionCSRF_ok hcsrf
              have hmem : (a.cookieName, value) ∈ r.cookies := by
                unfold Request.cookie at hcookie
                split at hcookie
                · cases hcookie
                · obtain ⟨pre, post, hsplit, -⟩ := List.lookup_eq_some_iff.mp hcookie
                  rw [hsplit]
                  exact List.mem_append_right _ List.mem_cons_self
              exact .inr ⟨value, sess, hmem, hget, hlive, rfl, horigin, htoken, hne⟩

theorem bearer_ne_empty (value : String) : "Bearer " ++ value ≠ "" := by
  intro h
  have := congrArg String.toList h
  simp at this

/-- A request that has an authorization already is handed on as it is. -/
theorem withSessionCookieAuth_of_bearer {T : Tables} {a : Authenticator} {now : Int}
    {r : Request} {value : String} (h : r.get "Authorization" = "Bearer " ++ value) :
    (WithSessionCookieAuth T a now r).1 = .ok r := by
  rw [WithSessionCookieAuth, if_neg (by rw [h]; exact bearer_ne_empty value)]

/-- **Cookie authentication is same-site.** Whatever the stores of the authenticators, whether
both are there, and their cookies: if a request that changes something and has no
authorization is handed on with one, then it is the bearer token of a live session that a
cookie of the request names; the request comes from its own origin, by the proxies that the
session's authenticator trusts; and it bears the CSRF token of that session. -/
theorem cookieAuth_sameSite (T : Tables) (oidc saml : Option Authenticator)
    (samlNow oidcNow : Int) {r handed : Request} (hmethod : unsafeHTTPMethod r.method = true)
    (hnone : r.header "Authorization" = [])
    (h : dynamicBrowserSessionCookieAuth T oidc saml samlNow oidcNow r = .ok handed)
    (hauth : handed.header "Authorization" ≠ []) :
    ∃ a now value sess,
      ((oidc = some a ∧ now = oidcNow) ∨ (saml = some a ∧ now = samlNow)) ∧
      HandedBy T a now r handed value sess := by
  -- through an authenticator: as it is, or by a session
  have hone : ∀ (a : Option Authenticator) (now : Int) (handed : Request),
      optionalCookieAuth T a now r = .ok handed → handed = r ∨
        ∃ b value sess, a = some b ∧ HandedBy T b now r handed value sess := by
    intro a now handed h
    cases a with
    | none =>
        cases h
        exact .inl rfl
    | some a =>
        rcases withSessionCookieAuth_cases hmethod h with rfl | ⟨value, sess, hb⟩
        · exact .inl rfl
        · exact .inr ⟨a, value, sess, rfl, hb⟩
  unfold dynamicBrowserSessionCookieAuth at h
  cases hsaml : optionalCookieAuth T saml samlNow r with
  | error err =>
      rw [hsaml] at h
      cases h
  | ok r₁ =>
      rw [hsaml] at h
      change optionalCookieAuth T oidc oidcNow r₁ = .ok handed at h
      rcases hone saml samlNow r₁ hsaml with rfl | ⟨a, value, sess, ha, hb⟩
      · rcases hone oidc oidcNow handed h with rfl | ⟨a, value, sess, ha, hb⟩
        · exact (hauth hnone).elim
        · exact ⟨a, oidcNow, value, sess, .inl ⟨ha, rfl⟩, hb⟩
      · -- the OIDC authenticator leaves the bearer token alone
        have hbearer : r₁.get "Authorization" = "Bearer " ++ value := by
          rw [hb.bearer, Request.get_set_self]
        have hsame : handed = r₁ := by
          cases oidc with
          | none =>
              cases h
              rfl
          | some o =>
              rw [optionalCookieAuth, withSessionCookieAuth_of_bearer hbearer] at h
              cases h
              rfl
        exact ⟨a, samlNow, value, sess, .inr ⟨ha, rfl⟩, hsame ▸ hb⟩

/-- `url.Parse` on the origins below, whose runes have no upper case. -/
def sampleTables : Tables where
  parse := fun raw =>
    if raw = "https://fw.example" then some ⟨"https", "fw.example"⟩
    else if raw = "https://[::1]" then some ⟨"https", "[::1]"⟩
    else none
  lower := id
  fold := id
  lower_bracket := fun _ h => h

def sampleAuthenticator : Authenticator where
  cookieName := "openngfw_session"
  proxies := ⟨[], []⟩
  stores := ⟨.empty, Table.empty.put "t" ⟨⟨"alice", .admin, "oidc-session"⟩, 100, "csrf"⟩⟩

def sampleRequest (host origin : String) : Request where
  method := "POST"
  header := fun key =>
    if key = "Origin" then [origin] else if key = "X-Phragma-CSRF" then [" csrf"] else []
  cookies := [("theme", "dark"), ("openngfw_session", "t")]
  host
  remoteAddr := "192.0.2.1:4711"
  tls := true
  urlScheme := ""

theorem cookieAuth_sameSite_sample :
    ∃ a now value sess, ((some sampleAuthenticator = some a ∧ now = (20 : Int)) ∨
        ((none : Option Authenticator) = some a ∧ now = (10 : Int))) ∧
      HandedBy sampleTables a now (sampleRequest "fw.example:443" "https://fw.example")
        ((sampleRequest "fw.example:443" "https://fw.example").set "Authorization" "Bearer t")
        value sess :=
  cookieAuth_sameSite sampleTables (some sampleAuthenticator) none 10 20 (by decide) rfl
    (by rfl) (by simp [Request.set])

/-- The origin names the scheme, host and port that the request itself does. -/
def NamesOwnOrigin (T : Tables) (proxies : ProxySet) (r : Request) : Prop :=
  ∃ u host port host' port', T.parse r.origin = some u ∧
    T.toLower u.scheme = requestScheme r proxies ∧ readAuthority r.host = some (host, port) ∧
    readAuthority u.host = some (host', port') ∧ SameHost T host host' ∧
    portOr port (requestScheme r proxies) = portOr port' (requestScheme r proxies)

/-- A **host that is none**: what follows the closing bracket is dropped, and the request passes
for one to the address in the brackets. -/
theorem looseHost_handedOn :
    ¬ ∀ handed, dynamicBrowserSessionCookieAuth sampleTables (some sampleAuthenticator) none 10 20
        (sampleRequest "[::1]x:8443" "https://[::1]") = .ok handed →
      handed.header "Authorization" ≠ [] →
      NamesOwnOrigin sampleTables sampleAuthenticator.proxies
        (sampleRequest "[::1]x:8443" "https://[::1]") := by
  intro h
  obtain ⟨u, host, port, host', port', -, -, hread, -⟩ :=
    h ((sampleRequest "[::1]x:8443" "https://[::1]").set "Authorization" "Bearer t") (by rfl)
      (by simp [Request.set])
  have hnone : readAuthority "[::1]x:8443" = none := by decide
  rw [show (sampleRequest "[::1]x:8443" "https://[::1]").host = "[::1]x:8443" from rfl, hnone]
    at hread
  cases hread

end Phragma.Controld
