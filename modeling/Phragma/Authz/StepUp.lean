import Phragma.Lib.Machine
import Phragma.Apiserver.Apply

/-!
# Phragma.Authz.StepUp

Roles, identities and the step-up challenges of `internal/authz/stepup.go`.

A challenge is a token bound to an action and an actor. The store of challenges is shared by
all requests; a call reads the clock, takes the lock, and works on the store under it. So a run
is the sequence of these critical sections, each with the clock reading its call made, and the
readings need not be in order.

**Challenges are one-shot** (`stepUp_one_shot`): every success is matched to a creation of its
own, and a token that was presented is never good again.
-/

namespace Phragma.Authz

open Lib Go Apiserver

/-! ### Identities

Who calls, and how the caller has authenticated. A call without authentication is a local one. -/

/-- `Role`: the three roles, each of which includes the ones before. -/
inductive Role
  | viewer
  | operator
  | admin
  deriving DecidableEq, Repr

namespace Role

/-- The number of a role; higher includes lower. -/
def level : Role → Nat
  | viewer => 1
  | operator => 2
  | admin => 3

/-- `String`: the name of a role. -/
def string : Role → String
  | viewer => "viewer"
  | operator => "operator"
  | admin => "admin"

end Role

def AuthSourceDisabledLocal : String := "disabled-local"
def AuthSourceLocalUsersFile : String := "local-users-file"

/-- `Identity`: a name, its role, and where it comes from. -/
structure Identity where
  name : String
  role : Role
  authSource : String
  deriving DecidableEq, Repr

/-- The identity came from the interceptor and is not that of disabled authentication. -/
def Identity.Authenticated (id : Identity) : Prop :=
  id.authSource ≠ "" ∧ id.authSource ≠ AuthSourceDisabledLocal

instance (id : Identity) : Decidable id.Authenticated := inferInstanceAs (Decidable (_ ∧ _))

/-! ### The store of challenges

A challenge is taken out of the store by whoever presents its token, before anything else is
compared. So a token fails or succeeds once. -/

/-- `StepUpChallenge`. Times are in nanoseconds. -/
structure StepUpChallenge where
  token : String
  action : String
  actor : String
  role : String
  authSource : String
  issuedAt : Int
  expiresAt : Int
  comment : String
  deriving DecidableEq, Repr

/-- `stepUpStore.challenges`: the challenges by their tokens. -/
abbrev StepUpStore := String → Option StepUpChallenge

/-- `defaultStepUpTTL`: five minutes. -/
def defaultStepUpTTL : Int := 5 * 60 * 1000000000

/-- `reapLocked`: the challenges that have not expired. -/
def reapLocked (now : Int) (s : StepUpStore) : StepUpStore :=
  fun token => (s token).filter fun c => decide (now ≤ c.expiresAt)

/-- `normalizeStepUpAction`; `lower` is `strings.ToLower`. -/
def normalizeStepUpAction (lower : String → String) (action : String) : String :=
  lower (trimSpace action)

/-- The challenge a creation makes. -/
def stepUpChallenge (lower : String → String) (id : Identity) (action comment token : String)
    (now : Int) : StepUpChallenge where
  token
  action := normalizeStepUpAction lower action
  actor := id.name
  role := id.role.string
  authSource := id.authSource
  issuedAt := now
  expiresAt := now + defaultStepUpTTL
  comment := trimSpace comment

/-- `CreateStepUpChallenge`. The identity of the context, if any, the generated token and the
clock reading are given. -/
def CreateStepUpChallenge (lower : String → String) (ctx : Option Identity)
    (action comment : String) (generated : Except String String) (now : Int) (s : StepUpStore) :
    Except Status StepUpChallenge × StepUpStore :=
  match ctx with
  | none => (.error ⟨.failedPrecondition, "step-up requires authenticated API identity"⟩, s)
  | some id =>
      if id.authSource = "" ∨ id.authSource = AuthSourceDisabledLocal then
        (.error ⟨.failedPrecondition, "step-up requires authenticated API identity"⟩, s)
      else if normalizeStepUpAction lower action = "" then
        (.error ⟨.invalidArgument, "step-up action is required"⟩, s)
      else
        match generated with
        | .error err => (.error ⟨.internal, "create step-up token: " ++ err⟩, s)
        | .ok token =>
            let challenge := stepUpChallenge lower id action comment token now
            (.ok challenge, Function.update (reapLocked now s) token (some challenge))

/-- The checks of `RequireStepUp` on a challenge that it has taken out. -/
def checkChallenge (id : Identity) (action : String) (now : Int) (c : StepUpChallenge) :
    Except Status Unit :=
  if c.expiresAt < now then .error ⟨.failedPrecondition, "step-up token expired"⟩
  else if c.action ≠ action then
    .error ⟨.failedPrecondition,
      "step-up token action mismatch: got " ++ c.action ++ " want " ++ action⟩
  else if c.actor ≠ id.name ∨ c.authSource ≠ id.authSource then
    .error ⟨.failedPrecondition, "step-up token actor mismatch"⟩
  else .ok ()

/-- `RequireStepUp`: the demand of a challenge for an action, made by the caller itself. -/
def RequireStepUp (lower : String → String) (ctx : Option Identity) (action token : String)
    (now : Int) (s : StepUpStore) :
    Except Status Unit × StepUpStore :=
  match ctx with
  | none => (.ok (), s)
  | some id =>
      if id.authSource = "" ∨ id.authSource = AuthSourceDisabledLocal then (.ok (), s)
      else
        let action := normalizeStepUpAction lower action
        let token := trimSpace token
        if token = "" then
          (.error ⟨.failedPrecondition, "step_up_token is required for " ++ action⟩, s)
        else
          let s := reapLocked now s
          match s token with
          | none =>
              (.error ⟨.failedPrecondition,
                "step-up token is invalid, expired, or already consumed"⟩, s)
          | some c => (checkChallenge id action now c, Function.update s token none)

/-! ### What a call does to the store

A creation puts in one challenge at most, and a demand takes one out. Everything else is expiry. -/

variable {lower : String → String}

theorem reapLocked_some {now : Int} {s : StepUpStore} {token : String} {c : StepUpChallenge}
    (h : reapLocked now s token = some c) : s token = some c ∧ now ≤ c.expiresAt := by
  unfold reapLocked at h
  obtain ⟨hs, hle⟩ := Option.filter_eq_some_iff.mp h
  exact ⟨hs, of_decide_eq_true hle⟩

theorem reapLocked_none {now : Int} {s : StepUpStore} {token : String} (h : s token = none) :
    reapLocked now s token = none := by
  unfold reapLocked
  rw [h]
  rfl

/-- **A creation** leaves the store, or puts in its challenge. -/
theorem CreateStepUpChallenge_cases (ctx : Option Identity) (action comment : String)
    (generated : Except String String) (now : Int) (s : StepUpStore) :
    let r := CreateStepUpChallenge lower ctx action comment generated now s
    ((∃ status, r.1 = .error status) ∧ r.2 = s) ∨
      ∃ id token, ctx = some id ∧ id.Authenticated ∧ generated = .ok token ∧
        r = (.ok (stepUpChallenge lower id action comment token now),
          Function.update (reapLocked now s) token
            (some (stepUpChallenge lower id action comment token now))) := by
  unfold CreateStepUpChallenge
  cases ctx with
  | none => exact .inl ⟨⟨_, rfl⟩, rfl⟩
  | some id =>
      dsimp only
      split
      · exact .inl ⟨⟨_, rfl⟩, rfl⟩
      · next hid =>
          split
          · exact .inl ⟨⟨_, rfl⟩, rfl⟩
          · cases generated with
            | error err => exact .inl ⟨⟨_, rfl⟩, rfl⟩
            | ok token => exact .inr ⟨id, token, rfl, not_or.mp hid, rfl, rfl⟩

/-- **A demand** by an authenticated identity takes its token out, whatever it finds, and
succeeds only for a challenge of that token that is bound to the action and the actor and has not
expired. -/
theorem RequireStepUp_cases {id : Identity} (hid : id.Authenticated) (action token : String)
    (now : Int) (s : StepUpStore) :
    let r := RequireStepUp lower (some id) action token now s
    (∀ t c, r.2 t = some c → s t = some c) ∧ (trimSpace token ≠ "" → r.2 (trimSpace token) = none) ∧
      (r.1 = .ok () → ∃ c, s (trimSpace token) = some c ∧ now ≤ c.expiresAt ∧
        c.action = normalizeStepUpAction lower action ∧ c.actor = id.name ∧
        c.authSource = id.authSource ∧ trimSpace token ≠ "") := by
  unfold RequireStepUp
  dsimp only
  rw [if_neg (not_or.mpr hid)]
  split
  · next hempty => exact ⟨fun _ _ h => h, fun h => (h hempty).elim, fun h => by cases h⟩
  · next hne =>
      cases hc : reapLocked now s (trimSpace token) with
      | none =>
          exact ⟨fun t c h => (reapLocked_some h).1, fun _ => hc, fun h => by cases h⟩
      | some c =>
          obtain ⟨hs, hle⟩ := reapLocked_some hc
          refine ⟨fun t d h => ?_, fun _ => Function.update_self _ _ _, fun h => ?_⟩
          · dsimp only at h
            by_cases ht : t = trimSpace token
            · rw [ht, Function.update_self] at h
              cases h
            · rw [Function.update_of_ne ht] at h
              exact (reapLocked_some h).1
          · unfold checkChallenge at h
            dsimp only at h
            split at h
            · cases h
            · split at h
              · cases h
              · next haction =>
                  split at h
                  · cases h
                  · next hactor =>
                      rw [not_or, not_not, not_not] at hactor
                      exact ⟨c, hs, hle, not_not.mp haction, hactor.1, hactor.2, hne⟩

/-- A demand adds nothing to the store. -/
theorem stored_of_require (ctx : Option Identity) (action token : String) (now : Int)
    {s : StepUpStore} {t : String} {c : StepUpChallenge}
    (h : (RequireStepUp lower ctx action token now s).2 t = some c) : s t = some c := by
  cases ctx with
  | none => exact h
  | some id =>
      by_cases hid : id.Authenticated
      · exact (RequireStepUp_cases hid action token now s).1 t c h
      · unfold RequireStepUp at h
        dsimp only at h
        rwa [if_pos (by unfold Identity.Authenticated at hid; tauto)] at h

/-! ### Runs

A success is matched to the creation of its token. Tokens are drawn from the random source, so it is
a hypothesis that none is drawn twice. -/

/-- A call, with what its environment gives it. -/
inductive StepUpCall
  | create (ctx : Option Identity) (action comment : String) (generated : Except String String)
      (now : Int)
  | require (ctx : Option Identity) (action token : String) (now : Int)

/-- What a call returns. -/
inductive StepUpReply
  | created (r : Except Status StepUpChallenge)
  | required (r : Except Status Unit)

/-- A call on the store. -/
def execStepUp (lower : String → String) : StepUpCall → StepUpStore → StepUpReply × StepUpStore
  | .create ctx action comment generated now, s =>
      let r := CreateStepUpChallenge lower ctx action comment generated now s
      (.created r.1, r.2)
  | .require ctx action token now, s =>
      let r := RequireStepUp lower ctx action token now s
      (.required r.1, r.2)

abbrev StepUpEvent := Event StepUpCall StepUpStore StepUpReply

/-- The store of a new process. -/
def noChallenges : StepUpStore := fun _ => none

/-- The token a creation was given. -/
def StepUpCall.generated : StepUpCall → Option String
  | .create _ _ _ (.ok token) _ => some token
  | _ => none

/-- The call presents `token` on behalf of an authenticated identity. -/
def StepUpCall.Presents (call : StepUpCall) (token : String) : Prop :=
  ∃ id action raw now, call = .require (some id) action raw now ∧ id.Authenticated ∧
    trimSpace raw = token

/-- A demand by an authenticated identity, with this token, succeeded. -/
def StepUpEvent.SucceedsWith (ev : StepUpEvent) (token : String) : Prop :=
  ev.input.Presents token ∧ ev.output = .required (.ok ())

/-- `a` created the challenge that `b` demands: same token, same action, same actor and source,
and the clock of `b` has not passed its expiry. -/
def Grants (lower : String → String) (a b : StepUpEvent) : Prop :=
  ∃ id action comment token now id' action' raw now',
    a.input = .create (some id) action comment (.ok token) now ∧
      a.output = .created (.ok (stepUpChallenge lower id action comment token now)) ∧
      b.input = .require (some id') action' raw now' ∧ trimSpace raw = token ∧
      normalizeStepUpAction lower action = normalizeStepUpAction lower action' ∧
      id.name = id'.name ∧ id.authSource = id'.authSource ∧
      now' ≤ (stepUpChallenge lower id action comment token now).expiresAt

/-- What a success found in the store. -/
theorem of_succeeds {calls : List StepUpCall} {s : StepUpStore} {ev : StepUpEvent} {token : String}
    (hev : ev ∈ history (execStepUp lower) s calls) (h : ev.SucceedsWith token) :
    ∃ id action raw now c, ev.input = .require (some id) action raw now ∧ trimSpace raw = token ∧
      ev.before token = some c ∧ now ≤ c.expiresAt ∧ c.action = normalizeStepUpAction lower action ∧
      c.actor = id.name ∧ c.authSource = id.authSource ∧ token ≠ "" := by
  obtain ⟨⟨id, action, raw, now, hinput, hid, rfl⟩, hok⟩ := h
  have hexec := (history_event hev).2
  rw [hinput] at hexec
  have hout : StepUpReply.required (RequireStepUp lower (some id) action raw now ev.before).1 =
      .required (.ok ()) := by
    rw [← hok]
    exact congrArg Prod.fst hexec
  obtain ⟨-, -, hcases⟩ := RequireStepUp_cases hid action raw now ev.before
  obtain ⟨c, hc, hrest⟩ := hcases (StepUpReply.required.inj hout)
  exact ⟨id, action, raw, now, c, hinput, rfl, hc, hrest⟩

/-- An entry of the store came from a creation of its token. -/
theorem created_of_stored {calls : List StepUpCall} {pre post : List StepUpEvent} {ev : StepUpEvent}
    {token : String} {c : StepUpChallenge}
    (hs : history (execStepUp lower) noChallenges calls = pre ++ ev :: post)
    (hc : ev.before token = some c) :
    ∃ a ∈ pre, ∃ id action comment now, a.input = .create (some id) action comment (.ok token) now ∧
      a.output = .created (.ok c) ∧ c = stepUpChallenge lower id action comment token now := by
  obtain ⟨a, ha, hbefore, hafter⟩ :=
    history_cause (P := fun s => s token = some c) (by intro h; cases h) hs hc
  refine ⟨a, ha, ?_⟩
  have hexec := (history_event (hs ▸ List.mem_append_left _ ha)).2
  cases hin : a.input with
  | create ctx action comment generated now =>
      rw [hin] at hexec
      rcases CreateStepUpChallenge_cases ctx action comment generated now a.before with
        ⟨-, hsame⟩ | ⟨id, t, rfl, -, rfl, hr⟩
      · exact (hbefore ((congrFun ((congrArg Prod.snd hexec).symm.trans hsame) token).symm.trans
          hafter)).elim
      · have hout := congrArg Prod.fst hexec
        have hstore := congrArg Prod.snd hexec
        dsimp only [execStepUp] at hout hstore
        rw [hr] at hout hstore
        dsimp only at hout hstore
        rw [← hstore] at hafter
        by_cases ht : token = t
        · subst ht
          rw [Function.update_self, Option.some.injEq] at hafter
          exact ⟨id, action, comment, now, rfl, by rw [← hout, hafter], hafter.symm⟩
        · rw [Function.update_of_ne ht] at hafter
          exact (hbefore (reapLocked_some hafter).1).elim
  | require ctx action raw now =>
      rw [hin] at hexec
      exact (hbefore (stored_of_require ctx action raw now
        ((congrFun (congrArg Prod.snd hexec) token).trans hafter))).elim

/-- Only a creation that is given a token brings it into the store. -/
theorem absent_of_step {call : StepUpCall} {s : StepUpStore} {token : String}
    (hgen : call.generated ≠ some token) (h : s token = none) :
    (execStepUp lower call s).2 token = none := by
  cases call with
  | create ctx action comment generated now =>
      rcases CreateStepUpChallenge_cases ctx action comment generated now s with
        ⟨-, hsame⟩ | ⟨id, t, rfl, -, rfl, hr⟩
      · exact (congrFun hsame token).trans h
      · have hne : token ≠ t := fun he => hgen (congrArg some he.symm)
        dsimp only [execStepUp]
        rw [hr]
        dsimp only
        rw [Function.update_of_ne hne]
        exact reapLocked_none h
  | require ctx action raw now =>
      refine Option.eq_none_iff_forall_ne_some.mpr fun c hc => ?_
      rw [stored_of_require ctx action raw now hc] at h
      cases h

/-- **A presented token** is never good again, as long as it is not generated again. -/
theorem consumed {calls : List StepUpCall} (hfresh : (calls.filterMap StepUpCall.generated).Nodup)
    {pre post : List StepUpEvent} {ev : StepUpEvent} {token : String}
    (hs : history (execStepUp lower) noChallenges calls = pre ++ ev :: post)
    (hpresents : ev.input.Presents token) (hstored : ev.before token ≠ none) :
    ∀ b ∈ post, ¬ StepUpEvent.SucceedsWith b token := by
  obtain ⟨c, hc⟩ := Option.ne_none_iff_exists'.mp hstored
  obtain ⟨a, ha, id, action, comment, now, hin, -, -⟩ := created_of_stored hs hc
  -- The token was generated before this call, so no later creation is given it.
  have hlater : ∀ b ∈ post, b.input.generated ≠ some token := by
    have hcalls := history_map_input (execStepUp lower) noChallenges calls
    rw [hs, List.map_append, List.map_cons] at hcalls
    rw [← hcalls, List.filterMap_append] at hfresh
    intro b hb hgen
    refine List.disjoint_of_nodup_append hfresh (a := token) ?_ ?_
    · exact List.mem_filterMap.mpr ⟨a.input, List.mem_map_of_mem ha, by rw [hin]; rfl⟩
    · exact List.mem_filterMap.mpr
        ⟨b.input, List.mem_cons_of_mem _ (List.mem_map_of_mem hb), hgen⟩
  intro b hb hsuc
  obtain ⟨-, -, -, -, d, -, -, hd, -, -, -, -, hne⟩ :=
    of_succeeds (hs ▸ List.mem_append_right _ (List.mem_cons_of_mem _ hb)) hsuc
  have hafter : ev.after token = none := by
    obtain ⟨id, action, raw, now, hcall, hid, rfl⟩ := hpresents
    have hmem : ev ∈ history (execStepUp lower) noChallenges calls :=
      hs ▸ List.mem_append_right _ List.mem_cons_self
    have hexec := (history_event hmem).2
    rw [hcall] at hexec
    refine (congrFun (congrArg Prod.snd hexec) _).symm.trans ?_
    exact (RequireStepUp_cases hid action raw now ev.before).2.1 hne
  have hgone := history_since (I := fun s => s token = none)
    (C := fun ev => ev.input.generated ≠ some token) hs hafter
    (fun i s hi hI => absent_of_step hi hI) hlater b hb
  rw [hgone] at hd
  cases hd

/-- The call at place `i` of the run is a success. -/
def SucceedsAt (es : List StepUpEvent) (i : Nat) : Prop :=
  ∃ b token, es[i]? = some b ∧ b.SucceedsWith token

/-- The creation at place `j` of the run granted the call at place `i`. -/
def GrantedBy (lower : String → String) (es : List StepUpEvent) (j i : Nat) : Prop :=
  ∃ a b, es[j]? = some a ∧ es[i]? = some b ∧ Grants lower a b

/-- The part of a list before a place and the part after it. -/
theorem split_of_getElem? {α : Type} {l : List α} {i : Nat} {a : α} (h : l[i]? = some a) :
    ∃ pre post, l = pre ++ a :: post ∧ pre.length = i := by
  obtain ⟨hi, rfl⟩ := List.getElem?_eq_some_iff.mp h
  refine ⟨l.take i, l.drop (i + 1), ?_, List.length_take_of_le hi.le⟩
  rw [← List.drop_eq_getElem_cons hi, List.take_append_drop]

/-- Every success was granted by an earlier creation. -/
theorem granted_of_succeedsAt {calls : List StepUpCall} {i : Nat}
    (h : SucceedsAt (history (execStepUp lower) noChallenges calls) i) :
    ∃ j < i, GrantedBy lower (history (execStepUp lower) noChallenges calls) j i := by
  obtain ⟨b, token, hb, hsuc⟩ := h
  obtain ⟨pre, post, hs, rfl⟩ := split_of_getElem? hb
  obtain ⟨id', action', raw, now', c, hin', htoken, hc, hle, haction, hactor, hsource, -⟩ :=
    of_succeeds (hs ▸ List.mem_append_right _ List.mem_cons_self) hsuc
  obtain ⟨a, ha, id, action, comment, now, hin, hout, rfl⟩ := created_of_stored hs hc
  obtain ⟨j, hj, rfl⟩ := List.getElem_of_mem ha
  refine ⟨j, hj, pre[j], b, ?_, hb, ?_⟩
  · rw [hs, List.getElem?_append_left hj]
    exact List.getElem?_eq_getElem hj
  · exact ⟨id, action, comment, token, now, id', action', raw, now', hin, hout, hin', htoken,
      haction, hactor, hsource, hle⟩

/-- A creation grants one call. -/
theorem eq_of_grantedBy {calls : List StepUpCall}
    (hfresh : (calls.filterMap StepUpCall.generated).Nodup) {i i' j : Nat}
    (hi : SucceedsAt (history (execStepUp lower) noChallenges calls) i)
    (hi' : SucceedsAt (history (execStepUp lower) noChallenges calls) i')
    (h : GrantedBy lower (history (execStepUp lower) noChallenges calls) j i)
    (h' : GrantedBy lower (history (execStepUp lower) noChallenges calls) j i') : ¬ i < i' := by
  intro hlt
  obtain ⟨b, token, hb, hsuc⟩ := hi
  obtain ⟨b', token', hb', hsuc'⟩ := hi'
  -- Both calls present the token the creation was given.
  have heq : token' = token := by
    obtain ⟨a, x, ha, hx, _, _, _, t, _, _, _, raw, _, hin, _, hreq, hraw, _⟩ := h
    obtain ⟨a', x', ha', hx', _, _, _, t', _, _, _, raw', _, hin', _, hreq', hraw', _⟩ := h'
    obtain rfl := Option.some.inj (ha.symm.trans ha')
    obtain rfl := Option.some.inj (hb.symm.trans hx)
    obtain rfl := Option.some.inj (hb'.symm.trans hx')
    obtain ⟨⟨_, _, r, _, hcall, _, rfl⟩, _⟩ := hsuc
    obtain ⟨⟨_, _, r', _, hcall', _, rfl⟩, _⟩ := hsuc'
    obtain ⟨-, -, -, ht, -⟩ := StepUpCall.create.inj (hin.symm.trans hin')
    obtain ⟨-, -, rfl, -⟩ := StepUpCall.require.inj (hcall.symm.trans hreq)
    obtain ⟨-, -, rfl, -⟩ := StepUpCall.require.inj (hcall'.symm.trans hreq')
    rw [hraw, hraw', Except.ok.inj ht]
  obtain ⟨pre, post, hs, rfl⟩ := split_of_getElem? hb
  obtain ⟨-, -, -, -, c, -, -, hc, -⟩ :=
    of_succeeds (hs ▸ List.mem_append_right _ List.mem_cons_self) hsuc
  have hstored : b.before token ≠ none := by
    rw [hc]
    exact Option.some_ne_none c
  refine consumed hfresh hs hsuc.1 hstored b' ?_ (heq ▸ hsuc')
  rw [hs, List.getElem?_append_right hlt.le, ← Nat.succ_pred_eq_of_pos (Nat.sub_pos_of_lt hlt),
    List.getElem?_cons_succ] at hb'
  exact List.mem_of_getElem? hb'

/-- **Challenges are one-shot.** In every run of the store from its first state in which no token
is generated twice, the successes are matched to distinct earlier creations that grant them, and
a stored token that was presented, with success or not, does not succeed again. -/
theorem stepUp_one_shot (lower : String → String) (calls : List StepUpCall)
    (hfresh : (calls.filterMap StepUpCall.generated).Nodup) :
    let es := history (execStepUp lower) noChallenges calls
    (∃ m : Nat → Nat, (∀ i, SucceedsAt es i → m i < i ∧ GrantedBy lower es (m i) i) ∧
        ∀ i i', SucceedsAt es i → SucceedsAt es i' → m i = m i' → i = i') ∧
      ∀ pre ev post token, es = pre ++ ev :: post → ev.input.Presents token →
        ev.before token ≠ none → ∀ b ∈ post, ¬ StepUpEvent.SucceedsWith b token := by
  intro es
  refine ⟨?_, fun pre ev post token hs hp hne => consumed hfresh hs hp hne⟩
  have hex : ∀ i, ∃ j, SucceedsAt es i → j < i ∧ GrantedBy lower es j i := by
    intro i
    by_cases h : SucceedsAt es i
    · obtain ⟨j, hj, hg⟩ := granted_of_succeedsAt h
      exact ⟨j, fun _ => ⟨hj, hg⟩⟩
    · exact ⟨0, fun hi => (h hi).elim⟩
  choose m hm using hex
  refine ⟨m, hm, fun i i' hi hi' heq => ?_⟩
  have hg := (hm i hi).2
  have hg' := (hm i' hi').2
  rw [← heq] at hg'
  exact le_antisymm (not_lt.mp (eq_of_grantedBy hfresh hi' hi hg' hg))
    (not_lt.mp (eq_of_grantedBy hfresh hi hi' hg hg'))

/-- An administrator's challenge, and its use. -/
def commitWithStepUp : List StepUpCall :=
  [.create (some ⟨"ann", .admin, AuthSourceLocalUsersFile⟩) "commit" "" (.ok "stepup_A") 0,
    .require (some ⟨"ann", .admin, AuthSourceLocalUsersFile⟩) "Commit" " stepup_A" 1]

/-- The use succeeds, and the creation is what it is matched to. -/
theorem stepUp_one_shot_commit :
    SucceedsAt (history (execStepUp toLower) noChallenges commitWithStepUp) 1 ∧
      GrantedBy toLower (history (execStepUp toLower) noChallenges commitWithStepUp) 0 1 := by
  have hsuc : SucceedsAt (history (execStepUp toLower) noChallenges commitWithStepUp) 1 := by
    unfold commitWithStepUp
    rw [history_pair]
    refine ⟨_, "stepup_A", rfl, ⟨_, _, _, _, rfl, by decide, by decide +kernel⟩, ?_⟩
    exact congrArg StepUpReply.required (by decide +kernel)
  obtain ⟨⟨m, hm, -⟩, -⟩ := stepUp_one_shot toLower commitWithStepUp (by decide +kernel)
  obtain ⟨hlt, hg⟩ := hm 1 hsuc
  rw [Nat.lt_one_iff.mp hlt] at hg
  exact ⟨hsuc, hg⟩

end Phragma.Authz
