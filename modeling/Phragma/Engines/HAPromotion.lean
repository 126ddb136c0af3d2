import Phragma.Go.Lines
import Phragma.Lib.Machine
import Phragma.Lib.RouteTable
import Phragma.Go.Netip

/-!
# Phragma.Engines.HAPromotion

The cutover of a node that becomes the active one (`internal/engines/hapromotion.go`): `Promote`
gives the host the virtual address and the routes of its configuration and takes away what an
earlier promotion gave it.

What an earlier promotion gave is read from a state file. The file is written at the very end,
after what is stale has gone and what is new has come, command by command. So a promotion succeeds
exactly when the host has the address that goes, and to every destination as many routes as are to
go, whoever put them in (`Promote_ok_iff`); and one that fails after it took the old address away has
left a file that names an address the host does not have, from which no other configuration gets any
further (`failed_promotion_final`).

The host has a set of addresses on interfaces and a table of routes. How `ip` reads a destination
is left open, as in `Engines.Routes`; a metric that is not given is zero. That Linux drops the IPv4
routes from an address together with the address is left out: here a route goes by a command. The
sample of the neighbor table, which goes into the report alone, is an input.
-/

namespace Phragma.Engines.HA

open Lib Go

/-! ### Configuration

An address that the active node has, the interface it is on, and routes that it has with the address
as their source. -/

/-- `HAPromotionRoute`. A prefix or an address that is not valid is `none`. -/
structure HAPromotionRoute where
  destination : Option Prefix
  via : Option Addr := none
  interface : String := ""
  metric : Nat := 0
  deriving DecidableEq, Repr

/-- `HAPromotion`, without its seams to the outside. -/
structure HAPromotion where
  stateDir : String
  interface : String
  vip : Option Prefix
  routes : List HAPromotionRoute := []
  announceIP : Bool := false
  deriving DecidableEq, Repr

/-- `haPromotionState`: what the last promotion has put on the host, as texts. -/
structure HAPromotionState where
  interface : String := ""
  vip : String := ""
  routes : List String := []
  deriving DecidableEq, Repr

/-- `Prefix.String`, of a prefix that may not be valid. -/
def prefixString (p : Option Prefix) : String := (p.map Prefix.string).getD "invalid Prefix"

/-- `routeArgs`: a route in the words of `ip route`. -/
def routeArgs (route : HAPromotionRoute) : List String :=
  [prefixString route.destination] ++
    (match route.via with
      | some via => ["via", via.string]
      | none => []) ++
    (if trimSpace route.interface ≠ "" then ["dev", route.interface] else []) ++
    (if route.metric ≠ 0 then ["metric", decimal route.metric] else [])

/-- `routeLine`: a route in one line, as it is kept in the state file. -/
def routeLine (route : HAPromotionRoute) : String := join (routeArgs route) " "

/-- `state`: what is written to the state file. -/
def HAPromotion.state (p : HAPromotion) : HAPromotionState where
  interface := p.interface
  vip := prefixString p.vip
  routes := p.routes.map routeLine

/-- A character that an interface name may have. -/
def interfaceChar (c : Char) : Bool :=
  ('a' ≤ c && c ≤ 'z') || ('A' ≤ c && c ≤ 'Z') || ('0' ≤ c && c ≤ '9') || c == '.' || c == '_' ||
    c == '-' || c == ':'

/-- `%q` of a rune. -/
def quotedRune (c : Char) : String :=
  if c = '\'' then "'\\''" else if c = '"' then "'\"'" else
    "'" ++ String.ofList (quoteRune c) ++ "'"

/-- `validateHAInterface`: the check of an interface name. -/
def validateHAInterface (value : String) : Except String Unit :=
  let value := trimSpace value
  if value = "" then .error "HA promotion interface is required"
  else
    match value.toList.find? fun c => !interfaceChar c with
    | none => .ok ()
    | some c => .error ("HA promotion interface " ++ quote value ++
        " contains unsupported character " ++ quotedRune c)

/-- The body of the loop of `Validate` over the routes. -/
def validateRoute (seenRoutes : List String) (route : HAPromotionRoute) :
    Except String (List String) := do
  if route.destination.isNone then .error "HA promotion route destination is required"
  if route.via.isNone && trimSpace route.interface = "" then
    .error ("HA promotion route " ++ prefixString route.destination ++
      " requires via or interface")
  if route.interface ≠ "" then
    match validateHAInterface route.interface with
    | .ok () => pure ()
    | .error err =>
        .error ("HA promotion route " ++ prefixString route.destination ++ ": " ++ err)
  let key := routeLine route
  if seenRoutes.contains key then .error ("duplicate HA promotion route " ++ key)
  pure (key :: seenRoutes)

/-- `Validate`: the checks of a configuration. -/
def HAPromotion.Validate (p : HAPromotion) : Except String Unit := do
  if trimSpace p.stateDir = "" then .error "HA promotion state directory is required"
  validateHAInterface p.interface
  if p.vip.isNone then .error "HA promotion VIP is required"
  let _ ← p.routes.foldlM validateRoute []
  pure ()

/-! ### The host

Commands work on addresses and routes. What they say of the kernel is what the promotion relies on:
`replace` puts in, `del` takes out what is there. -/

/-- Where a promoted route leads. -/
structure Hop where
  via : Option Addr
  interface : String
  src : String
  deriving DecidableEq, Repr

/-- The commands of a promotion. -/
inductive Command
  /-- `ip addr del <address> dev <interface>` -/
  | addrDel (address interface : String)
  /-- `ip addr replace <address> dev <interface>` -/
  | addrReplace (address interface : String)
  /-- `ip route del <destination>` -/
  | routeDel (destination : String)
  /-- `ip route replace <routeArgs> src <source>` -/
  | routeReplace (route : HAPromotionRoute) (src : String)
  /-- `arping -A -c 3 -I <interface> <address>` -/
  | announce (interface address : String)
  deriving DecidableEq, Repr

/-- The host: its addresses, each on an interface, its routes, and what the state file says. A file
that is missing or cannot be read is `none`. -/
structure Host (δ : Type) where
  addrs : Finset (String × String) := ∅
  table : RouteTable δ Hop
  file : Option HAPromotionState := none

section

variable {δ : Type} (dest : String → Option δ)

/-- The route that a `route replace` puts in. -/
def routeOf (route : HAPromotionRoute) (src : String) : Option (RouteKey δ × Hop) :=
  (dest (prefixString route.destination)).map fun d =>
    (⟨d, route.metric⟩,
      ⟨route.via, if trimSpace route.interface ≠ "" then route.interface else "", src⟩)

variable [DecidableEq δ]

/-- A command on the host. To delete what is not there fails; deleting an address leaves the routes
as they are, those with the address as their source among them. -/
def Command.exec (h : Host δ) : Command → Option (Host δ)
  | .addrDel address interface =>
      if (address, interface) ∈ h.addrs then
        some { h with addrs := h.addrs.erase (address, interface) }
      else none
  | .addrReplace address interface =>
      some { h with addrs := insert (address, interface) h.addrs }
  | .routeDel destination =>
      (dest destination).bind fun d =>
        ((RouteCmd.del d).exec h.table).map fun table => { h with table }
  | .routeReplace route src =>
      (routeOf dest route src).map fun r => { h with table := h.table.insert r.1 r.2 }
  | .announce _ _ => some h

/-! ### Promote

The address that is to go goes first, then the routes that are to go, then the new ones come, and
last the state file is written. The first command that fails ends it. -/

/-- What a promotion meets outside. -/
structure Outside where
  /-- The commands that fail for reasons of their own, with their errors. -/
  fault : Nat → Option String := fun _ => none
  /-- What is said about a command that the host refuses. -/
  refusal : Command → String := fun _ => "exit status 2"
  /-- `neighborProof`. -/
  neighborProof : String × String := ("sampled_empty", "")
  mkdir : Option String := none
  /-- The error of `WriteFile`, and what is then read of the file. -/
  write : Option (String × Option HAPromotionState) := none
  now : String := ""

/-- The host, and how many commands were run. -/
structure Shell (δ : Type) where
  host : Host δ
  ran : Nat := 0

/-- The runner: the error of a command, if it fails. -/
def run (o : Outside) (c : Command) (s : Shell δ) : Option String × Shell δ :=
  match o.fault s.ran with
  | some err => (some err, { s with ran := s.ran + 1 })
  | none =>
      match c.exec dest s.host with
      | none => (some (o.refusal c), { s with ran := s.ran + 1 })
      | some host => (none, ⟨host, s.ran + 1⟩)

/-- `HAPromotionResult`: what is reported. -/
structure HAPromotionResult where
  vip : String := ""
  interface : String := ""
  routes : List String := []
  vipsRemoved : Nat := 0
  routesRemoved : Nat := 0
  announcements : Nat := 0
  garpState : String := ""
  garpDetail : String := ""
  neighborState : String := ""
  neighborDetail : String := ""
  observedAt : String := ""
  warnings : List String := []
  transportClaim : String := ""
  managedStateKey : String := ""
  deriving DecidableEq, Repr

/-- The result that `Promote` starts with. -/
def initialResult (p : HAPromotion) : HAPromotionResult where
  vip := prefixString p.vip
  interface := p.interface
  routes := p.state.routes
  garpState := "not_requested"
  garpDetail := "gratuitous ARP announcement was not requested"
  neighborState := "not_sampled"
  neighborDetail := "neighbor table was not sampled"
  transportClaim := "linux_local_vip_route_promoted"
  managedStateKey := "ha-promotion.state"

/-- What the phases of `Promote` hand on: the result so far and the shell; or, with the error, what
there was when it came up. -/
abbrev Progress (δ : Type) := Except (HAPromotionResult × String × Shell δ) (HAPromotionResult × Shell δ)

/-- The stale address goes. -/
def removeVIP (o : Outside) (prev next : HAPromotionState) (result : HAPromotionResult)
    (s : Shell δ) : Progress δ :=
  if prev.vip ≠ "" ∧ (prev.vip ≠ next.vip ∨ prev.interface ≠ next.interface) then
    match run dest o (.addrDel prev.vip prev.interface) s with
    | (some err, s) =>
        .error (result, "remove stale HA VIP " ++ prev.vip ++ " dev " ++ prev.interface ++ ": " ++
          err, s)
    | (none, s) => .ok ({ result with vipsRemoved := result.vipsRemoved + 1 }, s)
  else .ok (result, s)

/-- The loop over the stale routes. -/
def removeRoutes (o : Outside) (nextRoutes : List String) :
    List String → HAPromotionResult → Shell δ → Progress δ
  | [], result, s => .ok (result, s)
  | route :: rest, result, s =>
      if nextRoutes.contains route then removeRoutes o nextRoutes rest result s
      else
        match fields route with
        | [] => removeRoutes o nextRoutes rest result s
        | d :: _ =>
            match run dest o (.routeDel d) s with
            | (some err, s) => .error (result, "remove stale HA route " ++ d ++ ": " ++ err, s)
            | (none, s) =>
                removeRoutes o nextRoutes rest
                  { result with routesRemoved := result.routesRemoved + 1 } s

/-- The new address comes. -/
def replaceVIP (o : Outside) (p : HAPromotion) (result : HAPromotionResult) (s : Shell δ) :
    Progress δ :=
  match run dest o (.addrReplace (prefixString p.vip) p.interface) s with
  | (some err, s) =>
      .error (result, "promote HA VIP " ++ prefixString p.vip ++ " dev " ++ p.interface ++ ": " ++
        err, s)
  | (none, s) => .ok (result, s)

/-- The announcement, whose failure is a warning. -/
def announceVIP (o : Outside) (p : HAPromotion) (result : HAPromotionResult) (s : Shell δ) :
    HAPromotionResult × Shell δ :=
  match p.vip with
  | none => (result, s)
  | some vip =>
      if p.announceIP && vip.addr.is4 then
        match run dest o (.announce p.interface vip.addr.string) s with
        | (some err, s) =>
            let detail := "gratuitous ARP failed for " ++ vip.addr.string ++ " on " ++
              p.interface ++ ": " ++ err
            ({ result with
                garpState := "failed", garpDetail := detail
                warnings := result.warnings ++ [detail] }, s)
        | (none, s) =>
            let announcements := result.announcements + 1
            ({ result with
                announcements
                garpState := "sent"
                garpDetail := "sent " ++ decimal announcements ++
                  " gratuitous ARP announcement(s) for " ++ vip.addr.string ++ " on " ++
                  p.interface }, s)
      else (result, s)

/-- The source address that the routes are given. -/
def sourceAddress (p : HAPromotion) : String :=
  match p.vip with
  | none => ""
  | some vip => vip.addr.string

/-- The loop over the new routes. -/
def replaceRoutes (o : Outside) (src : String) :
    List HAPromotionRoute → HAPromotionResult → Shell δ → Progress δ
  | [], result, s => .ok (result, s)
  | route :: rest, result, s =>
      match run dest o (.routeReplace route src) s with
      | (some err, s) =>
          .error (result, "promote HA route " ++ prefixString route.destination ++ ": " ++ err, s)
      | (none, s) => replaceRoutes o src rest result s

/-- The commands of `Promote`. -/
def cutover (o : Outside) (p : HAPromotion) (prev : HAPromotionState) (s : Shell δ) : Progress δ :=
  (removeVIP dest o prev p.state (initialResult p) s).bind fun r =>
  (removeRoutes dest o p.state.routes prev.routes r.1 r.2).bind fun r =>
  (replaceVIP dest o p r.1 r.2).bind fun r =>
  let r := announceVIP dest o p r.1 r.2
  replaceRoutes dest o (sourceAddress p) p.routes
    { r.1 with neighborState := o.neighborProof.1, neighborDetail := o.neighborProof.2 } r.2

/-- What `Promote` returns: its result, and the error, if there is one. -/
structure Promotion where
  result : HAPromotionResult
  error : Option String
  deriving DecidableEq, Repr

/-- `Promote`: the host brought from what its state file says to the configuration. -/
def Promote (o : Outside) (p : HAPromotion) (h : Host δ) : Promotion × Host δ :=
  match p.Validate with
  | .error err => (⟨{}, some err⟩, h)
  | .ok () =>
      match cutover dest o p (h.file.getD {}) ⟨h, 0⟩ with
      | .error (result, err, s) => (⟨result, some err⟩, s.host)
      | .ok (result, s) =>
          match o.mkdir with
          | some err => (⟨result, some err⟩, s.host)
          | none =>
              match o.write with
              | some (err, left) => (⟨result, some err⟩, { s.host with file := left })
              | none =>
                  (⟨{ result with observedAt := o.now }, none⟩,
                    { s.host with file := some p.state })

/-! ### The script of a promotion

Up to the state file a promotion is a list of commands, computed from the two states beforehand. It
succeeds if they all do and the state file can be written. -/

/-- Commands that all succeed. -/
def runAll : List Command → Host δ → Option (Host δ)
  | [], h => some h
  | c :: cs, h => (c.exec dest h).bind (runAll cs)

/-- The address of the state file is not that of the configuration. -/
def Stale (prev next : HAPromotionState) : Prop :=
  prev.vip ≠ "" ∧ (prev.vip ≠ next.vip ∨ prev.interface ≠ next.interface)

instance (prev next : HAPromotionState) : Decidable (Stale prev next) :=
  inferInstanceAs (Decidable (_ ∧ _))

/-- The destination that a route of the state file is deleted by, unless it is still wanted. -/
def staleDest (nextRoutes : List String) (route : String) : Option String :=
  if nextRoutes.contains route then none else (fields route).head?

/-- The destinations of the routes of the state file that the configuration does not have. -/
def staleDests (prev next : HAPromotionState) : List String :=
  prev.routes.filterMap (staleDest next.routes)

/-- The command that takes the stale address away. -/
def removal (prev next : HAPromotionState) : List Command :=
  if Stale prev next then [.addrDel prev.vip prev.interface] else []

/-- What `Promote` asks of the host, the announcement apart. -/
def script (prev : HAPromotionState) (p : HAPromotion) : List Command :=
  removal prev p.state ++ ((staleDests prev p.state).map .routeDel ++
    (.addrReplace (prefixString p.vip) p.interface ::
      p.routes.map fun route => .routeReplace route (sourceAddress p)))

variable {dest}

theorem runAll_append (xs ys : List Command) (h : Host δ) :
    runAll dest (xs ++ ys) h = (runAll dest xs h).bind (runAll dest ys) := by
  induction xs generalizing h with
  | nil => rfl
  | cons c xs ih =>
      rw [List.cons_append, runAll, runAll]
      cases c.exec dest h with
      | none => rfl
      | some h' => exact ih h'

/-- A phase follows a list of commands: it performs them all, or those before one that fails. -/
def Follows (dest : String → Option δ) (o : Outside) (cs : List Command) (s : Shell δ) :
    Progress δ → Prop
  | .ok r => runAll dest cs s.host = some r.2.host
  | .error e => ∃ done c rest, cs = done ++ c :: rest ∧ runAll dest done s.host = some e.2.2.host ∧
      ((∀ n, o.fault n = none) → c.exec dest e.2.2.host = none)

theorem Follows.bind {o : Outside} {cs cs' : List Command} {s : Shell δ} {x : Progress δ}
    {f : HAPromotionResult × Shell δ → Progress δ} (hx : Follows dest o cs s x)
    (hf : ∀ r, x = .ok r → Follows dest o cs' r.2 (f r)) :
    Follows dest o (cs ++ cs') s (x.bind f) := by
  cases x with
  | error e =>
      obtain ⟨done, c, rest, rfl, hdone, hfail⟩ := hx
      exact ⟨done, c, rest ++ cs', by rw [List.append_assoc]; rfl, hdone, hfail⟩
  | ok r =>
      have hr : runAll dest cs s.host = some r.2.host := hx
      have hfr := hf r rfl
      change Follows dest o (cs ++ cs') s (f r)
      cases hfx : f r with
      | ok r' =>
          rw [hfx] at hfr
          change runAll dest (cs ++ cs') s.host = some r'.2.host
          rw [runAll_append, hr]
          exact hfr
      | error e =>
          rw [hfx] at hfr
          obtain ⟨done, c, rest, rfl, hdone, hfail⟩ := hfr
          refine ⟨cs ++ done, c, rest, by rw [List.append_assoc], ?_, hfail⟩
          rw [runAll_append, hr]
          exact hdone

theorem follows_ok (o : Outside) (result : HAPromotionResult) (s : Shell δ) :
    Follows dest o [] s (.ok (result, s)) := rfl

/-- **A command that is run**, and what comes after it. -/
theorem run_follows {o : Outside} {c : Command} {cs : List Command} {s : Shell δ} {x : Progress δ}
    {text : String → String} {result : HAPromotionResult} {after : Shell δ → Progress δ}
    (hafter : ∀ s, Follows dest o cs s (after s))
    (hx : x = match run dest o c s with
      | (some err, s) => .error (result, text err, s)
      | (none, s) => after s) : Follows dest o (c :: cs) s x := by
  subst hx
  unfold run
  cases hfault : o.fault s.ran with
  | some err =>
      refine ⟨[], c, cs, rfl, rfl, fun hcalm => ?_⟩
      rw [hcalm] at hfault
      cases hfault
  | none =>
      dsimp only
      cases hc : c.exec dest s.host with
      | none => exact ⟨[], c, cs, rfl, rfl, fun _ => hc⟩
      | some host =>
          have hrun : Follows dest o [c] s (.ok (result, ⟨host, s.ran + 1⟩)) := by
            change runAll dest [c] s.host = some host
            rw [runAll, hc]
            rfl
          exact hrun.bind (f := fun r => after r.2) fun r _ => hafter r.2

theorem removeVIP_follows {o : Outside} {prev next : HAPromotionState}
    {result : HAPromotionResult} {s : Shell δ} :
    Follows dest o (removal prev next) s (removeVIP dest o prev next result s) := by
  by_cases h : Stale prev next
  · rw [removal, if_pos h, removeVIP, if_pos (show _ ∧ _ from h)]
    exact run_follows (fun s => follows_ok o _ s) rfl
  · rw [removal, if_neg h, removeVIP, if_neg (show ¬ (_ ∧ _) from h)]
    exact follows_ok o result s

theorem removeRoutes_follows {o : Outside} {nextRoutes routes : List String} :
    ∀ {result : HAPromotionResult} {s : Shell δ},
      Follows dest o ((routes.filterMap (staleDest nextRoutes)).map .routeDel) s
        (removeRoutes dest o nextRoutes routes result s) := by
  induction routes with
  | nil => exact fun {result s} => follows_ok o result s
  | cons route routes ih =>
      intro result s
      unfold removeRoutes
      split
      · next hwanted =>
          rw [List.filterMap_cons_none (by rw [staleDest, if_pos hwanted])]
          exact ih
      · next hstale =>
          have hdest : staleDest nextRoutes route = (fields route).head? := by
            rw [staleDest, if_neg hstale]
          split
          · next hblank =>
              rw [List.filterMap_cons_none (by rw [hdest, hblank]; rfl)]
              exact ih
          · next d rest hfields =>
              rw [List.filterMap_cons_some (b := d) (by rw [hdest, hfields]; rfl), List.map_cons]
              exact run_follows (fun s => ih) rfl

theorem replaceVIP_follows {o : Outside} {p : HAPromotion} {result : HAPromotionResult}
    {s : Shell δ} : Follows dest o [.addrReplace (prefixString p.vip) p.interface] s
      (replaceVIP dest o p result s) :=
  run_follows (fun s => follows_ok o result s) rfl

theorem replaceRoutes_follows {o : Outside} {src : String} {routes : List HAPromotionRoute}
    {result : HAPromotionResult} : ∀ {s : Shell δ},
      Follows dest o (routes.map fun route => .routeReplace route src) s
        (replaceRoutes dest o src routes result s) := by
  induction routes with
  | nil => exact fun {s} => follows_ok o result s
  | cons route routes ih => exact run_follows (fun s => ih) rfl

/-- The announcement leaves the host alone. -/
theorem announceVIP_host {o : Outside} {p : HAPromotion} {result : HAPromotionResult}
    {s : Shell δ} : (announceVIP dest o p result s).2.host = s.host := by
  unfold announceVIP
  split
  · rfl
  · split
    · unfold run
      cases o.fault s.ran <;> rfl
    · rfl

theorem Follows.congr {o : Outside} {cs : List Command} {s s' : Shell δ} {x : Progress δ}
    (h : Follows dest o cs s x) (hs : s.host = s'.host) : Follows dest o cs s' x := by
  cases x with
  | ok r =>
      change runAll dest cs s'.host = some r.2.host
      rw [← hs]
      exact h
  | error e =>
      obtain ⟨done, c, rest, hcs, hdone, hfail⟩ := h
      exact ⟨done, c, rest, hcs, by rw [← hs]; exact hdone, hfail⟩

/-- **`Promote` follows its script.** -/
theorem cutover_follows {o : Outside} {p : HAPromotion} {prev : HAPromotionState} {s : Shell δ} :
    Follows dest o (script prev p) s (cutover dest o p prev s) := by
  unfold cutover script staleDests
  refine removeVIP_follows.bind fun r _ => ?_
  refine removeRoutes_follows.bind fun r _ => ?_
  refine (replaceVIP_follows (p := p)).bind fun r _ => ?_
  exact replaceRoutes_follows.congr announceVIP_host

/-- **What `Promote` did**: its script up to a command that failed, or all of it. -/
theorem Promote_cases {o : Outside} {p : HAPromotion} {h h' : Host δ} {r : Promotion}
    (heq : Promote dest o p h = (r, h')) (hvalid : p.Validate = .ok ()) :
    (∃ done c rest err, script (h.file.getD {}) p = done ++ c :: rest ∧ r.error = some err ∧
      runAll dest done h = some h' ∧
      ((∀ n, o.fault n = none) → c.exec dest h' = none)) ∨
    ∃ h₁, runAll dest (script (h.file.getD {}) p) h = some h₁ ∧
      ((∃ err, r.error = some err ∧ o.mkdir = some err ∧ h' = h₁) ∨
        (∃ err left, r.error = some err ∧ o.write = some (err, left) ∧
          h' = { h₁ with file := left }) ∨
        (r.error = none ∧ h' = { h₁ with file := some p.state })) := by
  unfold Promote at heq
  rw [hvalid] at heq
  dsimp only at heq
  have hfollows := @cutover_follows _ dest _ o p (h.file.getD {}) ⟨h, 0⟩
  -- the commands come first, and the state file is written after all of them
  cases hcut : cutover dest o p (h.file.getD {}) ⟨h, 0⟩ with
  | error e =>
      rw [hcut] at heq hfollows
      obtain ⟨done, c, rest, hscript, hdone, hfail⟩ := hfollows
      cases heq
      exact .inl ⟨done, c, rest, _, hscript, rfl, hdone, hfail⟩
  | ok x =>
      rw [hcut] at heq hfollows
      dsimp only at heq
      refine .inr ⟨x.2.host, hfollows, ?_⟩
      cases hmkdir : o.mkdir with
      | some err =>
          rw [hmkdir] at heq
          cases heq
          exact .inl ⟨err, rfl, rfl, rfl⟩
      | none =>
          rw [hmkdir] at heq
          cases hwrite : o.write with
          | some failure =>
              rw [hwrite] at heq
              cases heq
              exact .inr (.inl ⟨_, _, rfl, rfl, rfl⟩)
          | none =>
              rw [hwrite] at heq
              cases heq
              exact .inr (.inr ⟨rfl, rfl⟩)

/-! ### What the script asks for

Only deletions ask for something on the host. So a promotion needs what its script deletes. -/

theorem runAll_removal_iff {prev next : HAPromotionState} {h h' : Host δ} :
    runAll dest (removal prev next) h = some h' ↔
      (Stale prev next → (prev.vip, prev.interface) ∈ h.addrs) ∧
        h' = if Stale prev next then { h with addrs := h.addrs.erase (prev.vip, prev.interface) }
          else h := by
  unfold removal
  by_cases hstale : Stale prev next
  · rw [if_pos hstale, if_pos hstale, runAll, Command.exec]
    by_cases hmem : (prev.vip, prev.interface) ∈ h.addrs
    · rw [if_pos hmem]
      simp only [Option.bind_some, runAll, Option.some.injEq, hmem, implies_true, true_and]
      exact eq_comm
    · rw [if_neg hmem]
      exact iff_of_false (fun h => by cases h) fun hand => hmem (hand.1 hstale)
  · rw [if_neg hstale, if_neg hstale, runAll]
    simp only [hstale, false_implies, true_and, Option.some.injEq]
    exact eq_comm

theorem runAll_dels_iff {ts : List String} {h h' : Host δ} :
    runAll dest (ts.map .routeDel) h = some h' ↔ (∀ t ∈ ts, (dest t).isSome) ∧
      ∃ table, execAll ((ts.filterMap dest).map .del) h.table = some table ∧
        h' = { h with table } := by
  induction ts generalizing h with
  | nil =>
      simp only [List.map_nil, runAll, Option.some.injEq, List.filterMap_nil, execAll,
        List.not_mem_nil, false_implies, implies_true, true_and, exists_eq_left']
      exact eq_comm
  | cons t ts ih =>
      rw [List.map_cons, runAll, Command.exec, List.forall_mem_cons]
      cases hd : dest t with
      | none => simp
      | some d =>
          rw [List.filterMap_cons_some hd, List.map_cons, execAll, Option.bind_some]
          cases hdel : (RouteCmd.del d).exec h.table with
          | none => simp
          | some table =>
              rw [Option.map_some, Option.bind_some, ih, Option.bind_some]
              simp

theorem runAll_puts_iff {routes : List HAPromotionRoute} {src : String} {h h' : Host δ} :
    runAll dest (routes.map fun route => .routeReplace route src) h = some h' ↔
      (∀ route ∈ routes, (routeOf dest route src).isSome) ∧
        h' = { h with
          table := h.table.insertAll (routes.filterMap fun route => routeOf dest route src) } := by
  induction routes generalizing h with
  | nil =>
      simp only [List.map_nil, runAll, Option.some.injEq, List.not_mem_nil, false_implies,
        implies_true, true_and]
      exact eq_comm
  | cons route routes ih =>
      rw [List.map_cons, runAll, Command.exec, List.forall_mem_cons]
      cases hr : routeOf dest route src with
      | none => simp
      | some r =>
          rw [List.filterMap_cons_some (f := fun route => routeOf dest route src) hr,
            Option.map_some, Option.bind_some, ih]
          simp [RouteTable.insertAll]

/-- The routes of a configuration, as the host should hold them. -/
def routesOf (dest : String → Option δ) (p : HAPromotion) : List (RouteKey δ × Hop) :=
  p.routes.filterMap fun route => routeOf dest route (sourceAddress p)

/-- The destinations that a promotion deletes. -/
def deletions (dest : String → Option δ) (h : Host δ) (p : HAPromotion) : List δ :=
  (staleDests (h.file.getD {}) p.state).filterMap dest

/-- The address that the state file names. -/
def Host.recorded (h : Host δ) : String × String := ((h.file.getD {}).vip, (h.file.getD {}).interface)

/-- The address of a configuration. -/
def HAPromotion.address (p : HAPromotion) : String × String := (prefixString p.vip, p.interface)

/-- **What a promotion needs**: the host has the address that is to go, and to each destination at
least as many routes as are to go, and `ip` can read every destination. -/
structure Needs (dest : String → Option δ) (h : Host δ) (p : HAPromotion) : Prop where
  address : Stale (h.file.getD {}) p.state → h.recorded ∈ h.addrs
  readable : ∀ t ∈ staleDests (h.file.getD {}) p.state, (dest t).isSome
  present : ∀ d, (deletions dest h p).count d ≤ h.table.routesTo d
  routes : ∀ route ∈ p.routes, (routeOf dest route (sourceAddress p)).isSome

/-- **What a promotion leaves**: the configuration's address and routes have come, the recorded
address has gone if it is another one, and of the other routes those of the lowest metrics at
each stale destination. -/
structure Promoted (dest : String → Option δ) (h h' : Host δ) (p : HAPromotion) : Prop where
  file : h'.file = some p.state
  addrs : ∀ a, a ∈ h'.addrs ↔
    a = p.address ∨ a ∈ h.addrs ∧ ¬ (Stale (h.file.getD {}) p.state ∧ a = h.recorded)
  table : ∀ k, h'.table.lookup k =
    ((((routesOf dest p).filter fun r => r.1 = k).getLast?).map Prod.snd).or
      (if rank h.table.keySet k < (deletions dest h p).count k.dest then none
        else h.table.lookup k)

/-- The addresses after the removal of the stale one. -/
def keptAddrs (h : Host δ) (p : HAPromotion) : Finset (String × String) :=
  if Stale (h.file.getD {}) p.state then h.addrs.erase h.recorded else h.addrs

omit [DecidableEq δ] in
theorem mem_keptAddrs {h : Host δ} {p : HAPromotion} {a : String × String} :
    a ∈ keptAddrs h p ↔ a ∈ h.addrs ∧ ¬ (Stale (h.file.getD {}) p.state ∧ a = h.recorded) := by
  unfold keptAddrs
  split
  · next hstale =>
      rw [Finset.mem_erase, and_comm]
      simp [hstale]
  · next hsame => simp [hsame]

/-- **The script**, phase by phase. -/
theorem runAll_script_iff {h h' : Host δ} {p : HAPromotion} :
    runAll dest (script (h.file.getD {}) p) h = some h' ↔
      (Stale (h.file.getD {}) p.state → h.recorded ∈ h.addrs) ∧
      (∀ t ∈ staleDests (h.file.getD {}) p.state, (dest t).isSome) ∧
      (∀ route ∈ p.routes, (routeOf dest route (sourceAddress p)).isSome) ∧
      ∃ table, execAll ((deletions dest h p).map .del) h.table = some table ∧
        h' = ⟨insert p.address (keptAddrs h p), table.insertAll (routesOf dest p), h.file⟩ := by
  have hkept : ∀ h₁ : Host δ, (h₁ = if Stale (h.file.getD {}) p.state then
      { h with addrs := h.addrs.erase ((h.file.getD {}).vip, (h.file.getD {}).interface) } else h) ↔
      h₁ = { h with addrs := keptAddrs h p } := by
    intro h₁
    unfold keptAddrs
    split <;> rfl
  unfold script
  rw [runAll_append, Option.bind_eq_some_iff]
  constructor
  · rintro ⟨h₁, hremoval, hrun⟩
    obtain ⟨haddress, hh₁⟩ := runAll_removal_iff.mp hremoval
    rw [hkept] at hh₁
    subst hh₁
    rw [runAll_append] at hrun
    obtain ⟨h₂, hdels, hrun⟩ := Option.bind_eq_some_iff.mp hrun
    obtain ⟨hreadable, table, htable, rfl⟩ := runAll_dels_iff.mp hdels
    obtain ⟨h₃, hreplace, hputs⟩ := Option.bind_eq_some_iff.mp hrun
    cases hreplace
    obtain ⟨hroutes, rfl⟩ := runAll_puts_iff.mp hputs
    exact ⟨haddress, hreadable, hroutes, table, htable, rfl⟩
  · rintro ⟨haddress, hreadable, hroutes, table, htable, rfl⟩
    refine ⟨{ h with addrs := keptAddrs h p }, runAll_removal_iff.mpr ⟨haddress, ?_⟩, ?_⟩
    · rw [hkept]
    · rw [runAll_append, Option.bind_eq_some_iff]
      refine ⟨⟨keptAddrs h p, table, h.file⟩,
        runAll_dels_iff.mpr ⟨hreadable, table, htable, rfl⟩, ?_⟩
      exact runAll_puts_iff.mpr ⟨hroutes, rfl⟩

theorem runAll_script_isSome_iff {h : Host δ} {p : HAPromotion} :
    (runAll dest (script (h.file.getD {}) p) h).isSome ↔ Needs dest h p := by
  rw [Option.isSome_iff_exists]
  constructor
  · rintro ⟨h', hrun⟩
    obtain ⟨haddress, hreadable, hroutes, table, htable, -⟩ := runAll_script_iff.mp hrun
    exact ⟨haddress, hreadable,
      execAll_dels_isSome_iff.mp (Option.isSome_iff_exists.mpr ⟨table, htable⟩), hroutes⟩
  · intro hneeds
    obtain ⟨table, htable⟩ :=
      Option.isSome_iff_exists.mp (execAll_dels_isSome_iff.mpr hneeds.present)
    exact ⟨_, runAll_script_iff.mpr
      ⟨hneeds.address, hneeds.readable, hneeds.routes, table, htable, rfl⟩⟩

theorem promoted_of_runAll {h h' : Host δ} {p : HAPromotion}
    (hrun : runAll dest (script (h.file.getD {}) p) h = some h') :
    Promoted dest h { h' with file := some p.state } p := by
  obtain ⟨-, -, -, table, htable, rfl⟩ := runAll_script_iff.mp hrun
  refine ⟨rfl, fun a => ?_, fun k => ?_⟩
  · rw [Finset.mem_insert, mem_keptAddrs]
  · rw [lookup_insertAll, lookup_of_dels htable k]

/-- No command and no file operation fails for reasons of its own. -/
structure Calm (o : Outside) : Prop where
  fault : ∀ n, o.fault n = none
  mkdir : o.mkdir = none
  write : o.write = none

/-- **When a promotion succeeds.** Where nothing fails for reasons of its own it succeeds exactly
when the host has what it needs; a route that the state file names may have gone, if there is another
to its destination. Whatever fails, a promotion that succeeds has left the configuration's address
and routes, and of the rest what it did not delete. -/
theorem Promote_ok_iff {o : Outside} {p : HAPromotion} (hvalid : p.Validate = .ok ())
    (h : Host δ) :
    (Calm o → ((Promote dest o p h).1.error = none ↔ Needs dest h p)) ∧
      ((Promote dest o p h).1.error = none → Promoted dest h (Promote dest o p h).2 p) := by
  cases hpromote : Promote dest o p h with
  | mk r h' =>
  dsimp only
  rcases Promote_cases hpromote hvalid with
    ⟨done, c, rest, err, hscript, herror, hdone, hfail⟩ | ⟨h₁, hrun, hcases⟩
  · -- a command failed
    rw [herror]
    refine ⟨fun hcalm => iff_of_false (fun h => by cases h) fun hneeds => ?_, fun h => by cases h⟩
    have hsome := runAll_script_isSome_iff.mpr hneeds
    rw [hscript, runAll_append, hdone, Option.bind_some, runAll, hfail hcalm.fault] at hsome
    cases hsome
  · have hneeds := runAll_script_isSome_iff.mp (Option.isSome_iff_exists.mpr ⟨h₁, hrun⟩)
    rcases hcases with ⟨err, herror, hmkdir, -⟩ | ⟨err, left, herror, hwrite, -⟩ | ⟨herror, hh'⟩
    · rw [herror]
      refine ⟨fun hcalm => ?_, fun h => by cases h⟩
      rw [hcalm.mkdir] at hmkdir
      cases hmkdir
    · rw [herror]
      refine ⟨fun hcalm => ?_, fun h => by cases h⟩
      rw [hcalm.write] at hwrite
      cases hwrite
    · rw [herror, hh']
      exact ⟨fun _ => iff_of_true rfl hneeds, fun _ => promoted_of_runAll hrun⟩

/-! ### A promotion that fails

A promotion that fails after its first deletion leaves a state file that names what is gone. Every
later promotion to another address starts with that deletion, which the host then refuses. -/

/-- The state file names an address that the host does not have. -/
def Stuck (h : Host δ) : Prop := (h.file.getD {}).vip ≠ "" ∧ h.recorded ∉ h.addrs

omit [DecidableEq δ] in
theorem stale_iff {h : Host δ} {p : HAPromotion} :
    Stale (h.file.getD {}) p.state ↔ (h.file.getD {}).vip ≠ "" ∧ p.address ≠ h.recorded := by
  unfold Stale HAPromotion.address Host.recorded HAPromotion.state
  simp only [ne_eq, Prod.mk.injEq, not_and_or, eq_comm]

omit [DecidableEq δ] in
/-- The script of a promotion to another address starts with the removal of the recorded one. -/
theorem script_of_stale {h : Host δ} {p : HAPromotion} (hstale : Stale (h.file.getD {}) p.state) :
    ∃ tail, script (h.file.getD {}) p = .addrDel h.recorded.1 h.recorded.2 :: tail ∧
      ∀ address interface, .addrReplace address interface ∈ tail →
        (address, interface) = p.address := by
  refine ⟨(staleDests (h.file.getD {}) p.state).map .routeDel ++
    (.addrReplace (prefixString p.vip) p.interface ::
      p.routes.map fun route => .routeReplace route (sourceAddress p)),
    by rw [script, removal, if_pos hstale]; rfl, fun address interface hmem => ?_⟩
  rcases List.mem_append.mp hmem with hmem | hmem
  · obtain ⟨d, -, hd⟩ := List.mem_map.mp hmem
    cases hd
  · rcases List.mem_cons.mp hmem with hmem | hmem
    · cases hmem
      rfl
    · obtain ⟨route, -, hroute⟩ := List.mem_map.mp hmem
      cases hroute

/-- Commands that do not add an address. -/
theorem notMem_of_runAll {cs : List Command} {a : String × String} {h h' : Host δ}
    (hcs : ∀ address interface, .addrReplace address interface ∈ cs → (address, interface) ≠ a)
    (hrun : runAll dest cs h = some h') (ha : a ∉ h.addrs) : a ∉ h'.addrs := by
  induction cs generalizing h with
  | nil =>
      cases hrun
      exact ha
  | cons c cs ih =>
      obtain ⟨h₁, hc, hrun⟩ := Option.bind_eq_some_iff.mp hrun
      refine ih (fun address interface hmem => hcs address interface (List.mem_cons_of_mem _ hmem))
        hrun ?_
      cases c with
      | addrDel address interface =>
          unfold Command.exec at hc
          dsimp only at hc
          split at hc
          · cases hc
            exact fun hmem => ha (Finset.mem_of_mem_erase hmem)
          · cases hc
      | addrReplace address interface =>
          cases hc
          have hne := hcs address interface List.mem_cons_self
          exact fun hmem => (Finset.mem_insert.mp hmem).elim (fun heq => hne heq.symm) ha
      | routeDel destination =>
          obtain ⟨d, -, hc⟩ := Option.bind_eq_some_iff.mp hc
          obtain ⟨table, -, rfl⟩ := Option.map_eq_some_iff.mp hc
          exact ha
      | routeReplace route src =>
          obtain ⟨r, -, rfl⟩ := Option.map_eq_some_iff.mp hc
          exact ha
      | announce interface address =>
          cases hc
          exact ha

/-- A call of `Promote`. -/
structure PromoteCall where
  outside : Outside
  config : HAPromotion

/-- One call. -/
def promote (dest : String → Option δ) (call : PromoteCall) (h : Host δ) : Promotion × Host δ :=
  Promote dest call.outside call.config h

/-- **A host that is stuck** refuses the first command of every promotion to another address. -/
theorem Promote_stuck {h : Host δ} (hstuck : Stuck h) {call : PromoteCall}
    (hne : call.config.address ≠ h.recorded) :
    (promote dest call h).1.error ≠ none ∧ (promote dest call h).2 = h := by
  unfold promote
  cases hvalid : call.config.Validate with
  | error err =>
      unfold Promote
      rw [hvalid]
      exact ⟨Option.some_ne_none _, rfl⟩
  | ok u =>
      obtain ⟨tail, hscript, -⟩ := script_of_stale (stale_iff.mpr ⟨hstuck.1, hne⟩)
      have hrefused : Command.exec dest h (.addrDel h.recorded.1 h.recorded.2) = none :=
        if_neg hstuck.2
      cases hpromote : Promote dest call.outside call.config h with
      | mk r h' =>
      rcases Promote_cases hpromote hvalid with
        ⟨done, c, rest, err, hsplit, herror, hdone, -⟩ | ⟨h₁, hrun, -⟩
      · cases done with
        | nil =>
            cases hdone
            exact ⟨by rw [herror]; exact Option.some_ne_none _, rfl⟩
        | cons c' done =>
            rw [hscript] at hsplit
            obtain ⟨rfl, -⟩ := List.cons.inj hsplit
            rw [runAll, hrefused] at hdone
            cases hdone
      · rw [hscript, runAll, hrefused] at hrun
        cases hrun

/-- A promotion to another address that fails, and has done something, has taken the recorded address
away. -/
theorem recorded_gone {o : Outside} {p : HAPromotion} {h h' : Host δ} {r : Promotion}
    (hstale : Stale (h.file.getD {}) p.state) (hpromote : Promote dest o p h = (r, h'))
    (herror : r.error ≠ none) (hchanged : h' ≠ h) : h.recorded ∉ h'.addrs := by
  obtain ⟨tail, hscript, htail⟩ := script_of_stale hstale
  have hne := (stale_iff.mp hstale).2
  -- once the removal is done, nothing brings the address back
  have hafter : ∀ (cs : List Command) (h₁ : Host δ), cs <+: tail →
      runAll dest (.addrDel h.recorded.1 h.recorded.2 :: cs) h = some h₁ →
      h.recorded ∉ h₁.addrs := by
    intro cs h₁ hpre hrun
    obtain ⟨h₂, hdel, hrun⟩ := Option.bind_eq_some_iff.mp hrun
    refine notMem_of_runAll (fun address interface hmem heq => hne ?_) hrun ?_
    · rw [← htail address interface (hpre.subset hmem)]
      exact heq
    · unfold Command.exec at hdel
      dsimp only at hdel
      split at hdel
      · cases hdel
        exact Finset.notMem_erase _ _
      · cases hdel
  cases hvalid : p.Validate with
  | error err =>
      unfold Promote at hpromote
      rw [hvalid] at hpromote
      cases hpromote
      exact absurd rfl hchanged
  | ok u =>
      rcases Promote_cases hpromote hvalid with
        ⟨done, c, rest, err, hsplit, -, hdone, -⟩ | ⟨h₁, hrun, hcases⟩
      · cases done with
        | nil =>
            cases hdone
            exact absurd rfl hchanged
        | cons c' done =>
            rw [hscript] at hsplit
            obtain ⟨rfl, hrest⟩ := List.cons.inj hsplit
            exact hafter done h' ⟨c :: rest, hrest.symm⟩ hdone
      · rw [hscript] at hrun
        have hh₁ := hafter tail h₁ List.prefix_rfl hrun
        rcases hcases with ⟨err, -, -, rfl⟩ | ⟨err, left, -, -, rfl⟩ | ⟨hnone, -⟩
        · exact hh₁
        · exact hh₁
        · exact absurd hnone herror

/-- From a host that is stuck, no promotion to another address gets any further. -/
theorem stuck_run {h : Host δ} (hstuck : Stuck h) {calls : List PromoteCall}
    (hcalls : ∀ call ∈ calls, call.config.address ≠ h.recorded) :
    ∀ ev ∈ history (promote dest) h calls, ev.output.error ≠ none ∧ ev.after = h := by
  have hstay : ∀ ev ∈ history (promote dest) h calls, ev.before = h ∧ ev.after = h :=
    history_invariant (I := fun s => s = h) (C := fun call => call.config.address ≠ h.recorded)
      (fun call s hne hs => by rw [hs]; exact (Promote_stuck hstuck hne).2) hcalls rfl
  intro ev hev
  obtain ⟨hbefore, hafter⟩ := hstay ev hev
  obtain ⟨hmem, hexec⟩ := history_event hev
  have hfails := (@Promote_stuck _ dest _ _ hstuck _ (hcalls _ hmem)).1
  rw [hbefore] at hexec
  rw [hexec] at hfails
  exact ⟨hfails, hafter⟩

/-- **A failed promotion is final.** A promotion to another address than the recorded one that fails,
with the state file as it was, has either changed nothing at all, or there is no way on: whatever
promotions follow to addresses other than the recorded one, and whatever does not go wrong any
more, every one of them fails and changes nothing. -/
theorem failed_promotion_final {o : Outside} {p : HAPromotion} {h : Host δ}
    (hstale : Stale (h.file.getD {}) p.state) (herror : (Promote dest o p h).1.error ≠ none)
    (hfile : (Promote dest o p h).2.file = h.file) :
    (Promote dest o p h).2 = h ∨ ∀ calls : List PromoteCall,
      (∀ call ∈ calls, call.config.address ≠ h.recorded) →
      ∀ ev ∈ history (promote dest) (Promote dest o p h).2 calls,
        ev.output.error ≠ none ∧ ev.after = (Promote dest o p h).2 := by
  rcases eq_or_ne (Promote dest o p h).2 h with hsame | hchanged
  · exact .inl hsame
  · have hrecorded : (Promote dest o p h).2.recorded = h.recorded := by
      unfold Host.recorded
      rw [hfile]
    have hstuck : Stuck (Promote dest o p h).2 := by
      unfold Stuck
      rw [hfile, hrecorded]
      exact ⟨(stale_iff.mp hstale).1, recorded_gone hstale Prod.mk.eta.symm herror hchanged⟩
    refine .inr fun calls hcalls => stuck_run hstuck fun call hcall => ?_
    rw [hrecorded]
    exact hcalls call hcall

end

/-! ### A cutover that is interrupted -/

/-- A promotion to one of two addresses. -/
def toAddress (last : BitVec 32) : HAPromotion where
  stateDir := "ha"
  interface := "eth0"
  vip := some ⟨.v4 (0xc0000200 + last), 24, (by decide : 24 ≤ 32), rfl⟩

/-- A host that was promoted to the first one. -/
def firstHost : Host String where
  addrs := {(toAddress 1).address}
  table := ∅
  file := some (toAddress 1).state

/-- The second command fails. -/
def busy : Outside := { fault := fun n => if n = 1 then some "resource busy" else none }

theorem Promote_ok_iff_first :
    (Promote some {} (toAddress 2) firstHost).1.error = none ↔
      Needs some firstHost (toAddress 2) :=
  (Promote_ok_iff (by decide +kernel) firstHost).1 ⟨fun _ => rfl, rfl, rfl⟩

theorem busy_facts :
    Stale (firstHost.file.getD {}) (toAddress 2).state ∧
      (Promote some busy (toAddress 2) firstHost).1.error ≠ none ∧
      (Promote some busy (toAddress 2) firstHost).2.file = firstHost.file ∧
      (Promote some busy (toAddress 2) firstHost).2.addrs ≠ firstHost.addrs ∧
      (toAddress 2).address ≠ firstHost.recorded := by
  decide +kernel

/-- After that, the same promotion fails however calm it is. -/
theorem failed_promotion_final_busy :
    (Promote some {} (toAddress 2) (Promote some busy (toAddress 2) firstHost).2).1.error ≠ none := by
  obtain ⟨hstale, herror, hfile, hchanged, hne⟩ := busy_facts
  rcases failed_promotion_final hstale herror hfile with hsame | hfinal
  · exact absurd (congrArg Host.addrs hsame) hchanged
  · exact (hfinal [⟨{}, toAddress 2⟩] (by simpa using hne) _ List.mem_cons_self).1

end Phragma.Engines.HA
