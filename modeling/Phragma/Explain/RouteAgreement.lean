import Mathlib.Data.Prod.Lex
import Phragma.Go.PrefixOrder
import Phragma.Explain.Agreement
import Phragma.Lib.RouteTable

/-!
# Phragma.Explain.RouteAgreement

**Is the route that Explain reports the route the kernel uses?**

`matchRoute` and `routeSimulationDecision` scan the policy's static routes for the longest
prefix that contains the destination and, among those, the lowest metric. Of several such
routes they keep the first of the list (`matchRoute_eq`: they compute `List.argmin`).

The kernel is given the rendered lines in order, each a `route replace`. Its table has one
route for a masked destination and a metric, so of several lines for one such key the last
one stays (`Lib.lookup_insertAll`); a lookup takes the longest prefix, then the lowest
metric.

So both find a route or neither does, with the same prefix and metric, and they differ
exactly in which of the routes that share these they name: `route_agrees_iff`. Nothing in
the validation of a policy forbids such routes.
-/

namespace Phragma.Explain

open Lib Go Policy Compiler Nft

/-! ### What is explained

Two functions of the source look for the route of an address. They are written differently and
choose alike. -/

/-- `RouteSimulationDecision`: the route that is found for a destination, as it is shown. -/
structure RouteSimulationDecision where
  matched : Bool := false
  source : String := ""
  pfx : String := ""
  nextHop : String := ""
  interface : String := ""
  metric : Nat := 0
  reason : String := ""
  deriving DecidableEq, Repr

/-- The choice of `routeSimulationDecision`: a route and its destination, parsed. -/
def simulatedRoute (routes : List StaticRoute) (dst : Addr) : Option (StaticRoute × Prefix) :=
  routes.foldl (fun best route =>
    match parsePrefix route.destination with
    | none => best
    | some pfx =>
        if !pfx.contains dst then best
        else
          match best with
          | none => some (route, pfx)
          | some b =>
              if b.2.bits < pfx.bits ∨ (pfx.bits = b.2.bits ∧ route.metric < b.1.metric) then
                some (route, pfx)
              else best) none

/-- `routeSimulationDecision`: the best static route, or that there is none. -/
def routeSimulationDecision (p : Phragma.Policy) (dst : Addr) : RouteSimulationDecision :=
  match simulatedRoute p.staticRoutes dst with
  | none =>
      { source := "unresolved"
        reason := "no OpenNGFW static route matched destination " ++ dst.string }
  | some (route, pfx) =>
      { matched := true
        source := "static"
        pfx := pfx.string
        nextHop := route.via
        interface := route.interface
        metric := route.metric
        reason := "static route " ++ pfx.string ++ " selected by longest-prefix match" }

/-! ### What the kernel does

The engine hands over one line for each route, and the kernel keeps one route for each network and
metric. -/

/-- Where a route leads. -/
structure NextHop where
  via : Option Addr
  dev : String
  deriving DecidableEq, Repr

/-- The key a rendered line replaces: masked destination and metric. -/
def routeKey (r : RouteIR) : RouteKey Prefix := ⟨r.destination.masked, r.metric⟩

/-- Where a rendered line leads. -/
def routeHop (r : RouteIR) : NextHop := ⟨r.via, r.interface⟩

/-- The table after the rendered lines, performed in order from an empty one. -/
def kernelTable (ir : IR) : RouteTable Prefix NextHop :=
  RouteTable.insertAll (ir.routes.map fun r => (routeKey r, routeHop r)) ∅

/-- The order in which routes are preferred: the longer prefix, then the lower metric. -/
def preference (bits metric : Nat) : ℕᵒᵈ ×ₗ ℕ := toLex (OrderDual.toDual bits, metric)

/-- The kernel's lookup. -/
def kernelRoute (K : RouteTable Prefix NextHop) (dst : Addr) :
    Option (RouteKey Prefix × NextHop) :=
  ((K.keys.filter fun k => covers k.dest dst).argmin fun k =>
    preference k.dest.bits k.metric).bind fun k => (K.lookup k).map fun hop => (k, hop)

/-! ### What wins

Both sides prefer routes by one order, so they only differ in which of several equal ones they
take. -/

/-- The order, spelled out. -/
theorem preference_lt {b b' m m' : Nat} :
    preference b m < preference b' m' ↔ b' < b ∨ (b = b' ∧ m < m') := by
  rw [preference, preference, Prod.Lex.toLex_lt_toLex, OrderDual.toDual_lt_toDual,
    OrderDual.toDual_inj]

/-- Routes are equally good exactly when length and metric are. -/
theorem preference_inj {b b' m m' : Nat} : preference b m = preference b' m' ↔ b = b' ∧ m = m' := by
  rw [preference, preference, toLex_inj, Prod.mk.injEq, OrderDual.toDual_inj]

/-- How a route is preferred. -/
def routeOrder (r : RouteIR) : ℕᵒᵈ ×ₗ ℕ := preference r.destination.bits r.metric

/-- The routes that **win** for a destination: those with the longest prefix that contains
it and, among these, the lowest metric; in the order of the list. -/
def winners (routes : List RouteIR) (dst : Addr) : List RouteIR :=
  bests routeOrder (routes.filter fun r => r.destination.contains dst)

/-- The next hop of a policy's route. -/
def hopAddr (via : String) : Option Addr := if via = "" then none else parseAddr via

/-- What the compiler makes of an indexed route. -/
def routeIR (info : RouteInfo) : RouteIR :=
  ⟨info.pfx, hopAddr info.route.via, info.route.interface, info.route.metric⟩

/-- **`matchRoute` finds the first winner.** -/
theorem matchRoute_eq (idx : Index) (dst : Addr) :
    (matchRoute idx dst).map routeIR = (winners (idx.routes.map routeIR) dst).head? := by
  have hfold : matchRoute idx dst = (idx.routes.filter fun r => r.pfx.contains dst).argmin
      fun r => routeOrder (routeIR r) := by
    rw [List.argmin, List.foldl_filter, matchRoute]
    congr 1
    funext best r
    cases r.pfx.contains dst with
    | false => rfl
    | true =>
        cases best with
        | none => rfl
        | some b =>
            simp only [Bool.not_true, Bool.false_eq_true, if_false, if_true, List.argAux]
            have hlt : routeOrder (routeIR r) < routeOrder (routeIR b) ↔
                b.pfx.bits < r.pfx.bits ∨ (r.pfx.bits = b.pfx.bits ∧
                  r.route.metric < b.route.metric) := preference_lt
            by_cases h : routeOrder (routeIR r) < routeOrder (routeIR b)
            · rw [if_pos h, if_pos (hlt.mp h)]
            · rw [if_neg h, if_neg (mt hlt.mpr h)]
  rw [hfold, winners, ← argmin_eq_head?, List.filter_map, argmin_map]
  rfl

/-- The simulation chooses as `matchRoute` does. -/
theorem simulatedRoute_eq {routes : List StaticRoute} {infos : List RouteInfo}
    (h : List.Forall₂ (fun sr info => info.route = sr ∧ parsePrefix sr.destination = some info.pfx)
      routes infos) {p : Phragma.Policy} {idx : Index} (hidx : idx.routes = infos)
    (hp : p.staticRoutes = routes) (dst : Addr) :
    simulatedRoute p.staticRoutes dst =
      (matchRoute idx dst).map fun info => (info.route, info.pfx) := by
  rw [simulatedRoute, matchRoute, hp, hidx]
  clear hidx hp
  -- The loops agree from any pair of bests that belong together.
  change List.foldl _ ((none : Option RouteInfo).map fun info => (info.route, info.pfx)) routes =
    (List.foldl _ none infos).map _
  generalize (none : Option RouteInfo) = best
  induction h generalizing best with
  | nil => rfl
  | @cons sr info routes infos hsr _ ih =>
      obtain ⟨rfl, hparse⟩ := hsr
      rw [List.foldl_cons, List.foldl_cons, ← ih]
      congr 1
      simp only [hparse]
      cases info.pfx.contains dst with
      | false => rfl
      | true =>
          cases best with
          | none => rfl
          | some b =>
              simp only [Bool.not_true, Bool.false_eq_true, if_false, Option.map_some]
              split <;> rfl

/-! ### The kernel's route

Routes that win have one network and one metric, so they are lines for one key. Of these the last
one stays. -/

/-- A masked prefix covers what the prefix does. -/
theorem covers_masked (p : Prefix) (a : Addr) : covers p.masked a = covers p a := by
  obtain ⟨addr, bits, hbits, hzone⟩ := p
  cases addr with
  | v4 x =>
      cases a with
      | v4 y => simp only [Prefix.masked, covers, Prefix.maskedEq, BitVec.and_assoc, BitVec.and_self]
      | v6 y z => rfl
  | v6 x z =>
      cases a with
      | v4 y => rfl
      | v6 y z' =>
          simp only [Prefix.masked, covers, Prefix.maskedEq, BitVec.and_assoc, BitVec.and_self]

/-- Prefixes of one length that cover one address are the same network. -/
theorem masked_eq_of_covers {p q : Prefix} {a : Addr} (hp : covers p a = true)
    (hq : covers q a = true) (hbits : p.bits = q.bits) : p.masked = q.masked := by
  obtain ⟨pa, pb, hpb, hpz⟩ := p
  obtain ⟨qa, qb, hqb, hqz⟩ := q
  simp only at hbits
  subst hbits
  cases a with
  | v4 y =>
      cases pa with
      | v6 x z => cases hp
      | v4 x =>
          cases qa with
          | v6 x' z => cases hq
          | v4 x' =>
              simp only [covers, Prefix.maskedEq, beq_iff_eq] at hp hq
              simp only [Prefix.masked, ← hp, ← hq]
  | v6 y zy =>
      cases pa with
      | v4 x => cases hp
      | v6 x z =>
          cases qa with
          | v4 x' => cases hq
          | v6 x' z' =>
              simp only [covers, Prefix.maskedEq, beq_iff_eq] at hp hq
              simp only [Addr.zone] at hpz hqz
              subst hpz hqz
              simp only [Prefix.masked, ← hp, ← hq]

section Kernel

variable {routes : List RouteIR} {dst : Addr}

/-- A route wins if it contains the address and none that does is better. -/
theorem mem_winners {r : RouteIR} : r ∈ winners routes dst ↔
    (r ∈ routes ∧ r.destination.contains dst = true) ∧
      ∀ r' ∈ routes, r'.destination.contains dst = true → routeOrder r ≤ routeOrder r' := by
  simp only [winners, mem_bests, List.mem_filter, and_imp]

/-- Winners have one key. -/
theorem routeKey_winner (hdst : dst.zone = "") {r r' : RouteIR} (h : r ∈ winners routes dst)
    (h' : r' ∈ winners routes dst) : routeKey r = routeKey r' := by
  obtain ⟨⟨hr, hc⟩, hmin⟩ := mem_winners.mp h
  obtain ⟨⟨hr', hc'⟩, hmin'⟩ := mem_winners.mp h'
  have heq : routeOrder r = routeOrder r' := le_antisymm (hmin r' hr' hc') (hmin' r hr hc)
  obtain ⟨hbits, hmetric⟩ := preference_inj.mp heq
  rw [contains_eq_covers _ hdst] at hc hc'
  rw [routeKey, routeKey, masked_eq_of_covers hc hc' hbits, hmetric]

/-- The routes under a winner's key are the winners. -/
theorem filter_routeKey (hdst : dst.zone = "") {w : RouteIR} (hw : w ∈ winners routes dst) :
    routes.filter (fun r => routeKey r = routeKey w) = winners routes dst := by
  obtain ⟨⟨-, hc⟩, hmin⟩ := mem_winners.mp hw
  rw [winners, bests, List.filter_filter]
  refine List.filter_congr fun r hr => ?_
  rw [Bool.eq_iff_iff, decide_eq_true_eq, Bool.and_eq_true, List.all_eq_true]
  constructor
  · intro hkey
    have hdest : r.destination.masked = w.destination.masked := congrArg RouteKey.dest hkey
    have hmetric : r.metric = w.metric := congrArg RouteKey.metric hkey
    have hbits : r.destination.bits = w.destination.bits := by
      rw [← Prefix.masked_bits, hdest, Prefix.masked_bits]
    have hcr : r.destination.contains dst = true := by
      rw [contains_eq_covers _ hdst, ← covers_masked, hdest, covers_masked,
        ← contains_eq_covers _ hdst]
      exact hc
    refine ⟨?_, hcr⟩
    intro r' hr'
    obtain ⟨hr', hc'⟩ := List.mem_filter.mp hr'
    have horder : routeOrder r = routeOrder w := by rw [routeOrder, routeOrder, hbits, hmetric]
    rw [horder]
    exact decide_eq_true (hmin r' hr' hc')
  · rintro ⟨hall, hcr⟩
    refine routeKey_winner hdst (mem_winners.mpr ⟨⟨hr, hcr⟩, ?_⟩) hw
    intro r' hr' hc'
    exact of_decide_eq_true (hall r' (List.mem_filter.mpr ⟨hr', hc'⟩))

/-- **The kernel uses the last winner.** -/
theorem kernelRoute_eq (hdst : dst.zone = "") :
    kernelRoute (RouteTable.insertAll (routes.map fun r => (routeKey r, routeHop r)) ∅) dst =
      (winners routes dst).getLast?.map fun r => (routeKey r, routeHop r) := by
  generalize hK : RouteTable.insertAll (routes.map fun r => (routeKey r, routeHop r)) ∅ = K
  have hkeys : ∀ k, k ∈ K.keys ↔ ∃ r ∈ routes, routeKey r = k := by
    intro k
    rw [← AList.mem_keys, ← hK, mem_insertAll]
    simp only [List.map_map, List.mem_map, Function.comp_apply, AList.notMem_empty, or_false]
  have hlookup : ∀ k, K.lookup k =
      (routes.filter fun r => routeKey r = k).getLast?.map routeHop := by
    intro k
    rw [← hK, lookup_insertAll, List.filter_map, List.getLast?_map, Option.map_map,
      AList.lookup_empty, Option.or_none]
    rfl
  -- what the keys that cover the destination are
  have hcover : ∀ k, k ∈ K.keys.filter (fun k => covers k.dest dst) ↔
      ∃ r ∈ routes, r.destination.contains dst = true ∧ routeKey r = k := by
    intro k
    rw [List.mem_filter, hkeys]
    constructor
    · rintro ⟨⟨r, hr, rfl⟩, hc⟩
      rw [routeKey, covers_masked, ← contains_eq_covers _ hdst] at hc
      exact ⟨r, hr, hc, rfl⟩
    · rintro ⟨r, hr, hc, rfl⟩
      rw [contains_eq_covers _ hdst, ← covers_masked] at hc
      exact ⟨⟨r, hr, rfl⟩, hc⟩
  have horder : ∀ r : RouteIR, preference (routeKey r).dest.bits (routeKey r).metric =
      routeOrder r := by
    intro r
    rw [routeKey, Prefix.masked_bits]
    rfl
  unfold kernelRoute
  cases hargmin : (K.keys.filter fun k => covers k.dest dst).argmin
      fun k => preference k.dest.bits k.metric with
  | none =>
      have hnone : winners routes dst = [] := by
        rw [List.eq_nil_iff_forall_not_mem]
        intro r hr
        obtain ⟨⟨hr, hc⟩, -⟩ := mem_winners.mp hr
        have hmem := (hcover (routeKey r)).mpr ⟨r, hr, hc, rfl⟩
        rw [List.argmin_eq_none.mp hargmin] at hmem
        cases hmem
      rw [hnone]
      rfl
  | some k =>
      -- the route of the key is a winner, so the routes of the key are the winners
      obtain ⟨w, hw, hc, rfl⟩ := (hcover k).mp (List.argmin_mem hargmin)
      have hwin : w ∈ winners routes dst := by
        refine mem_winners.mpr ⟨⟨hw, hc⟩, fun r hr hcr => ?_⟩
        have hle := List.le_of_mem_argmin ((hcover (routeKey r)).mpr ⟨r, hr, hcr, rfl⟩) hargmin
        rwa [horder, horder] at hle
      rw [Option.bind_some, hlookup, filter_routeKey hdst hwin, Option.map_map]
      cases hlast : (winners routes dst).getLast? with
      | none => rfl
      | some l =>
          simp only [Option.map_some, Function.comp_apply]
          rw [routeKey_winner hdst hwin (List.mem_of_getLast? hlast)]

end Kernel

/-! ### Agreement

The first winner and the last one lead the same way, or the two sides differ. -/

/-- What an explained route says, in the kernel's terms. -/
def routeEntry (info : RouteInfo) : RouteKey Prefix × NextHop :=
  (routeKey (routeIR info), routeHop (routeIR info))

/-- A simulated decision says what the kernel does: it is matched when the kernel has a
route, with the prefix, metric, next hop and interface of it. -/
structure DecisionOf (decision : RouteSimulationDecision)
    (route : Option (RouteKey Prefix × NextHop)) : Prop where
  matched : decision.matched = route.isSome
  same : ∀ key hop, route = some (key, hop) →
    (∃ pfx : Prefix, decision.pfx = pfx.string ∧ pfx.masked = key.dest) ∧
      decision.metric = key.metric ∧ hopAddr decision.nextHop = hop.via ∧
      decision.interface = hop.dev

/-- **Explain and the kernel agree** about a destination: `matchRoute` and
`routeSimulationDecision` find a route exactly when the kernel has one, and the same. -/
def RouteAgrees (p : Phragma.Policy) (idx : Index) (ir : IR) (dst : Addr) : Prop :=
  (matchRoute idx dst).map routeEntry = kernelRoute (kernelTable ir) dst ∧
    DecisionOf (routeSimulationDecision p dst) (kernelRoute (kernelTable ir) dst)

/-- The first and the last of the routes that win lead the same way. -/
def EndsAgree (routes : List RouteIR) (dst : Addr) : Prop :=
  (winners routes dst).head?.map routeHop = (winners routes dst).getLast?.map routeHop

instance (routes : List RouteIR) (dst : Addr) : Decidable (EndsAgree routes dst) :=
  inferInstanceAs (Decidable (_ = _))

/-- A route that compiles is indexed, with the parts the compiler gives it. -/
theorem indexRoute_of_compileRoute {sr : StaticRoute} {rir : RouteIR} (i : Nat)
    (h : compileRoute sr = .ok rir) : ∃ info, indexRoute (sr, i) = .ok info ∧
      routeIR info = rir ∧ info.route = sr ∧ parsePrefix sr.destination = some info.pfx := by
  unfold compileRoute at h
  obtain ⟨pfx, hpfx, h⟩ := bind_ok.mp h
  cases hparse : parsePrefix sr.destination with
  | none =>
      rw [hparse] at hpfx
      cases hpfx
  | some pfx' =>
      rw [hparse] at hpfx
      cases hpfx
      refine ⟨⟨sr, pfx, i⟩, ?_, ?_, rfl, rfl⟩
      · simp only [indexRoute, hparse]
        rw [if_neg]
        rintro ⟨hne, hnone⟩
        rw [Option.isNone_iff_eq_none] at hnone
        simp only [if_neg hne, hnone] at h
        cases h
      · unfold routeIR hopAddr
        by_cases hempty : sr.via = ""
        · simp only [if_pos hempty] at h ⊢
          cases h
          rfl
        · simp only [if_neg hempty] at h ⊢
          cases ha : parseAddr sr.via with
          | none =>
              rw [ha] at h
              cases h
          | some a =>
              rw [ha] at h
              cases h
              rfl

/-- The index of an accepted policy has its routes, as the compiler has them. -/
theorem index_routes {H : IdentityHash} {p : Phragma.Policy} {ir : IR}
    (hcompile : Compile H p = .ok ir) : ∃ idx, newIndex p = .ok idx ∧
      ir.routes = idx.routes.map routeIR ∧
      List.Forall₂ (fun sr info => info.route = sr ∧ parsePrefix sr.destination = some info.pfx)
        p.staticRoutes idx.routes := by
  obtain ⟨hvalid, c, hC⟩ := Compile_ok hcompile
  have haddresses : ∀ a ∈ p.addresses, (parsePrefix a.cidr).isSome :=
    (accepted_of_Validate hvalid).address_cidr
  have hroutes : List.Forall₂ (fun sr rir => compileRoute sr = .ok rir) p.staticRoutes ir.routes :=
    hC.routes
  have key : ∀ {srs : List StaticRoute} {irs : List RouteIR} (k : Nat),
      List.Forall₂ (fun sr rir => compileRoute sr = .ok rir) srs irs →
      ∃ infos, List.Forall₂ (fun x info => indexRoute x = .ok info) (srs.zipIdx k) infos ∧
        irs = infos.map routeIR ∧ List.Forall₂ (fun sr info => info.route = sr ∧
          parsePrefix sr.destination = some info.pfx) srs infos := by
    intro srs irs k h
    induction h generalizing k with
    | nil => exact ⟨[], .nil, rfl, .nil⟩
    | cons hr _ ih =>
        obtain ⟨infos, hinfos, hirs, hrel⟩ := ih (k + 1)
        obtain ⟨info, hinfo, hir, hroute, hparse⟩ := indexRoute_of_compileRoute k hr
        refine ⟨info :: infos, .cons hinfo hinfos, ?_, .cons ⟨hroute, hparse⟩ hrel⟩
        rw [List.map_cons, hir, hirs]
  obtain ⟨infos, hinfos, hirs, hrel⟩ := key 0 hroutes
  obtain ⟨addrs, haddrs⟩ : ∃ addrs, ∀ err, addressIndex err [] p.addresses = .ok addrs :=
    ⟨_, fun err => addressIndex_eq haddresses⟩
  refine ⟨⟨p, addrs, tableOf Service.name id p.services, tableOf Application.name id p.applications,
    infos⟩, ?_, hirs, hrel⟩
  unfold newIndex
  rw [haddrs, mapM_ok.mpr hinfos]
  rfl

/-- **When Explain names the kernel's route.** For every policy that compiles and every
destination of a packet, the policy can be explained, and the explained route is the
kernel's if and only if, of the routes with the longest prefix that contains the
destination and the lowest metric among these, the first and the last lead the same way. -/
theorem route_agrees_iff {H : IdentityHash} {p : Phragma.Policy} {ir : IR}
    (hcompile : Compile H p = .ok ir) : ∃ idx, newIndex p = .ok idx ∧
      ∀ pkt : Packet, RouteAgrees p idx ir pkt.dst ↔ EndsAgree ir.routes pkt.dst := by
  obtain ⟨idx, hidx, hroutes, hrel⟩ := index_routes hcompile
  refine ⟨idx, hidx, fun pkt => ?_⟩
  have hexplain := matchRoute_eq idx pkt.dst
  rw [← hroutes] at hexplain
  have hkernel : kernelRoute (kernelTable ir) pkt.dst = _ :=
    kernelRoute_eq pkt.dst_zone
  have hentry : (matchRoute idx pkt.dst).map routeEntry =
      (winners ir.routes pkt.dst).head?.map fun r => (routeKey r, routeHop r) := by
    rw [← hexplain, Option.map_map]
    rfl
  -- both ends of the list of winners have one key
  have hends : (matchRoute idx pkt.dst).map routeEntry = kernelRoute (kernelTable ir) pkt.dst ↔
      EndsAgree ir.routes pkt.dst := by
    rw [hentry, hkernel, EndsAgree]
    cases hw : winners ir.routes pkt.dst with
    | nil => simp
    | cons w ws =>
        obtain ⟨l, hl⟩ : ∃ l, (w :: ws).getLast? = some l := by simp [List.getLast?_cons]
        have hkey : routeKey w = routeKey l := by
          refine routeKey_winner pkt.dst_zone (?_ : w ∈ winners ir.routes pkt.dst) ?_
          · exact hw ▸ List.mem_cons_self
          · exact hw ▸ List.mem_of_getLast? hl
        simp only [hl, List.head?_cons, Option.map_some, Option.some.injEq, Prod.mk.injEq, hkey,
          true_and]
  refine ⟨fun h => hends.mp h.1, fun h => ⟨hends.mpr h, ?_⟩⟩
  rw [← hends.mpr h, routeSimulationDecision, simulatedRoute_eq hrel rfl rfl]
  cases matchRoute idx pkt.dst with
  | none => exact ⟨rfl, fun key hop hnone => by cases hnone⟩
  | some info =>
      refine ⟨rfl, fun key hop hsome => ?_⟩
      cases hsome
      exact ⟨⟨info.pfx, rfl, rfl⟩, rfl, rfl, rfl⟩

/-- Two routes for one network and metric: the gateway was meant to be replaced, and a new
route was added instead. The destination of the second is not masked. -/
def twoGateways : Phragma.Policy where
  staticRoutes := [{ destination := "10.0.0.0/8", via := "192.0.2.1" },
    { destination := "10.1.2.3/8", via := "192.0.2.2" }]

/-- A packet to that network. -/
def toTen : Packet :=
  { iif := "eth0", oif := "eth1", header := .ip 0xc0000201 0x0a000001, l4 := .tcp, dport := 443,
    ct := .new, syn := true }

/-- One route, and a more special one. -/
def plainRoutes : Phragma.Policy where
  staticRoutes := [{ destination := "0.0.0.0/0", via := "192.0.2.1" },
    { destination := "10.0.0.0/8", interface := "eth1", metric := 20 }]

theorem route_agrees_plainRoutes : ∃ ir idx, Compile .zero plainRoutes = .ok ir ∧
    newIndex plainRoutes = .ok idx ∧ RouteAgrees plainRoutes idx ir toTen.dst := by
  have hcompile : ∃ ir, Compile .zero plainRoutes = .ok ir ∧ EndsAgree ir.routes toTen.dst :=
    ⟨_, rfl, by decide +kernel⟩
  obtain ⟨ir, hir, hends⟩ := hcompile
  obtain ⟨idx, hidx, hiff⟩ := route_agrees_iff hir
  exact ⟨ir, idx, hir, hidx, (hiff toTen).mpr hends⟩

/-- The policy is accepted; Explain names the first gateway, the kernel uses the second. -/
theorem twoGateways_disagree : Validate twoGateways = [] ∧
    ∃ ir idx, Compile .zero twoGateways = .ok ir ∧ newIndex twoGateways = .ok idx ∧
      ((matchRoute idx toTen.dst).map fun info => (routeEntry info).2) =
        some ⟨some (.v4 0xc0000201), ""⟩ ∧
      ((kernelRoute (kernelTable ir) toTen.dst).map Prod.snd) =
        some ⟨some (.v4 0xc0000202), ""⟩ ∧
      ¬ RouteAgrees twoGateways idx ir toTen.dst := by
  have hrun : ∃ ir idx, Compile .zero twoGateways = .ok ir ∧ newIndex twoGateways = .ok idx ∧
      ((matchRoute idx toTen.dst).map fun info => (routeEntry info).2) =
        some ⟨some (.v4 0xc0000201), ""⟩ ∧
      ((kernelRoute (kernelTable ir) toTen.dst).map Prod.snd) =
        some ⟨some (.v4 0xc0000202), ""⟩ :=
    ⟨_, _, rfl, rfl, by decide +kernel, by decide +kernel⟩
  obtain ⟨ir, idx, hir, hidx, hexplain, hkernel⟩ := hrun
  refine ⟨by decide +kernel, ir, idx, hir, hidx, hexplain, hkernel, fun hagree => ?_⟩
  have h := congrArg (Option.map Prod.snd) hagree.1
  rw [Option.map_map, hkernel] at h
  rw [show (matchRoute idx toTen.dst).map (Prod.snd ∘ routeEntry) = _ from hexplain] at h
  exact absurd h (by decide)

end Phragma.Explain
