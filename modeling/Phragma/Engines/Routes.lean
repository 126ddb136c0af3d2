import Phragma.Go.Scan
import Phragma.Lib.RouteTable
import Phragma.Lib.Machine
import Phragma.Engines.Wireguard

/-!
# Phragma.Engines.Routes

The engine of static routes (`internal/engines/routes.go`) on the routing table of the kernel.

`Apply` hands `ip -batch` the script of the policy and, behind it, a `route del` for every
destination of the last script that the new one does not name. The last script is in the
state file, which is written when the batch has succeeded.

The kernel tells routes apart by destination and metric; the engine compares destinations as
texts, and `route del` takes the lowest metric. So the table follows from one policy to the next
exactly when the new policy leaves out as many destinations, each counted as often as it was
written, as routes are dropped, and a dropped route lies below whatever else there is to its
destination (`FollowsSafely`): `routes_converge_iff`.

The error of `ReadFile` is ignored: what could be read of the state file counts as the last script.
-/

namespace Phragma.Engines.Routes

open Lib Go Policy Compiler Renderers

/-! ### What `ip` makes of a statement -/

/-- A next hop, as it is written. -/
structure Hop where
  via : Option String := none
  dev : Option String := none
  deriving DecidableEq, Repr

/-- The options of a `route` statement; the last of a kind counts. -/
def readOptions : Hop → Nat → List String → Option (Hop × Nat)
  | hop, metric, [] => some (hop, metric)
  | _, _, [_] => none
  | hop, metric, key :: value :: rest =>
      if key = "via" then readOptions { hop with via := some value } metric rest
      else if key = "dev" then readOptions { hop with dev := some value } metric rest
      else if key = "metric" then
        (digitsValue value.toList).bind fun n => readOptions hop n rest
      else none

section

variable {δ : Type} (dest : String → Option δ)

/-- One statement. How `ip` reads a destination is left open: `dest` says which one it takes a
text for, if any. -/
def readStatement (line : String) : Option (RouteCmd δ Hop) :=
  match fields line with
  | command :: verb :: d :: options =>
      if command = "route" ∧ verb = "replace" then
        (dest d).bind fun d =>
          (readOptions {} 0 options).map fun o => .replace ⟨d, o.2⟩ o.1
      else if command = "route" ∧ verb = "del" ∧ options = [] then (dest d).map .del
      else none
  | _ => none

/-- The statements of a script. -/
def statements (script : String) : List (Option (RouteCmd δ Hop)) :=
  (lines script).map (readStatement dest)

/-! ### The engine -/

/-- `routeDest`: the destination of a line of the script, empty for another line. -/
def routeDest (line : String) : String :=
  match fields line with
  | command :: verb :: d :: _ => if command = "route" ∧ verb = "replace" then d else ""
  | _ => ""

/-- `Validate`: only `route replace` lines. -/
def Validate (config : String) : Except String Unit := do
  (scanText config).forM fun l =>
    let line := trimSpace l
    if line = "" || hasPrefixList line.toList "route replace ".toList then pure ()
    else .error ("unexpected route statement " ++ quote line)
  match scanErr config with
  | some err => .error err
  | none => pure ()

/-- The destinations of the last script that the new one does not name, one for each line. -/
def staleDests (prev config : String) : List String :=
  (lines prev).flatMap fun line =>
    let d := routeDest line
    if d = "" || (lines config).any fun nl => routeDest nl = d then [] else [d]

/-- The batch of `Apply`. -/
def batchScript (prev config : String) : String :=
  config ++ unlines ((staleDests prev config).map fun d => "route del " ++ d)

/-- What an `Apply` meets outside. -/
structure ApplyEnv where
  /-- The error of `MkdirAll`. -/
  mkdir : Option String := none
  /-- What `ReadFile` reads of the state file where it fails. -/
  read : Option String := none
  /-- The statements that fail for reasons of their own. -/
  fault : Nat → Bool := fun _ => false
  /-- The error of `WriteFile`, and what it leaves of the file. -/
  write : Option (String × Option String) := none

/-- The kernel's routes and the engine's state file. Which keys the engine ever put in is kept
for the statements about it; nothing reads it. -/
structure Host (δ : Type) where
  table : RouteTable δ Hop
  state : Option String := none
  installed : List (RouteKey δ) := []

/-- The last script, as `Apply` reads it: the error of `ReadFile` is ignored. -/
def readState (env : ApplyEnv) (h : Host δ) : String := env.read.getD (h.state.getD "")

/-- The errors of `Apply`. -/
inductive ApplyError
  | mkdir (err : String)
  /-- The batch stopped at a line. -/
  | line (n : Nat)
  | write (err : String)
  deriving DecidableEq, Repr

/-- The statements a batch performed. -/
def performed {α : Type} (ss : List α) : Option Nat → List α
  | none => ss
  | some n => ss.take n

/-- The keys that statements put in. -/
def replacedKeys (ss : List (Option (RouteCmd δ Hop))) : List (RouteKey δ) :=
  ss.filterMap fun s =>
    match s with
    | some (.replace k _) => some k
    | _ => none

/-- `Apply`: the batch of a configuration, which deletes what the last one had and this one has not,
and then puts in its routes. -/
def Apply [DecidableEq δ] (env : ApplyEnv) (config : String) (h : Host δ) :
    Except ApplyError Unit × Host δ :=
  match env.mkdir with
  | some err => (.error (.mkdir err), h)
  | none =>
      let script := batchScript (readState env h) config
      let ss := statements dest script
      let r := if trimSpace script = "" then (none, h.table) else batch env.fault 0 ss h.table
      let h := { h with table := r.2, installed := h.installed ++ replacedKeys (performed ss r.1) }
      match r.1 with
      | some n => (.error (.line n), h)
      | none =>
          match env.write with
          | some (err, left) => (.error (.write err), { h with state := left })
          | none => (.ok (), { h with state := some config })

/-! ### The script of a batch -/

/-- What is read of a line that puts a route in is a destination. -/
theorem isWord_routeDest {line : String} (h : routeDest line ≠ "") : IsWord (routeDest line) := by
  unfold routeDest at h ⊢
  split
  · next command verb d rest hfields =>
      rw [hfields] at h
      dsimp only at h ⊢
      split
      · exact isWord_of_mem_fields (by rw [hfields]; simp)
      · next hnot =>
          rw [if_neg hnot] at h
          exact (h rfl).elim
  · next hnot =>
      split at h
      · next command verb d rest hfields => exact (hnot _ _ _ _ hfields).elim
      · exact (h rfl).elim

theorem isWord_of_mem_staleDests {prev config d : String} (h : d ∈ staleDests prev config) :
    IsWord d := by
  obtain ⟨line, -, hd⟩ := List.mem_flatMap.mp h
  dsimp only at hd
  split at hd
  · cases hd
  · next hnot =>
      obtain rfl := List.mem_singleton.mp hd
      refine isWord_routeDest fun hempty => hnot ?_
      simp [hempty]

/-- A deletion is read as one. -/
theorem readStatement_del {d : String} (h : IsWord d) :
    readStatement dest ("route del " ++ d) = (dest d).map .del := by
  have hroute : IsWord "route" := by decide
  have hdel : IsWord "del" := by decide
  have hsplit : "route del " ++ d = "route" ++ " " ++ ("del" ++ " " ++ d) := by
    simp only [← String.append_assoc]
    rfl
  have hfields : fields ("route del " ++ d) = ["route", "del", d] := by
    rw [hsplit, fields_cons hroute, fields_cons hdel, fields_word h]
  unfold readStatement
  rw [hfields]
  have hne : ("del" : String) ≠ "replace" := by decide
  simp [hne]

theorem lines_del {d : String} (h : IsWord d) : lines ("route del " ++ d) = ["route del " ++ d] := by
  have hhead : ("route del " ++ d).toList.head? = some 'r' := head_append rfl
  refine lines_eq_self ?_ ?_ (getLast?_append_word h) ?_
  · intro hmem
    rw [String.toList_append, List.mem_append] at hmem
    rcases hmem with hmem | hmem
    · exact absurd hmem (by decide)
    · exact notMem_lineEnd h hmem
  · intro c hc
    rw [hhead] at hc
    cases hc
    decide
  · intro hempty
    rw [hempty] at hhead
    cases hhead

/-- **A batch is the script and the deletions.** -/
theorem statements_batchScript (prev : String) (ls : List String) :
    statements dest (batchScript prev (unlines ls)) = statements dest (unlines ls) ++
      (staleDests prev (unlines ls)).map fun d => (dest d).map .del := by
  have hscript : batchScript prev (unlines ls) =
      unlines (ls ++ (staleDests prev (unlines ls)).map fun d => "route del " ++ d) := by
    rw [unlines_append]
    rfl
  have hdels : ∀ ds : List String, (∀ d ∈ ds, IsWord d) →
      ((ds.map fun d => "route del " ++ d).flatMap lines).map (readStatement dest) =
        ds.map fun d => (dest d).map .del := by
    intro ds hds
    induction ds with
    | nil => rfl
    | cons d ds ih =>
        have hd := hds d List.mem_cons_self
        rw [List.map_cons, List.flatMap_cons, lines_del hd, List.singleton_append, List.map_cons,
          readStatement_del dest hd, ih fun e he => hds e (List.mem_cons_of_mem _ he), List.map_cons]
  unfold statements
  rw [hscript, lines_unlines, List.flatMap_append, List.map_append,
    hdels _ fun d hd => isWord_of_mem_staleDests hd, ← lines_unlines]

/-! ### The routes of a policy

The lines that the renderer writes for a policy are read by `ip` as the routes of the policy. -/

/-- A route of the policy, as the kernel should hold it. -/
def routeOf (r : RouteIR) : Option (RouteKey δ × Hop) :=
  (dest r.destination.string).map fun d =>
    (⟨d, r.metric⟩, ⟨r.via.map Addr.string, if r.interface = "" then none else some r.interface⟩)

/-- The routes of the policy that have a destination for `ip`. -/
def routesOf (ir : IR) : List (RouteKey δ × Hop) := ir.routes.filterMap (routeOf dest)

/-- A route that stays in its words: no white space in the name of its interface and in the
zone of its gateway. -/
structure InWords (r : RouteIR) : Prop where
  interface : r.interface = "" ∨ IsWord r.interface
  via : ∀ a, r.via = some a → IsWord a.string

/-- The words of a route's line. -/
def lineWords (r : RouteIR) : List String :=
  ["route", "replace", r.destination.string] ++
    (match r.via with
      | some via => ["via", via.string]
      | none => []) ++
    (if r.interface = "" then [] else ["dev", r.interface]) ++
    (if r.metric = 0 then [] else ["metric", decimal r.metric])

theorem isWord_of_mem_lineWords {r : RouteIR} (h : InWords r) : ∀ w ∈ lineWords r, IsWord w := by
  have hkeys : IsWord "route" ∧ IsWord "replace" ∧ IsWord "via" ∧ IsWord "dev" ∧ IsWord "metric" := by
    decide
  intro w hw
  unfold lineWords at hw
  simp only [List.mem_append, List.mem_cons, List.not_mem_nil, or_false] at hw
  rcases hw with (((rfl | rfl | rfl) | hw) | hw) | hw
  · exact hkeys.1
  · exact hkeys.2.1
  · exact isWord_prefixText _
  · cases hvia : r.via with
    | none =>
        rw [hvia] at hw
        cases hw
    | some a =>
        rw [hvia] at hw
        simp only [List.mem_cons, List.not_mem_nil, or_false] at hw
        rcases hw with rfl | rfl
        · exact hkeys.2.2.1
        · exact h.via a hvia
  · split at hw
    · cases hw
    · next hne =>
        simp only [List.mem_cons, List.not_mem_nil, or_false] at hw
        rcases hw with rfl | rfl
        · exact hkeys.2.2.2.1
        · exact h.interface.resolve_left hne
  · split at hw
    · cases hw
    · simp only [List.mem_cons, List.not_mem_nil, or_false] at hw
      rcases hw with rfl | rfl
      · exact hkeys.2.2.2.2
      · exact isWord_decimal _

/-- **A route's line is read as the route.** -/
theorem readStatement_line {r : RouteIR} (h : InWords r) :
    readStatement dest (Iproute.Line r) = (routeOf dest r).map fun x => .replace x.1 x.2 := by
  have hfields : fields (Iproute.Line r) = lineWords r := fields_join (isWord_of_mem_lineWords h)
  have hoptions : readOptions {} 0 ((lineWords r).drop 3) = some
      (⟨r.via.map Addr.string, if r.interface = "" then none else some r.interface⟩, r.metric) := by
    have hdev : ("dev" : String) ≠ "via" := by decide
    have hmetric : ("metric" : String) ≠ "via" ∧ ("metric" : String) ≠ "dev" := by decide
    unfold lineWords
    cases r.via <;> by_cases hi : r.interface = "" <;> by_cases hm : r.metric = 0 <;>
      simp [readOptions, hi, hm, hdev, hmetric, digitsValue_decimal]
  have hcons : lineWords r = "route" :: "replace" :: r.destination.string :: (lineWords r).drop 3 := by
    rfl
  unfold readStatement
  rw [hfields, hcons]
  dsimp only
  rw [hoptions, if_pos ⟨rfl, rfl⟩]
  unfold routeOf
  cases dest r.destination.string <;> rfl

theorem lines_line {r : RouteIR} (h : InWords r) : lines (Iproute.Line r) = [Iproute.Line r] :=
  have hne : lineWords r ≠ [] := List.cons_ne_nil _ _
  lines_join hne (isWord_of_mem_lineWords h)

/-- The lines of the policy's script are those of its routes. -/
theorem lines_render {ir : IR} (h : ∀ r ∈ ir.routes, InWords r) :
    lines (Iproute.Render ir) = ir.routes.map Iproute.Line := by
  unfold Iproute.Render
  rw [lines_unlines, List.flatMap_map, List.map_eq_flatMap]
  exact List.flatMap_congr fun r hr => lines_line (h r hr)

/-- What is read of the policy's script. -/
theorem statements_render {ir : IR} (h : ∀ r ∈ ir.routes, InWords r) :
    statements dest (Iproute.Render ir) =
      ir.routes.map fun r => (routeOf dest r).map fun x => .replace x.1 x.2 := by
  unfold statements
  rw [lines_render h, List.map_map]
  exact List.map_congr_left fun r hr => readStatement_line dest (h r hr)

theorem routeDest_line {r : RouteIR} (h : InWords r) :
    routeDest (Iproute.Line r) = r.destination.string := by
  have hfields : fields (Iproute.Line r) = lineWords r := fields_join (isWord_of_mem_lineWords h)
  unfold routeDest
  rw [hfields]
  rfl

/-- A hop of words. -/
structure Hop.Words (hop : Hop) : Prop where
  via : ∀ v, hop.via = some v → IsWord v
  dev : ∀ v, hop.dev = some v → IsWord v

/-- What is read of words is of words. -/
theorem readOptions_words {hop hop' : Hop} {metric metric' : Nat} {options : List String}
    (hhop : hop.Words) (hwords : ∀ w ∈ options, IsWord w)
    (h : readOptions hop metric options = some (hop', metric')) : hop'.Words := by
  fun_induction readOptions hop metric options with
  | case1 hop metric =>
      cases h
      exact hhop
  | case2 => cases h
  | case3 hop metric value rest ih =>
      refine ih ⟨fun v hv => ?_, hhop.dev⟩ (fun w hw => hwords w (by simp [hw])) h
      rw [← Option.some.inj hv]
      exact hwords value (by simp)
  | case4 hop metric value rest _ ih =>
      refine ih ⟨hhop.via, fun v hv => ?_⟩ (fun w hw => hwords w (by simp [hw])) h
      rw [← Option.some.inj hv]
      exact hwords value (by simp)
  | case5 hop metric value rest _ _ ih =>
      obtain ⟨n, -, h⟩ := Option.bind_eq_some_iff.mp h
      exact ih n hhop (fun w hw => hwords w (by simp [hw])) h
  | case6 => cases h

theorem readStatement_words {line : String} {k : RouteKey δ} {hop : Hop}
    (h : readStatement dest line = some (.replace k hop)) : hop.Words := by
  unfold readStatement at h
  split at h
  · next command verb d options hfields =>
      split at h
      · obtain ⟨d', -, h⟩ := Option.bind_eq_some_iff.mp h
        obtain ⟨⟨hop', metric⟩, ho, h⟩ := Option.map_eq_some_iff.mp h
        cases h
        refine readOptions_words ⟨by simp, by simp⟩ (fun w hw => ?_) ho
        refine isWord_of_mem_fields (s := line) ?_
        rw [hfields]
        simp [hw]
      · split at h
        · obtain ⟨d', -, h⟩ := Option.map_eq_some_iff.mp h
          cases h
        · cases h
  · cases h

/-- A route that the engine put in stays in its words. -/
theorem inWords_of_routeOf {r : RouteIR} {k : RouteKey δ} {hop : Hop}
    (h : routeOf dest r = some (k, hop)) (hhop : hop.Words) : InWords r := by
  unfold routeOf at h
  obtain ⟨d, -, h⟩ := Option.map_eq_some_iff.mp h
  cases h
  constructor
  · by_cases hempty : r.interface = ""
    · exact .inl hempty
    · exact .inr (hhop.dev _ (if_neg hempty))
  · intro a ha
    exact hhop.via _ (by rw [ha]; rfl)

/-! ### What `Apply` does

It fails before the batch, in the batch, or after it, or it succeeds; and what of the host has
changed is said for each. -/

/-- The keys that performed statements put in. -/
def putKeys (cs : List (RouteCmd δ Hop)) : List (RouteKey δ) :=
  cs.filterMap fun c =>
    match c with
    | .replace k _ => some k
    | .del _ => none

theorem replacedKeys_map_some (cs : List (RouteCmd δ Hop)) :
    replacedKeys (cs.map some) = putKeys cs := by
  unfold replacedKeys putKeys
  rw [List.filterMap_map]
  congr 1
  funext c
  cases c <;> rfl

theorem putKeys_append (xs ys : List (RouteCmd δ Hop)) :
    putKeys (xs ++ ys) = putKeys xs ++ putKeys ys := List.filterMap_append

theorem putKeys_replace (rs : List (RouteKey δ × Hop)) :
    putKeys (rs.map fun r => .replace r.1 r.2) = rs.map Prod.fst := by
  unfold putKeys
  rw [List.filterMap_map, ← List.filterMap_eq_map]
  rfl

theorem putKeys_del (ds : List δ) : putKeys (ds.map (RouteCmd.del (η := Hop))) = [] := by
  unfold putKeys
  rw [List.filterMap_map, List.filterMap_eq_nil_iff]
  intro d _
  rfl

variable [DecidableEq δ]

/-- **What `Apply` did**: it stopped before the batch, in it, or behind it. -/
theorem Apply_cases {env : ApplyEnv} {config : String} {h h' : Host δ}
    {result : Except ApplyError Unit} (heq : Apply dest env config h = (result, h')) :
    (∃ err, result = .error (.mkdir err) ∧ h' = h) ∨
    ∃ cs, execAll cs h.table = some h'.table ∧ h'.installed = h.installed ++ putKeys cs ∧
      ((∃ n, result = .error (.line n) ∧ h'.state = h.state ∧
          Performed 0 (statements dest (batchScript (readState env h) config)) cs (some n)) ∨
        (Performed 0 (statements dest (batchScript (readState env h) config)) cs none ∧
          ((∃ err, result = .error (.write err)) ∨
            (result = .ok () ∧ h'.state = some config)))) := by
  unfold Apply at heq
  cases hmkdir : env.mkdir with
  | some err =>
      rw [hmkdir] at heq
      cases heq
      exact .inl ⟨err, rfl, rfl⟩
  | none =>
      rw [hmkdir] at heq
      dsimp only at heq
      refine .inr ?_
      generalize hss : statements dest (batchScript (readState env h) config) = ss at heq ⊢
      -- a blank script has no statements, so that it makes no difference whether it is run
      have hrun : (if trimSpace (batchScript (readState env h) config) = "" then (none, h.table)
          else batch env.fault 0 ss h.table) = batch env.fault 0 ss h.table := by
        split
        · next hblank =>
            rw [← hss]
            unfold statements
            rw [lines_of_blank hblank]
            rfl
        · rfl
      rw [hrun] at heq
      cases hbatch : batch env.fault 0 ss h.table with
      | mk stop table =>
          obtain ⟨cs, hexec, hperformed⟩ := batch_cases hbatch
          rw [hbatch] at heq
          dsimp only at heq
          cases stop with
          | some n =>
              cases heq
              obtain ⟨hn, hlt, htake⟩ := hperformed
              refine ⟨cs, hexec, ?_, .inl ⟨n, rfl, rfl, hn, hlt, htake⟩⟩
              show _ ++ replacedKeys (ss.take n) = _
              rw [hn, Nat.zero_add, htake, replacedKeys_map_some]
          | none =>
              have hall : ss = cs.map some := hperformed
              cases hwrite : env.write with
              | some failure =>
                  rw [hwrite] at heq
                  cases heq
                  refine ⟨cs, hexec, ?_, .inr ⟨hperformed, .inl ⟨_, rfl⟩⟩⟩
                  show _ ++ replacedKeys ss = _
                  rw [hall, replacedKeys_map_some]
              | none =>
                  rw [hwrite] at heq
                  cases heq
                  refine ⟨cs, hexec, ?_, .inr ⟨hperformed, .inr ⟨rfl, rfl⟩⟩⟩
                  show _ ++ replacedKeys ss = _
                  rw [hall, replacedKeys_map_some]

/-! ### Following the policy

Of the last policy the engine knows the destinations that its state file names, and the kernel the
routes. The new policy leaves out some of the destinations and drops some of the routes; whether
the deletions take the routes that were dropped depends on these two, and on the rest of the
table. -/

/-- The destinations the batch deletes. -/
def deletions (env : ApplyEnv) (h : Host δ) (ir : IR) : List δ :=
  (staleDests (readState env h) (Iproute.Render ir)).filterMap dest

/-- The keys of the policy. -/
def keysOf (ir : IR) : List (RouteKey δ) := (routesOf dest ir).map Prod.fst

/-- The destinations of the policy, as it writes them. -/
def written (ir : IR) : List String := ir.routes.map fun r => r.destination.string

/-- The destinations that a script names. -/
def namedIn (script : String) : List String := ((lines script).map routeDest).filter fun d => d ≠ ""

/-- The destinations that are known of the last policy: all that it writes, unless the state file
cannot be read. -/
def known (env : ApplyEnv) (last : IR) : List String := (env.read.map namedIn).getD (written last)

/-- Those of them that the next policy leaves out. -/
def leftOut (env : ApplyEnv) (last next : IR) : List String :=
  (known env last).filter fun d => d ∉ written next

/-- The routes of the last policy that the next one drops. -/
def dropped (last next : IR) : List (RouteKey δ) :=
  ((keysOf dest last).filter fun k => k ∉ keysOf dest next).dedup

/-- **The next policy can be followed**: every route stays in its words, no two share a key with
different hops, each destination is left out as often as routes to it are dropped, and a dropped
route lies below the routes to its destination that the policy or the table has besides. -/
structure FollowsSafely (env : ApplyEnv) (last next : IR) (table : RouteTable δ Hop) : Prop where
  words : ∀ r ∈ next.routes, InWords r
  single : ∀ k hop hop', (k, hop) ∈ routesOf dest next → (k, hop') ∈ routesOf dest next → hop = hop'
  named : ((leftOut env last next).filterMap dest).Perm ((dropped dest last next).map RouteKey.dest)
  lowest : ∀ k ∈ dropped dest last next, ∀ j, j ∈ keysOf dest next ∨ j ∈ table →
    j ∉ dropped dest last next → j.dest = k.dest → k.metric < j.metric

/-- **The host follows a policy**: its script is in the state file, and its routes are those that
the engine put in and that are in the table. -/
structure Follows (h : Host δ) (last : IR) : Prop where
  words : ∀ r ∈ last.routes, InWords r
  script : h.state.getD "" = Iproute.Render last
  own : ∀ k, k ∈ h.installed ∧ k ∈ h.table ↔ k ∈ keysOf dest last

/-- **The table holds the policy**: what the engine put in and is still there are the routes
of the policy, and the rest is as it was at the start. -/
structure Converged (start : RouteTable δ Hop) (h : Host δ) (ir : IR) : Prop where
  readable : ∀ r ∈ ir.routes, (routeOf dest r).isSome
  held : ∀ k hop, (k ∈ h.installed ∧ h.table.lookup k = some hop) ↔ (k, hop) ∈ routesOf dest ir
  untouched : ∀ k ∉ h.installed, h.table.lookup k = start.lookup k

instance (r : RouteIR) : Decidable (InWords r) :=
  decidable_of_iff ((r.interface = "" ∨ IsWord r.interface) ∧ ∀ a ∈ r.via, IsWord a.string)
    ⟨fun h => ⟨h.1, fun a ha => h.2 a ha⟩, fun h => ⟨h.interface, fun a ha => h.via a ha⟩⟩

/-- Whether a policy can be followed can be computed. -/
instance (env : ApplyEnv) (last next : IR) (table : RouteTable δ Hop) :
    Decidable (FollowsSafely dest env last next table) :=
  decidable_of_iff ((∀ r ∈ next.routes, InWords r) ∧
      (∀ x ∈ routesOf dest next, ∀ y ∈ routesOf dest next, x.1 = y.1 → x.2 = y.2) ∧
      ((leftOut env last next).filterMap dest).Perm ((dropped dest last next).map RouteKey.dest) ∧
      ∀ k ∈ dropped dest last next, ∀ j ∈ keysOf dest next ++ table.keys,
        j ∉ dropped dest last next → j.dest = k.dest → k.metric < j.metric)
    ⟨fun h => ⟨h.1, fun k hop hop' hx hy => h.2.1 (k, hop) hx (k, hop') hy rfl, h.2.2.1,
        fun k hk j hj => h.2.2.2 k hk j (List.mem_append.mpr (hj.imp_right AList.mem_keys.mp))⟩,
      fun h => ⟨h.words, fun x hx y hy hkey => h.single x.1 x.2 y.2 hx (hkey ▸ hy), h.named,
        fun k hk j hj => h.lowest k hk j ((List.mem_append.mp hj).imp_right AList.mem_keys.mpr)⟩⟩

instance (h : Host δ) (last : IR) : Decidable (Follows dest h last) :=
  decidable_of_iff ((∀ r ∈ last.routes, InWords r) ∧ h.state.getD "" = Iproute.Render last ∧
      ∀ k ∈ h.installed ++ keysOf dest last,
        (k ∈ h.installed ∧ k ∈ h.table ↔ k ∈ keysOf dest last))
    ⟨fun ⟨hwords, hscript, hown⟩ => ⟨hwords, hscript, fun k =>
        ⟨fun hk => (hown k (List.mem_append_left _ hk.1)).mp hk,
          fun hk => (hown k (List.mem_append_right _ hk)).mpr hk⟩⟩,
      fun h => ⟨h.words, h.script, fun k _ => h.own k⟩⟩

omit [DecidableEq δ] in
theorem staleDests_eq (last config : String) :
    staleDests last config = (namedIn last).filter fun d => d ∉ (lines config).map routeDest := by
  unfold staleDests namedIn
  induction lines last with
  | nil => rfl
  | cons line ls ih =>
      rw [List.flatMap_cons, ih, List.map_cons]
      dsimp only
      by_cases hempty : routeDest line = ""
      · rw [if_pos (by simp [hempty]), List.nil_append, List.filter_cons_of_neg (by simp [hempty])]
      · rw [List.filter_cons_of_pos (by simp [hempty])]
        by_cases hstill : routeDest line ∈ (lines config).map routeDest
        · obtain ⟨nl, hnl, heq⟩ := List.mem_map.mp hstill
          have hany : ((lines config).any fun nl => decide (routeDest nl = routeDest line)) = true :=
            List.any_eq_true.mpr ⟨nl, hnl, decide_eq_true heq⟩
          rw [if_pos (by simp [hany]), List.nil_append,
            List.filter_cons_of_neg (by simpa using ⟨nl, hnl, heq⟩)]
        · have hany : ((lines config).any fun nl => decide (routeDest nl = routeDest line)) = false :=
            List.any_eq_false.mpr fun nl hnl heq =>
              hstill (List.mem_map.mpr ⟨nl, hnl, of_decide_eq_true heq⟩)
          rw [if_neg (by simp [hempty, hany]), List.singleton_append,
            List.filter_cons_of_pos (by simpa using hstill)]

theorem routeDest_render {ir : IR} (h : ∀ r ∈ ir.routes, InWords r) :
    (lines (Iproute.Render ir)).map routeDest = written ir := by
  rw [lines_render h, List.map_map]
  exact List.map_congr_left fun r hr => routeDest_line (h r hr)

theorem namedIn_render {ir : IR} (h : ∀ r ∈ ir.routes, InWords r) :
    namedIn (Iproute.Render ir) = written ir := by
  unfold namedIn
  rw [routeDest_render h, List.filter_eq_self]
  intro d hd
  obtain ⟨r, -, rfl⟩ := List.mem_map.mp hd
  exact decide_eq_true (isWord_prefixText r.destination).1

omit [DecidableEq δ] in
/-- The destinations a batch deletes are those that the next policy leaves out. -/
theorem deletions_eq {env : ApplyEnv} {h : Host δ} {last next : IR} (hlast : Follows dest h last)
    (hwords : ∀ r ∈ next.routes, InWords r) :
    deletions dest env h next = (leftOut env last next).filterMap dest := by
  have hknown : namedIn (readState env h) = known env last := by
    unfold readState known
    cases env.read with
    | none => exact (congrArg namedIn hlast.script).trans (namedIn_render hlast.words)
    | some part => rfl
  unfold deletions leftOut
  rw [staleDests_eq, hknown, routeDest_render hwords]

theorem mem_dropped {last next : IR} {k : RouteKey δ} :
    k ∈ dropped dest last next ↔ k ∈ keysOf dest last ∧ k ∉ keysOf dest next := by
  unfold dropped
  rw [List.mem_dedup, List.mem_filter, decide_eq_true_eq]

/-- Statements that were all read. -/
theorem eq_of_map_some {α β γ : Type} {g : α → Option β} {c : β → γ} {xs : List α} {cs : List γ}
    (h : xs.map (fun x => (g x).map c) = cs.map some) :
    cs = (xs.filterMap g).map c ∧ ∀ x ∈ xs, (g x).isSome := by
  induction xs generalizing cs with
  | nil =>
      rw [List.map_nil] at h
      rw [List.map_eq_nil_iff.mp h.symm]
      exact ⟨rfl, by simp⟩
  | cons x xs ih =>
      cases cs with
      | nil => cases h
      | cons d cs =>
          obtain ⟨hx, hxs⟩ := List.cons.inj h
          obtain ⟨b, hb, rfl⟩ := Option.map_eq_some_iff.mp hx
          obtain ⟨rfl, hall⟩ := ih hxs
          refine ⟨by rw [List.filterMap_cons_some hb, List.map_cons], ?_⟩
          intro y hy
          rcases List.mem_cons.mp hy with rfl | hy
          · rw [hb]
            rfl
          · exact hall y hy

/-- **What a successful `Apply` of a policy does to the table**: its routes are put in, and the
deletions made. -/
theorem Apply_ok {env : ApplyEnv} {ir : IR} {h h' : Host δ}
    (hwords : ∀ r ∈ ir.routes, InWords r)
    (heq : Apply dest env (Iproute.Render ir) h = (.ok (), h')) :
    (∀ r ∈ ir.routes, (routeOf dest r).isSome) ∧ h'.installed = h.installed ++ keysOf dest ir ∧
      h'.state = some (Iproute.Render ir) ∧
      execAll ((routesOf dest ir).map (fun r => .replace r.1 r.2) ++
        (deletions dest env h ir).map .del) h.table = some h'.table := by
  rcases Apply_cases dest heq with ⟨err, hresult, -⟩ | ⟨cs, hexec, hinstalled, hcases⟩
  · cases hresult
  · rcases hcases with ⟨n, hresult, -⟩ | ⟨hperformed, ⟨err, hresult⟩ | ⟨-, hstate⟩⟩
    · cases hresult
    · cases hresult
    · have hstatements := statements_batchScript dest (readState env h) (ir.routes.map Iproute.Line)
      have hall : statements dest (batchScript (readState env h) (Iproute.Render ir)) =
          cs.map some := hperformed
      have hrender := statements_render dest hwords
      unfold Iproute.Render at hall hrender
      rw [hstatements, hrender] at hall
      obtain ⟨as, bs, rfl, has, hbs⟩ := List.map_eq_append_iff.mp hall.symm
      obtain ⟨rfl, hreadable⟩ := eq_of_map_some has.symm
      obtain ⟨rfl, -⟩ := eq_of_map_some hbs.symm
      refine ⟨hreadable, ?_, hstate, hexec⟩
      rw [hinstalled, putKeys_append, putKeys_replace, putKeys_del, List.append_nil]
      rfl

/-- The deletions take what the engine put in and the policy does not have, and nothing else. -/
def TakesDropped (env : ApplyEnv) (h : Host δ) (next : IR) : Prop :=
  ∀ k, k ∈ keysOf dest next ∨ k ∈ h.table →
    (rank ((keysOf dest next).toFinset ∪ h.table.keySet) k <
        (deletions dest env h next).count k.dest ↔
      k ∈ h.installed ∧ k ∉ keysOf dest next)

/-- **What the deletions take.** They take the routes that were dropped and no others exactly when
the destinations left out are those of the dropped routes, and these lie lowest. -/
theorem takes_dropped_iff {env : ApplyEnv} {last next : IR} {h h' : Host δ}
    (hlast : Follows dest h last) (hwords : ∀ r ∈ next.routes, InWords r)
    (heq : Apply dest env (Iproute.Render next) h = (.ok (), h')) :
    TakesDropped dest env h next ↔
      ((leftOut env last next).filterMap dest).Perm ((dropped dest last next).map RouteKey.dest) ∧
        ∀ k ∈ dropped dest last next, ∀ j, j ∈ keysOf dest next ∨ j ∈ h.table →
          j ∉ dropped dest last next → j.dest = k.dest → k.metric < j.metric := by
  obtain ⟨-, -, -, hexec⟩ := Apply_ok dest hwords heq
  rw [execAll_append, execAll_replace, Option.bind_some] at hexec
  have hmem : ∀ k, k ∈ h.table.insertAll (routesOf dest next) ↔
      k ∈ keysOf dest next ∨ k ∈ h.table := fun k => mem_insertAll
  have hdropped : ∀ k ∈ dropped dest last next, k ∈ h.table.insertAll (routesOf dest next) :=
    fun k hk => (hmem k).mpr (.inr ((hlast.own k).mpr (mem_dropped dest |>.mp hk).1).2)
  have htake := dels_take_iff hexec (D := dropped dest last next) (List.nodup_dedup _) hdropped
  rw [keySet_insertAll, deletions_eq dest hlast hwords] at htake
  simp only [hmem] at htake
  unfold TakesDropped
  rw [← htake, deletions_eq dest hlast hwords]
  refine forall_congr' fun k => forall_congr' fun hk => iff_congr Iff.rfl ?_
  rw [mem_dropped, ← hlast.own k]
  constructor
  · rintro ⟨hinst, hnot⟩
    exact ⟨⟨hinst, hk.resolve_left hnot⟩, hnot⟩
  · rintro ⟨⟨hinst, -⟩, hnot⟩
    exact ⟨hinst, hnot⟩

/-- **What the table holds.** It holds the policy exactly when no two routes share a key with
different hops and the deletions take what was dropped. -/
theorem converged_iff_takes {env : ApplyEnv} {ir : IR} {start : RouteTable δ Hop} {h h' : Host δ}
    (hwords : ∀ r ∈ ir.routes, InWords r)
    (hstart : ∀ k ∉ h.installed, h.table.lookup k = start.lookup k)
    (heq : Apply dest env (Iproute.Render ir) h = (.ok (), h')) :
    Converged dest start h' ir ↔
      (∀ k hop hop', (k, hop) ∈ routesOf dest ir → (k, hop') ∈ routesOf dest ir → hop = hop') ∧
        TakesDropped dest env h ir := by
  obtain ⟨hreadable, hinstalled, -, hexec⟩ := Apply_ok dest hwords heq
  have hlookup : ∀ k, h'.table.lookup k =
      if rank ((keysOf dest ir).toFinset ∪ h.table.keySet) k <
        (deletions dest env h ir).count k.dest
      then none else (h.table.insertAll (routesOf dest ir)).lookup k := lookup_of_reconcile hexec
  have hkeys : ∀ k hop, (k, hop) ∈ routesOf dest ir → k ∈ keysOf dest ir :=
    fun k hop hmem => List.mem_map_of_mem hmem
  constructor
  · intro hconv
    refine ⟨fun k hop hop' hmem hmem' => ?_, fun k hk => ?_⟩
    · -- a key has one hop in the table, so it has one in the policy
      have hl := ((hconv.held k hop).mpr hmem).2
      have hl' := ((hconv.held k hop').mpr hmem').2
      exact Option.some.inj (hl.symm.trans hl')
    · have hk' := hlookup k
      by_cases hnext : k ∈ keysOf dest ir
      · -- a route of the policy stays
        obtain ⟨x, hmem, rfl⟩ := List.mem_map.mp hnext
        have hl := ((hconv.held x.1 x.2).mpr hmem).2
        rw [hl] at hk'
        refine iff_of_false (fun hlt => ?_) (fun hand => hand.2 hnext)
        rw [if_pos hlt] at hk'
        cases hk'
      · have htable := hk.resolve_left hnext
        obtain ⟨hop, hhop⟩ := Option.isSome_iff_exists.mp (AList.lookup_isSome.mpr htable)
        rw [lookup_insertAll_of_notMem hnext, hhop] at hk'
        by_cases hinst : k ∈ h.installed
        · -- what was dropped goes
          refine iff_of_true ?_ ⟨hinst, hnext⟩
          by_contra hlt
          rw [if_neg hlt] at hk'
          exact hnext (hkeys k hop ((hconv.held k hop).mp
            ⟨by rw [hinstalled]; exact List.mem_append_left _ hinst, hk'⟩))
        · -- what the engine did not put in stays
          refine iff_of_false (fun hlt => ?_) (fun hand => hinst hand.1)
          have hnot : k ∉ h'.installed := by
            rw [hinstalled, List.mem_append, not_or]
            exact ⟨hinst, hnext⟩
          rw [if_pos hlt, hconv.untouched k hnot, ← hstart k hinst, hhop] at hk'
          cases hk'
  · rintro ⟨hsingle, htakes⟩
    -- the other way: no deletion reaches a route of the policy
    have hstays : ∀ k ∈ keysOf dest ir,
        h'.table.lookup k = (h.table.insertAll (routesOf dest ir)).lookup k := by
      intro k hk
      rw [hlookup k, if_neg]
      intro hlt
      exact ((htakes k (.inl hk)).mp hlt).2 hk
    refine ⟨hreadable, fun k hop => ?_, fun k hk => ?_⟩
    · constructor
      · rintro ⟨hinst, hl⟩
        by_cases hnext : k ∈ keysOf dest ir
        · obtain ⟨hop', hmem, hput⟩ := lookup_insertAll_of_mem hnext h.table
          rw [hstays k hnext, hput] at hl
          cases hl
          exact hmem
        · have hold : k ∈ h.installed := by
            rw [hinstalled, List.mem_append] at hinst
            exact hinst.resolve_right hnext
          exfalso
          by_cases htable : k ∈ h.table
          · rw [hlookup k, if_pos ((htakes k (.inr htable)).mpr ⟨hold, hnext⟩)] at hl
            cases hl
          · rw [hlookup k, lookup_insertAll_of_notMem hnext, AList.lookup_eq_none.mpr htable,
              ite_self] at hl
            cases hl
      · intro hmem
        have hnext := hkeys k hop hmem
        obtain ⟨hop', hmem', hput⟩ := lookup_insertAll_of_mem hnext h.table
        rw [hstays k hnext, hput, hsingle k hop hop' hmem hmem', hinstalled]
        exact ⟨List.mem_append_right _ hnext, rfl⟩
    · rw [hinstalled, List.mem_append, not_or] at hk
      rw [hlookup k, lookup_insertAll_of_notMem hk.2, ← hstart k hk.1]
      by_cases htable : k ∈ h.table
      · rw [if_neg fun hlt => hk.1 ((htakes k (.inr htable)).mp hlt).1]
      · rw [AList.lookup_eq_none.mpr htable, ite_self]

/-- **One `Apply`**, from a host that follows a policy, leaves the routes of the next one exactly
when that can be followed. -/
theorem Apply_converged_iff {env : ApplyEnv} {last next : IR} {start : RouteTable δ Hop}
    {h h' : Host δ} (hlast : Follows dest h last) (hwords : ∀ r ∈ next.routes, InWords r)
    (hstart : ∀ k ∉ h.installed, h.table.lookup k = start.lookup k)
    (heq : Apply dest env (Iproute.Render next) h = (.ok (), h')) :
    Converged dest start h' next ↔ FollowsSafely dest env last next h.table := by
  rw [converged_iff_takes dest hwords hstart heq, takes_dropped_iff dest hlast hwords heq]
  constructor
  · rintro ⟨hsingle, hnamed, hlowest⟩
    exact ⟨hwords, hsingle, hnamed, hlowest⟩
  · intro h
    exact ⟨h.single, h.named, h.lowest⟩

/-- A host that holds a policy's routes behind its `Apply` follows the policy. -/
theorem follows_of_converged {env : ApplyEnv} {ir : IR} {start : RouteTable δ Hop} {h h' : Host δ}
    (hwords : ∀ r ∈ ir.routes, InWords r)
    (heq : Apply dest env (Iproute.Render ir) h = (.ok (), h'))
    (hconv : Converged dest start h' ir) : Follows dest h' ir := by
  obtain ⟨-, -, hstate, -⟩ := Apply_ok dest hwords heq
  refine ⟨hwords, by rw [hstate, Option.getD_some], fun k => ⟨?_, fun hk => ?_⟩⟩
  · rintro ⟨hinst, htable⟩
    obtain ⟨hop, hhop⟩ := Option.isSome_iff_exists.mp (AList.lookup_isSome.mpr htable)
    exact List.mem_map_of_mem (f := Prod.fst) ((hconv.held k hop).mp ⟨hinst, hhop⟩)
  · obtain ⟨x, hx, rfl⟩ := List.mem_map.mp hk
    obtain ⟨hinst, hl⟩ := (hconv.held x.1 x.2).mpr hx
    exact ⟨hinst, AList.lookup_isSome.mp (by rw [hl]; rfl)⟩

/-! ### Words in the table

The gateways and interfaces that the engine has put in are words, and its batches put in no other
ones. -/

/-- What the engine put in, it put in as words. -/
def HoldsWords (installed : List (RouteKey δ)) (K : RouteTable δ Hop) : Prop :=
  ∀ k ∈ installed, ∀ hop, K.lookup k = some hop → hop.Words

theorem execAll_holdsWords {cs : List (RouteCmd δ Hop)} {installed : List (RouteKey δ)}
    {K K' : RouteTable δ Hop} (hcs : ∀ k hop, .replace k hop ∈ cs → hop.Words)
    (h : HoldsWords installed K) (hexec : execAll cs K = some K') :
    HoldsWords (installed ++ putKeys cs) K' := by
  induction cs generalizing installed K with
  | nil =>
      cases hexec
      unfold putKeys
      rw [List.filterMap_nil, List.append_nil]
      exact h
  | cons c cs ih =>
      rw [execAll] at hexec
      obtain ⟨K₁, hc, hexec⟩ := Option.bind_eq_some_iff.mp hexec
      have hcs' : ∀ k hop, .replace k hop ∈ cs → hop.Words :=
        fun k hop hmem => hcs k hop (List.mem_cons_of_mem _ hmem)
      cases c with
      | replace k hop =>
          cases hc
          have hput : putKeys (.replace k hop :: cs) = [k] ++ putKeys cs := rfl
          rw [hput, ← List.append_assoc]
          refine ih hcs' (fun j hj hop' hl => ?_) hexec
          by_cases hjk : j = k
          · subst hjk
            rw [AList.lookup_insert] at hl
            cases hl
            exact hcs j hop List.mem_cons_self
          · rw [AList.lookup_insert_ne hjk] at hl
            rcases List.mem_append.mp hj with hj | hj
            · exact h j hj hop' hl
            · exact (hjk (List.mem_singleton.mp hj)).elim
      | del d =>
          obtain ⟨low, -, rfl⟩ := Option.map_eq_some_iff.mp hc
          have hput : putKeys (RouteCmd.del d :: cs) = putKeys cs := rfl
          rw [hput]
          refine ih hcs' (fun j hj hop' hl => ?_) hexec
          by_cases hjl : j = low
          · rw [hjl, AList.lookup_erase] at hl
            cases hl
          · rw [AList.lookup_erase_ne hjl] at hl
            exact h j hj hop' hl

/-- `Apply` keeps the table in words. -/
theorem Apply_holdsWords {env : ApplyEnv} {config : String} {h h' : Host δ}
    (heq : Apply dest env config h = (.ok (), h')) (hwords : HoldsWords h.installed h.table) :
    HoldsWords h'.installed h'.table := by
  rcases Apply_cases dest heq with ⟨err, hresult, -⟩ | ⟨cs, hexec, hinstalled, hcases⟩
  · cases hresult
  · rcases hcases with ⟨n, hresult, -⟩ | ⟨hperformed, -⟩
    · cases hresult
    · rw [hinstalled]
      refine execAll_holdsWords (fun k hop hmem => ?_) hwords hexec
      have hall : statements dest (batchScript (readState env h) config) = cs.map some := hperformed
      have hread : some (RouteCmd.replace k hop) ∈
          statements dest (batchScript (readState env h) config) := by
        rw [hall]
        exact List.mem_map_of_mem hmem
      obtain ⟨line, -, hline⟩ := List.mem_map.mp hread
      exact readStatement_words dest hline

/-! ### Runs -/

variable (H : IdentityHash)

/-- One policy for the engine. -/
structure ApplyCall where
  env : ApplyEnv := {}
  policy : Phragma.Policy

/-- The engine's part of a commit: the policy's script is applied. A policy that is not accepted
has none. -/
def applyPolicy (call : ApplyCall) (h : Host δ) : Option (Except ApplyError Unit) × Host δ :=
  match Compile H call.policy with
  | .error _ => (none, h)
  | .ok ir =>
      let r := Apply dest call.env (Iproute.Render ir) h
      (some r.1, r.2)

/-- A step of a run. -/
abbrev ApplyEvent (δ : Type) := Event ApplyCall (Host δ) (Option (Except ApplyError Unit))

/-- A run of the engine over a sequence of policies. -/
def applyHistory (h : Host δ) (calls : List ApplyCall) : List (ApplyEvent δ) :=
  history (applyPolicy dest H) h calls

/-- The step leaves the policy's routes. -/
def Converges (start : RouteTable δ Hop) (ev : ApplyEvent δ) : Prop :=
  ∀ ir, Compile H ev.input.policy = .ok ir → Converged dest start ev.after ir

/-- The step is safe: the host follows a policy, and the next one can be followed from it. -/
def Safe (ev : ApplyEvent δ) : Prop :=
  ∀ next, Compile H ev.input.policy = .ok next → ∃ last, Follows dest ev.before last ∧
    FollowsSafely dest ev.input.env last next ev.before.table

/-- What holds between the calls: the engine put in words, nothing else changed, and the host
follows a policy. -/
structure Between (start : RouteTable δ Hop) (h : Host δ) : Prop where
  words : HoldsWords h.installed h.table
  untouched : ∀ k ∉ h.installed, h.table.lookup k = start.lookup k
  follows : ∃ last, Follows dest h last

/-- **Step lemma.** -/
theorem applyPolicy_iff {start : RouteTable δ Hop} {h : Host δ} {call : ApplyCall}
    (hbetween : Between dest start h) (hok : (applyPolicy dest H call h).1 = some (.ok ())) :
    let ev : ApplyEvent δ :=
      ⟨call, h, (applyPolicy dest H call h).1, (applyPolicy dest H call h).2⟩
    (Converges dest H start ev ↔ Safe dest H ev) ∧
      (Converges dest H start ev → Between dest start ev.after) := by
  dsimp only
  unfold Converges Safe
  unfold applyPolicy at hok ⊢
  dsimp only
  cases hcompile : Compile H call.policy with
  | error e =>
      rw [hcompile] at hok
      cases hok
  | ok ir =>
      rw [hcompile] at hok
      dsimp only at hok ⊢
      cases happly : Apply dest call.env (Iproute.Render ir) h with
      | mk result h' =>
          rw [happly] at hok
          cases hok
          have hwords' := Apply_holdsWords dest happly hbetween.words
          -- a route that is held was put in as words
          have hroutes : Converged dest start h' ir → ∀ r ∈ ir.routes, InWords r := by
            intro hconv r hr
            obtain ⟨⟨k, hop⟩, hroute⟩ := Option.isSome_iff_exists.mp (hconv.readable r hr)
            obtain ⟨hinst, hl⟩ := (hconv.held k hop).mpr (List.mem_filterMap.mpr ⟨r, hr, hroute⟩)
            exact inWords_of_routeOf dest hroute (hwords' k hinst hop hl)
          refine ⟨⟨fun hconv => ?_, fun hsafe => ?_⟩, fun hconv => ?_⟩
          · rintro next heq
            cases heq
            have hconv := hconv ir rfl
            obtain ⟨last, hlast⟩ := hbetween.follows
            exact ⟨last, hlast, (Apply_converged_iff dest hlast (hroutes hconv) hbetween.untouched
              happly).mp hconv⟩
          · rintro next heq
            cases heq
            obtain ⟨last, hlast, hsafe⟩ := hsafe ir rfl
            exact (Apply_converged_iff dest hlast hsafe.words hbetween.untouched happly).mpr hsafe
          · have hconv := hconv ir rfl
            exact ⟨hwords', hconv.untouched, ir,
              follows_of_converged dest (hroutes hconv) happly hconv⟩

/-- **The engine converges to every policy of a run exactly when each can be followed from the one
before.** The runs are those from a host without a state file in which every `Apply` succeeds. -/
theorem routes_converge_iff {start : RouteTable δ Hop} {calls : List ApplyCall}
    (hok : ∀ ev ∈ applyHistory dest H ⟨start, none, []⟩ calls, ev.output = some (.ok ())) :
    (∀ ev ∈ applyHistory dest H ⟨start, none, []⟩ calls, Converges dest H start ev) ↔
      ∀ ev ∈ applyHistory dest H ⟨start, none, []⟩ calls, Safe dest H ev := by
  have hrun : ∀ (calls : List ApplyCall) (h : Host δ), Between dest start h →
      (∀ ev ∈ applyHistory dest H h calls, ev.output = some (.ok ())) →
      ((∀ ev ∈ applyHistory dest H h calls, Converges dest H start ev) ↔
        ∀ ev ∈ applyHistory dest H h calls, Safe dest H ev) := by
    intro calls
    induction calls with
    | nil =>
        intro h _ _
        exact iff_of_true (fun _ hev => by cases hev) (fun _ hev => by cases hev)
    | cons call calls ih =>
        intro h hbetween hok
        unfold applyHistory at hok ih ⊢
        simp only [history, List.forall_mem_cons] at hok ⊢
        have hstep := applyPolicy_iff dest H hbetween hok.1
        dsimp only at hstep
        generalize applyPolicy dest H call h = r at hok hstep ⊢
        obtain ⟨hfirst, hnext⟩ := hstep
        constructor
        · rintro ⟨hconv, hrest⟩
          exact ⟨hfirst.mp hconv, (ih _ (hnext hconv) hok.2).mp hrest⟩
        · rintro ⟨hsafe, hrest⟩
          have hconv := hfirst.mpr hsafe
          exact ⟨hconv, (ih _ (hnext hconv) hok.2).mpr hrest⟩
  -- without a state file, the host follows the policy without routes
  have hfollows : Follows dest ⟨start, none, []⟩ {} := by
    refine ⟨fun r hr => ?_, rfl, fun k => iff_of_false (fun hk => ?_) fun hk => ?_⟩
    · cases hr
    · cases hk.1
    · cases hk
  refine hrun calls _ ⟨fun k hk => ?_, fun _ _ => rfl, {}, hfollows⟩ hok
  cases hk

end

/-! ### A route of somebody else

A foreign route of a lower metric at a destination that the policy drops: it is deleted in place of
the policy's own. -/

/-- A policy with a route of metric 100 to each network. -/
def networksPolicy (networks : List String) : ApplyCall where
  policy :=
    { staticRoutes := networks.map fun destination =>
        { destination, interface := "eth0", metric := 100 } }

/-- A route that the engine did not put in, to the same network and of a lower metric. -/
def foreignKey : RouteKey Prefix := ⟨⟨.v4 0x0a000000, 8, by decide, rfl⟩, 50⟩

/-- A host without a state file, with and without that route. -/
def freshHost : Host Prefix := ⟨∅, none, []⟩
def foreignHost : Host Prefix := ⟨AList.insert foreignKey ⟨none, some "eth1"⟩ ∅, none, []⟩

/-- A host after the first policy. -/
def firstHost (h : Host Prefix) : Host Prefix :=
  (applyPolicy parsePrefix .zero (networksPolicy ["10.0.0.0/8"]) h).2

/-- The step from one host to the next. -/
def networksEvent (networks : List String) (h : Host Prefix) : ApplyEvent Prefix :=
  ⟨networksPolicy networks, h, (applyPolicy parsePrefix .zero (networksPolicy networks) h).1,
    (applyPolicy parsePrefix .zero (networksPolicy networks) h).2⟩

theorem networks_run (h : Host Prefix) :
    applyHistory parsePrefix .zero h [networksPolicy ["10.0.0.0/8"], networksPolicy []] =
      [networksEvent ["10.0.0.0/8"] h, networksEvent [] (firstHost h)] := history_pair _ _ _

/-- Is the step from a policy safe? -/
def checkStep (last : IR) (ev : ApplyEvent Prefix) : Bool :=
  (Compile .zero ev.input.policy).toOption.all fun next =>
    decide (Follows parsePrefix ev.before last ∧
      FollowsSafely parsePrefix ev.input.env last next ev.before.table)

theorem safe_of_checkStep {last : IR} {ev : ApplyEvent Prefix} (h : checkStep last ev = true) :
    Safe parsePrefix .zero ev := by
  intro next hnext
  unfold checkStep at h
  rw [hnext] at h
  exact ⟨last, of_decide_eq_true h⟩

/-- What is compiled of the first policy. -/
def firstIR : IR := (Compile .zero (networksPolicy ["10.0.0.0/8"]).policy).toOption.getD {}

theorem networks_ok {h : Host Prefix}
    (hfirst : (networksEvent ["10.0.0.0/8"] h).output = some (.ok ()))
    (hsecond : (networksEvent [] (firstHost h)).output = some (.ok ())) :
    ∀ ev ∈ applyHistory parsePrefix .zero h [networksPolicy ["10.0.0.0/8"], networksPolicy []],
      ev.output = some (.ok ()) := by
  rw [networks_run]
  intro ev hev
  rcases List.mem_cons.mp hev with rfl | hev
  · exact hfirst
  · rw [List.mem_singleton.mp hev]
    exact hsecond

theorem fresh_facts :
    (networksEvent ["10.0.0.0/8"] freshHost).output = some (.ok ()) ∧
      (networksEvent [] (firstHost freshHost)).output = some (.ok ()) ∧
      checkStep {} (networksEvent ["10.0.0.0/8"] freshHost) = true ∧
      checkStep firstIR (networksEvent [] (firstHost freshHost)) = true := by
  decide +kernel

/-- The policy's route comes and goes on a host of its own. -/
theorem routes_converge_fresh :
    Converges parsePrefix .zero ∅ (networksEvent ["10.0.0.0/8"] freshHost) ∧
      Converges parsePrefix .zero ∅ (networksEvent [] (firstHost freshHost)) := by
  obtain ⟨hfirst, hsecond, hsafe, hsafe'⟩ := fresh_facts
  have hconv := (routes_converge_iff parsePrefix .zero (networks_ok hfirst hsecond)).mpr
  have hrun : applyHistory parsePrefix .zero ⟨∅, none, []⟩
      [networksPolicy ["10.0.0.0/8"], networksPolicy []] =
      [networksEvent ["10.0.0.0/8"] freshHost, networksEvent [] (firstHost freshHost)] :=
    networks_run freshHost
  rw [hrun] at hconv
  have hall := hconv (by
    intro ev hev
    rcases List.mem_cons.mp hev with rfl | hev
    · exact safe_of_checkStep hsafe
    · rw [List.mem_singleton.mp hev]
      exact safe_of_checkStep hsafe')
  exact ⟨hall _ List.mem_cons_self, hall _ (List.mem_cons_of_mem _ (List.mem_singleton_self _))⟩

theorem foreign_facts :
    (networksEvent ["10.0.0.0/8"] foreignHost).output = some (.ok ()) ∧
      (networksEvent [] (firstHost foreignHost)).output = some (.ok ()) ∧
      foreignKey ∉ (networksEvent [] (firstHost foreignHost)).after.installed ∧
      (networksEvent [] (firstHost foreignHost)).after.table.lookup foreignKey = none ∧
      foreignHost.table.lookup foreignKey = some ⟨none, some "eth1"⟩ ∧
      (Compile .zero (networksPolicy []).policy).toOption.isSome = true := by
  decide +kernel

/-- **The engine takes a route of somebody else for its own**: it has the lower metric. -/
theorem routes_delete_foreign : ¬ ∀ (start : RouteTable Prefix Hop) (calls : List ApplyCall),
    (∀ ev ∈ applyHistory parsePrefix .zero ⟨start, none, []⟩ calls,
        ev.output = some (.ok ())) →
      ∀ ev ∈ applyHistory parsePrefix .zero ⟨start, none, []⟩ calls,
        Converges parsePrefix .zero start ev := by
  intro hall
  obtain ⟨hfirst, hsecond, hnot, hnone, hsome, hcompile⟩ := foreign_facts
  have hrun : applyHistory parsePrefix .zero ⟨foreignHost.table, none, []⟩
      [networksPolicy ["10.0.0.0/8"], networksPolicy []] =
      [networksEvent ["10.0.0.0/8"] foreignHost, networksEvent [] (firstHost foreignHost)] :=
    networks_run foreignHost
  have hconv := hall foreignHost.table [networksPolicy ["10.0.0.0/8"], networksPolicy []]
    (networks_ok hfirst hsecond)
  rw [hrun] at hconv
  obtain ⟨ir, hir⟩ := Option.isSome_iff_exists.mp hcompile
  have huntouched := (hconv _ (List.mem_cons_of_mem _ (List.mem_singleton_self _)) ir
    (toOption_eq_some.mp hir)).untouched foreignKey hnot
  rw [hnone, hsome] at huntouched
  cases huntouched

end Phragma.Engines.Routes
