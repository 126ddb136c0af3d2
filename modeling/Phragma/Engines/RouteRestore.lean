import Phragma.Engines.Routes

/-!
# Phragma.Engines.RouteRestore

**What a failed `Apply` of the routes engine leaves behind.** The batch of a policy stops at a line;
the lines before it are done, and the state file still holds the script of the policy before. The
supervisor then restores that policy: its routes are put in once more, and nothing is deleted,
since the state file names nothing that the policy does not.

So the restore is complete exactly when whatever the failed batch put in for the first time was
taken back by its own deletions, and these took nothing else (`TakesBack`,
`failed_apply_restored`). What it leaves over is nobody's: no later run that does not name its
destination ever touches it (`orphan_stays`).
-/

namespace Phragma.Engines.Routes

open Lib Go Policy Compiler Renderers

section

variable {δ : Type} (dest : String → Option δ) [DecidableEq δ]

/-! ### The batch of a policy -/

/-- The statements that put a policy's routes in. -/
def putStatements (ir : IR) : List (Option (RouteCmd δ Hop)) :=
  ir.routes.map fun r => (routeOf dest r).map fun x => .replace x.1 x.2

omit [DecidableEq δ] in
theorem statements_batch {prev : String} {ir : IR} (hwords : ∀ r ∈ ir.routes, InWords r) :
    statements dest (batchScript prev (Iproute.Render ir)) = putStatements dest ir ++
      (staleDests prev (Iproute.Render ir)).map fun d => (dest d).map .del := by
  have hstatements := statements_batchScript dest prev (ir.routes.map Iproute.Line)
  have hrender := statements_render dest hwords
  unfold Iproute.Render at hrender ⊢
  rw [hstatements, hrender]
  rfl

/-- What `Apply` returns, from the batch. -/
theorem Apply_result {env : ApplyEnv} {ir : IR} {h : Host δ} (hmkdir : env.mkdir = none)
    (hwrite : env.write = none) (hwords : ∀ r ∈ ir.routes, InWords r) :
    (Apply dest env (Iproute.Render ir) h).1 =
      match (batch env.fault 0 (putStatements dest ir ++ (staleDests (readState env h)
        (Iproute.Render ir)).map fun d => (dest d).map .del) h.table).1 with
      | some n => .error (.line n)
      | none => .ok () := by
  rw [← statements_batch dest hwords]
  have hblank : (if trimSpace (batchScript (readState env h) (Iproute.Render ir)) = "" then
      (none, h.table) else batch env.fault 0
        (statements dest (batchScript (readState env h) (Iproute.Render ir))) h.table) =
      batch env.fault 0
        (statements dest (batchScript (readState env h) (Iproute.Render ir))) h.table := by
    split
    · next hblank =>
        unfold statements
        rw [lines_of_blank hblank]
        rfl
    · rfl
  unfold Apply
  rw [hmkdir]
  dsimp only
  rw [hblank]
  generalize batch env.fault 0 (statements dest (batchScript (readState env h)
    (Iproute.Render ir))) h.table = r
  obtain ⟨stop, table⟩ := r
  cases stop with
  | some n => rfl
  | none => simp only [hwrite]

/-! ### A batch that stops

What stops a batch is one line, so what has been done is a beginning of it. -/

/-- The routes of a policy that its batch puts in before the `n`-th line. -/
def putBefore (ir : IR) (n : Nat) : List (RouteKey δ × Hop) :=
  (ir.routes.take n).filterMap (routeOf dest)

/-- Their keys. -/
def putKeysBefore (ir : IR) (n : Nat) : List (RouteKey δ) := (putBefore dest ir n).map Prod.fst

/-- The destinations that a batch deletes before the `n`-th line. -/
def deletedBefore (env : ApplyEnv) (h : Host δ) (ir : IR) (n : Nat) : List δ :=
  ((staleDests (readState env h) (Iproute.Render ir)).take (n - ir.routes.length)).filterMap dest

/-- **What an `Apply` that stops at a line does to the table.** The state file stays. -/
theorem Apply_line {env : ApplyEnv} {ir : IR} {h h' : Host δ} {n : Nat}
    (hwords : ∀ r ∈ ir.routes, InWords r)
    (heq : Apply dest env (Iproute.Render ir) h = (.error (.line n), h')) :
    h'.state = h.state ∧ h'.installed = h.installed ++ putKeysBefore dest ir n ∧
      ∀ k, h'.table.lookup k =
        if rank ((putKeysBefore dest ir n).toFinset ∪ h.table.keySet) k <
          (deletedBefore dest env h ir n).count k.dest
        then none else (h.table.insertAll (putBefore dest ir n)).lookup k := by
  rcases Apply_cases dest heq with ⟨err, hresult, -⟩ | ⟨cs, hexec, hinstalled, hcases⟩
  · cases hresult
  · rcases hcases with ⟨m, hresult, hstate, hm, -, htake⟩ | ⟨-, ⟨err, hresult⟩ | ⟨hresult, -⟩⟩
    · cases hresult
      rw [Nat.zero_add] at hm
      rw [statements_batch dest hwords, ← hm, List.take_append, putStatements, List.length_map,
        ← List.map_take, ← List.map_take] at htake
      obtain ⟨as, bs, rfl, has, hbs⟩ := List.map_eq_append_iff.mp htake.symm
      obtain ⟨rfl, -⟩ := eq_of_map_some has.symm
      obtain ⟨rfl, -⟩ := eq_of_map_some hbs.symm
      refine ⟨hstate, ?_, fun k => lookup_of_reconcile hexec k⟩
      rw [hinstalled, putKeys_append, putKeys_replace, putKeys_del, List.append_nil]
      rfl
    · cases hresult
    · cases hresult

/-! ### The restore

The restore puts routes in and deletes nothing. So it brings back what was deleted and cannot take
out what was put in. -/

/-- A script has no destinations that it does not name itself. -/
theorem staleDests_self (config : String) : staleDests config config = [] := by
  unfold staleDests
  rw [List.flatMap_eq_nil_iff]
  intro line hline
  dsimp only
  rw [if_pos]
  rw [Bool.or_eq_true, List.any_eq_true]
  exact .inr ⟨line, hline, decide_eq_true rfl⟩

/-- **What the restore does to the table**: the policy's routes are put in, and nothing goes. -/
theorem Apply_restores {env : ApplyEnv} {prev : IR} {h h' : Host δ}
    (hwords : ∀ r ∈ prev.routes, InWords r) (hstate : h.state = some (Iproute.Render prev))
    (hread : env.read = none)
    (heq : Apply dest env (Iproute.Render prev) h = (.ok (), h')) :
    (∀ r ∈ prev.routes, (routeOf dest r).isSome) ∧
      h'.installed = h.installed ++ keysOf dest prev ∧
      ∀ k, h'.table.lookup k = (h.table.insertAll (routesOf dest prev)).lookup k := by
  obtain ⟨hreadable, hinstalled, -, hexec⟩ := Apply_ok dest hwords heq
  have hnone : deletions dest env h prev = [] := by
    unfold deletions readState
    rw [hread, hstate, Option.getD_none, Option.getD_some, staleDests_self, List.filterMap_nil]
  rw [hnone, List.map_nil, List.append_nil, execAll_replace] at hexec
  exact ⟨hreadable, hinstalled, fun k => by rw [← Option.some.inj hexec]⟩

/-- **The failed batch took back what it put in**: of the routes that are not the previous
policy's, its deletions hit those that it put in itself, and no others. -/
def TakesBack (env : ApplyEnv) (h : Host δ) (prev next : IR) (n : Nat) : Prop :=
  ∀ k, k ∈ putKeysBefore dest next n ∨ k ∈ h.table → k ∉ keysOf dest prev →
    (rank ((putKeysBefore dest next n).toFinset ∪ h.table.keySet) k <
      (deletedBefore dest env h next n).count k.dest ↔ k ∈ putKeysBefore dest next n)

variable {env env' : ApplyEnv} {prev next : IR} {start : RouteTable δ Hop} {h h₁ h₂ : Host δ}
  {n : Nat} (hprev : ∀ r ∈ prev.routes, InWords r) (hnext : ∀ r ∈ next.routes, InWords r)
  (hstate : h.state = some (Iproute.Render prev)) (hheld : Converged dest start h prev)
  (hfail : Apply dest env (Iproute.Render next) h = (.error (.line n), h₁))
  (hread : env'.read = none)
  (hrestore : Apply dest env' (Iproute.Render prev) h₁ = (.ok (), h₂))

include hprev hnext hstate hheld hfail hread hrestore

/-- **A failed apply, restored.** The table holds the routes of the previous policy, and it is as if
nothing had happened exactly when the failed batch took back what it put in. -/
theorem failed_apply_restored :
    (∀ k hop, (k, hop) ∈ routesOf dest prev → h₂.table.lookup k = some hop) ∧
      (Converged dest start h₂ prev ↔ TakesBack dest env h prev next n) := by
  obtain ⟨hstate₁, hinstalled₁, hlookup₁⟩ := Apply_line dest hnext hfail
  obtain ⟨hreadable, hinstalled₂, hlookup₂⟩ :=
    Apply_restores dest hprev (hstate₁.trans hstate) hread hrestore
  have hinstalled : h₂.installed =
      h.installed ++ putKeysBefore dest next n ++ keysOf dest prev := by
    rw [hinstalled₂, hinstalled₁]
  have hold : ∀ k hop, (k, hop) ∈ routesOf dest prev → h₂.table.lookup k = some hop := by
    intro k hop hmem
    obtain ⟨hop', hmem', hput⟩ := lookup_insertAll_of_mem
      (List.mem_map_of_mem (f := Prod.fst) hmem) h₁.table
    rw [hlookup₂ k, hput]
    have hl := ((hheld.held k hop).mpr hmem).2
    have hl' := ((hheld.held k hop').mpr hmem').2
    exact hl'.symm.trans hl
  have hother : ∀ k ∉ keysOf dest prev, h₂.table.lookup k = h₁.table.lookup k := by
    intro k hk
    rw [hlookup₂ k, lookup_insertAll_of_notMem hk]
  refine ⟨hold, ?_, ?_⟩
  · intro hconv k hk hkey
    have hk₁ := (hother k hkey).trans (hlookup₁ k)
    by_cases hput : k ∈ putKeysBefore dest next n
    · -- a route that was put in must have been deleted
      refine iff_of_true ?_ hput
      by_contra hlt
      obtain ⟨hop, -, hhop⟩ := lookup_insertAll_of_mem hput h.table
      rw [if_neg hlt, hhop] at hk₁
      have hinst : k ∈ h₂.installed := by
        rw [hinstalled]
        exact List.mem_append_left _ (List.mem_append_right _ hput)
      exact hkey (List.mem_map_of_mem (f := Prod.fst) ((hconv.held k hop).mp ⟨hinst, hk₁⟩))
    · -- any other route was there before, and is somebody else's
      refine iff_of_false (fun hlt => ?_) hput
      obtain ⟨hop, hhop⟩ := Option.isSome_iff_exists.mp
        (AList.lookup_isSome.mpr (hk.resolve_left hput))
      have hforeign : k ∉ h.installed := fun hinst =>
        hkey (List.mem_map_of_mem (f := Prod.fst) ((hheld.held k hop).mp ⟨hinst, hhop⟩))
      have hnot : k ∉ h₂.installed := by
        rw [hinstalled]
        simp only [List.mem_append, not_or]
        exact ⟨⟨hforeign, hput⟩, hkey⟩
      rw [if_pos hlt, hconv.untouched k hnot, ← hheld.untouched k hforeign, hhop] at hk₁
      cases hk₁
  · intro hback
    have hkept : ∀ k, k ∉ keysOf dest prev → k ∉ putKeysBefore dest next n →
        h₂.table.lookup k = h.table.lookup k := by
      intro k hkey hput
      have hk := (hother k hkey).trans (hlookup₁ k)
      rw [lookup_insertAll_of_notMem hput] at hk
      by_cases htable : k ∈ h.table
      · rwa [if_neg fun hlt => hput ((hback k (.inr htable) hkey).mp hlt)] at hk
      · rwa [AList.lookup_eq_none.mpr htable, ite_self,
          ← AList.lookup_eq_none.mpr htable] at hk
    refine ⟨hreadable, fun k hop => ⟨?_, fun hmem => ?_⟩, fun k hk => ?_⟩
    · rintro ⟨hinst, hl⟩
      by_cases hkey : k ∈ keysOf dest prev
      · obtain ⟨x, hmem, rfl⟩ := List.mem_map.mp hkey
        have hx := hold x.1 x.2 hmem
        rw [hl] at hx
        cases hx
        exact hmem
      · exfalso
        by_cases hput : k ∈ putKeysBefore dest next n
        · have hk := (hother k hkey).trans (hlookup₁ k)
          rw [if_pos ((hback k (.inl hput) hkey).mpr hput), hl] at hk
          cases hk
        · rw [hkept k hkey hput] at hl
          rw [hinstalled] at hinst
          simp only [List.mem_append] at hinst
          have hown := (hinst.resolve_right hkey).resolve_right hput
          exact hkey (List.mem_map_of_mem (f := Prod.fst) ((hheld.held k hop).mp ⟨hown, hl⟩))
    · refine ⟨?_, hold k hop hmem⟩
      rw [hinstalled]
      exact List.mem_append_right _ (List.mem_map_of_mem (f := Prod.fst) hmem)
    · rw [hinstalled] at hk
      simp only [List.mem_append, not_or] at hk
      rw [hkept k hk.2 hk.1.2, hheld.untouched k hk.1.1]

omit [DecidableEq δ] hprev hnext hstate hheld hfail hread hrestore in
/-- A batch that stops at one of the policy's own lines has deleted nothing. -/
theorem deletedBefore_own {h : Host δ} (hn : n ≤ next.routes.length) :
    deletedBefore dest env h next n = [] := by
  unfold deletedBefore
  rw [Nat.sub_eq_zero_of_le hn, List.take_zero, List.filterMap_nil]

omit hprev hnext hstate hheld hfail hread hrestore in
/-- There, it takes nothing back: what it put in has to be the previous policy's. -/
theorem takesBack_own (hn : n ≤ next.routes.length) :
    TakesBack dest env h prev next n ↔ ∀ k ∈ putKeysBefore dest next n, k ∈ keysOf dest prev := by
  unfold TakesBack
  rw [deletedBefore_own dest hn]
  simp only [List.count_nil, Nat.not_lt_zero, false_iff]
  constructor
  · intro hback k hput
    by_contra hkey
    exact hback k (.inl hput) hkey hput
  · intro hown k _ hkey hput
    exact hkey (hown k hput)

end

/-! ### What nobody names

A route whose destination no later script names is touched by no later batch, and by no restore. -/

section

variable {δ : Type} (dest : String → Option δ) [DecidableEq δ] (d : δ)

/-- A script has a line about a destination. -/
def Names (script : String) : Prop := ∃ line ∈ lines script, dest (routeDest line) = some d

/-- The policy has routes in words, and none to the destination. -/
def Avoids (ir : IR) : Prop := ∀ r ∈ ir.routes, InWords r ∧ dest r.destination.string ≠ some d

variable {dest d}

omit [DecidableEq δ] in
theorem not_names_of_avoids {ir : IR} (h : Avoids dest d ir) :
    ¬ Names dest d (Iproute.Render ir) := by
  rintro ⟨line, hline, hnamed⟩
  unfold Iproute.Render at hline
  rw [lines_unlines, List.flatMap_map, List.mem_flatMap] at hline
  obtain ⟨r, hr, hline⟩ := hline
  obtain ⟨hwords, hne⟩ := h r hr
  rw [lines_line hwords, List.mem_singleton] at hline
  rw [hline, routeDest_line hwords] at hnamed
  exact hne hnamed

omit [DecidableEq δ] in
/-- What a batch deletes, the state file names. -/
theorem names_of_mem_staleDests {prev config t : String} (h : t ∈ staleDests prev config)
    (ht : dest t = some d) : Names dest d prev := by
  obtain ⟨line, hline, hd⟩ := List.mem_flatMap.mp h
  dsimp only at hd
  split at hd
  · cases hd
  · obtain rfl := List.mem_singleton.mp hd
    exact ⟨line, hline, ht⟩

/-- The state file after an `Apply`: as it was, the script, or what a failed write left. -/
theorem Apply_state {env : ApplyEnv} {config : String} {h h' : Host δ}
    {result : Except ApplyError Unit} (heq : Apply dest env config h = (result, h')) :
    h'.state = h.state ∨ h'.state = some config ∨ ∃ err, env.write = some (err, h'.state) := by
  unfold Apply at heq
  split at heq
  · cases heq
    exact .inl rfl
  · dsimp only at heq
    split at heq
    · cases heq
      exact .inl rfl
    · split at heq
      · next err left hwrite =>
          cases heq
          exact .inr (.inr ⟨err, hwrite⟩)
      · cases heq
        exact .inr (.inl rfl)

/-- **One `Apply`** of a policy without routes to the destination, from a state file that does not
name it either. -/
theorem Apply_avoids {env : ApplyEnv} {ir : IR} {h h' : Host δ} {result : Except ApplyError Unit}
    (havoids : Avoids dest d ir) (hstate : ¬ Names dest d (readState env h))
    (heq : Apply dest env (Iproute.Render ir) h = (result, h')) {k : RouteKey δ}
    (hk : k.dest = d) : h'.table.lookup k = h.table.lookup k := by
  have hwords : ∀ r ∈ ir.routes, InWords r := fun r hr => (havoids r hr).1
  have habout : ∀ c, some c ∈ statements dest (batchScript (readState env h) (Iproute.Render ir)) →
      c.about ≠ k.dest := by
    intro c hc hd
    rw [statements_batch dest hwords] at hc
    rcases List.mem_append.mp hc with hc | hc
    · obtain ⟨r, hr, hread⟩ := List.mem_map.mp hc
      obtain ⟨x, hx, rfl⟩ := Option.map_eq_some_iff.mp hread
      obtain ⟨d', hd', rfl⟩ := Option.map_eq_some_iff.mp hx
      exact (havoids r hr).2 (by rw [hd', ← hk, ← hd]; rfl)
    · obtain ⟨t, ht, hread⟩ := List.mem_map.mp hc
      obtain ⟨d', hd', rfl⟩ := Option.map_eq_some_iff.mp hread
      exact hstate (names_of_mem_staleDests ht (by rw [hd', ← hk, ← hd]; rfl))
  rcases Apply_cases dest heq with ⟨err, -, rfl⟩ | ⟨cs, hexec, -, hcases⟩
  · rfl
  · refine lookup_execAll_of_about hexec fun c hc => habout c ?_
    rcases hcases with ⟨n, -, -, hperformed⟩ | ⟨hperformed, -⟩
    · exact hperformed.mem hc
    · exact hperformed.mem hc

/-- The call says nothing about the destination: its policy has no route to it, a state file that
cannot be read to its end gives no line about it, and neither does one that cannot be written. -/
structure Unnamed (dest : String → Option δ) (d : δ) (H : IdentityHash) (call : ApplyCall) :
    Prop where
  policy : ∀ ir, Compile H call.policy = .ok ir → Avoids dest d ir
  read : ∀ part, call.env.read = some part → ¬ Names dest d part
  write : ∀ err left, call.env.write = some (err, left) → ¬ Names dest d (left.getD "")

/-- **What nobody names stays.** Take any run of the engine in which neither the state file at the
start nor any call says anything about a destination. Whatever fails, the routes to it are never
touched, however they came there. -/
theorem orphan_stays {H : IdentityHash} {h : Host δ} (hstate : ¬ Names dest d (h.state.getD ""))
    {calls : List ApplyCall} (hcalls : ∀ call ∈ calls, Unnamed dest d H call) {k : RouteKey δ}
    (hk : k.dest = d) :
    (final (applyPolicy dest H) h calls).table.lookup k = h.table.lookup k := by
  have hrun := @final_invariant _ _ _ (applyPolicy dest H)
    (fun h' => ¬ Names dest d (h'.state.getD "") ∧ h'.table.lookup k = h.table.lookup k)
    (Unnamed dest d H) ?_ _ _ hcalls ⟨hstate, rfl⟩
  · exact hrun.2
  · rintro call h' hcall ⟨hstate', hlookup⟩
    unfold applyPolicy
    cases hcompile : Compile H call.policy with
    | error err => exact ⟨hstate', hlookup⟩
    | ok ir =>
        dsimp only
        have havoids := hcall.policy ir hcompile
        cases happly : Apply dest call.env (Iproute.Render ir) h' with
        | mk result h'' =>
            have hstate'' : ¬ Names dest d (readState call.env h') := by
              unfold readState
              cases hread : call.env.read with
              | none => exact hstate'
              | some part => exact hcall.read part hread
            refine ⟨?_, (Apply_avoids havoids hstate'' happly hk).trans hlookup⟩
            rcases Apply_state happly with hsame | hnew | ⟨err, hleft⟩
            · rwa [hsame]
            · rw [hnew]
              exact not_names_of_avoids havoids
            · exact hcall.write err _ hleft

end

/-! ### A route that stays behind -/

/-- The network of the kept route, and another one. -/
def keptNet : Prefix := foreignKey.dest
def strayNet : Prefix := ⟨.v4 0xac100000, 12, by decide, rfl⟩

/-- The keys of their routes, in a kernel that takes every text for the destination it writes. -/
def keptKey : RouteKey String := ⟨"10.0.0.0/8", 0⟩
def strayKey : RouteKey String := ⟨"172.16.0.0/12", 0⟩

/-- Routes to networks over one interface. -/
def routesVia (nets : List Prefix) : IR where
  routes := nets.map fun destination =>
    { destination, via := none, interface := "eth0", metric := 0 }

/-- A host that holds the kept route. -/
def keptHost : Host String where
  table := AList.insert keptKey ⟨none, some "eth0"⟩ ∅
  state := some (Iproute.Render (routesVia [keptNet]))
  installed := [keptKey]

/-- The second line of a batch fails. -/
def secondFails : ApplyEnv := { fault := fun n => n == 1 }

theorem stray_words : (∀ r ∈ (routesVia [strayNet, keptNet]).routes, InWords r) ∧
    routesOf some (routesVia [keptNet]) = [(keptKey, ⟨none, some "eth0"⟩)] ∧
    putStatements some (routesVia [strayNet, keptNet]) =
      [some (.replace strayKey ⟨none, some "eth0"⟩), some (.replace keptKey ⟨none, some "eth0"⟩)] ∧
    putKeysBefore some (routesVia [strayNet, keptNet]) 1 = [strayKey] := by
  decide +kernel

theorem kept_words : ∀ r ∈ (routesVia [keptNet]).routes, InWords r := fun r hr =>
  stray_words.1 r (List.mem_cons_of_mem _ hr)

theorem eq_mk_of_fst {α β : Type} {x : α × β} {a : α} (h : x.1 = a) : x = (a, x.2) := by
  rw [← h]

/-- The batch of both routes, the other one first, stops at its second line. -/
theorem stray_fails : ∃ h₁, Apply some secondFails
    (Iproute.Render (routesVia [strayNet, keptNet])) keptHost = (.error (.line 1), h₁) := by
  refine ⟨_, eq_mk_of_fst ?_⟩
  rw [Apply_result some rfl rfl stray_words.1, stray_words.2.2.1]
  rfl

/-- The restore succeeds. -/
theorem stray_restores {h₁ : Host String} (hstate : h₁.state = keptHost.state) :
    ∃ h₂, Apply some {} (Iproute.Render (routesVia [keptNet])) h₁ = (.ok (), h₂) := by
  refine ⟨_, eq_mk_of_fst ?_⟩
  have hread : readState {} h₁ = Iproute.Render (routesVia [keptNet]) := by
    unfold readState
    rw [hstate]
    rfl
  rw [Apply_result some rfl rfl kept_words, hread, staleDests_self]
  rfl

theorem keptHost_converged : Converged some ∅ keptHost (routesVia [keptNet]) := by
  have hroutes := stray_words.2.1
  refine ⟨fun r hr => ?_, fun k hop => ?_, fun k hk => ?_⟩
  · by_contra hnone
    rw [Option.not_isSome_iff_eq_none] at hnone
    unfold routesOf at hroutes
    rw [List.mem_singleton.mp hr] at hnone
    simp [routesVia, hnone] at hroutes
  · rw [hroutes, List.mem_singleton]
    simp only [keptHost, List.mem_singleton]
    constructor
    · rintro ⟨rfl, hl⟩
      rw [AList.lookup_insert] at hl
      cases hl
      rfl
    · rintro ⟨⟩
      exact ⟨rfl, AList.lookup_insert _⟩
  · exact AList.lookup_insert_ne fun h => hk (List.mem_singleton.mpr h)

/-- The restore brings the kept route back, and leaves the other one. -/
theorem failed_apply_restored_stray : ∃ h₁ h₂,
    Apply some secondFails (Iproute.Render (routesVia [strayNet, keptNet])) keptHost =
      (.error (.line 1), h₁) ∧
    Apply some {} (Iproute.Render (routesVia [keptNet])) h₁ = (.ok (), h₂) ∧
    h₂.table.lookup keptKey = some ⟨none, some "eth0"⟩ ∧
    ¬ Converged some ∅ h₂ (routesVia [keptNet]) := by
  obtain ⟨hnext, hroutes, -, hput⟩ := stray_words
  obtain ⟨h₁, hfail⟩ := stray_fails
  obtain ⟨h₂, hrestore⟩ := stray_restores (Apply_line some hnext hfail).1
  obtain ⟨hold, hiff⟩ := failed_apply_restored some kept_words hnext rfl keptHost_converged hfail
    rfl hrestore
  refine ⟨h₁, h₂, hfail, hrestore, hold _ _ (by rw [hroutes]; exact List.mem_singleton_self _),
    fun hconv => ?_⟩
  have hkey := (takesBack_own some (by decide)).mp (hiff.mp hconv) strayKey
    (by rw [hput]; exact List.mem_singleton_self _)
  unfold keysOf at hkey
  rw [hroutes] at hkey
  exact absurd hkey (by decide)

instance (d : String) (ir : IR) : Decidable (Avoids some d ir) :=
  inferInstanceAs (Decidable (∀ r ∈ ir.routes, InWords r ∧ some r.destination.string ≠ some d))

/-- A route that stayed behind stays through the coming and going of others. -/
theorem orphan_stays_stray :
    (final (applyPolicy some .zero) ⟨AList.insert strayKey ⟨none, some "eth0"⟩ ∅,
        none, []⟩ [networksPolicy ["10.0.0.0/8"], networksPolicy []]).table.lookup strayKey =
      some ⟨none, some "eth0"⟩ := by
  have hcompile : ([networksPolicy ["10.0.0.0/8"], networksPolicy []].all fun call =>
      (Compile .zero call.policy).toOption.all fun ir =>
        decide (Avoids some strayKey.dest ir)) = true := by decide +kernel
  have hplain : ∀ call ∈ [networksPolicy ["10.0.0.0/8"], networksPolicy []], call.env = {} := by
    simp [networksPolicy]
  refine (orphan_stays (d := strayKey.dest) ?_
    (fun call hcall => ⟨fun ir hir => ?_, fun part hread => ?_, fun err left hwrite => ?_⟩)
    rfl).trans (AList.lookup_insert _)
  · rintro ⟨line, hline, -⟩
    cases hline
  · have hcall := List.all_eq_true.mp hcompile call hcall
    rw [hir] at hcall
    exact of_decide_eq_true hcall
  · rw [hplain call hcall] at hread
    cases hread
  · rw [hplain call hcall] at hwrite
    cases hwrite

end Phragma.Engines.Routes
