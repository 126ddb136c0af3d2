import Phragma.Go.Strings

/-!
# Phragma.Engines.Supervisor

The engine supervisor (`internal/engines/engine.go`): validate and apply a set of
rendered artifacts across all engines, restoring the previous artifacts when an
engine fails.

Engines are other processes, so how they answer is not the supervisor's to know. An
`Outcomes` value gives the answer of every call as a function of the calls made
before it; all results hold for every such value, that is for every pattern of
failures. What the supervisor controls is which calls it makes and in which order,
and `applyLoop_cases` says exactly that: either all calls were made and succeeded, or
a stretch of engines was switched, the next one failed, and the restore calls follow.

An engine **holds** the config of its last successful call. The main results are
`Apply_all_or_nothing` and the two lemmas the commit path uses, `holds_of_applied`
and `holds_of_restored`.
-/

namespace Phragma.Engines

open Go

variable {Config : Type}

/-! ### Artifacts, calls and outcomes -/

/-- A rendered artifact set (`map[string][]byte`), keyed by engine name. -/
abbrev Artifacts (Config : Type) := List (String × Config)

/-- Map lookup. -/
def Artifacts.get (a : Artifacts Config) (name : String) : Option Config := a.lookup name

/-- One call of an engine's `Apply`, with the error text it returned, if any. -/
structure Call (Config : Type) where
  engine : String
  config : Config
  error : Option String
  deriving DecidableEq, Repr

/-- How the engines answer: the error, if any, of validating a config, and of applying
one after the given earlier calls. -/
structure Outcomes (Config : Type) where
  validate : String → Config → Option String
  apply : List (Call Config) → String → Config → Option String

/-- `Supervisor`: the engine names, in apply order. -/
structure Supervisor where
  engines : List String
  deriving DecidableEq, Repr

/-! ### The operations -/

/-- `Supervisor.Validate`: the first validation error. Engines without an artifact are
skipped. -/
def Supervisor.Validate (s : Supervisor) (o : Outcomes Config) (artifacts : Artifacts Config) :
    Except String Unit :=
  match s.engines.findSome? fun e => (artifacts.get e).bind fun cfg =>
      (o.validate e cfg).map fun err => "engine " ++ e ++ ": validation failed: " ++ err with
  | some err => .error err
  | none => .ok ()

/-- The annotation of an error with a restore failure. -/
def restoreFailed (engine rerr : String) : String :=
  "RESTORE FAILED for engine " ++ engine ++ ": " ++ rerr

theorem restoreFailed_contains (engine rerr : String) :
    Contains (restoreFailed engine rerr) "RESTORE FAILED" := by
  have h : Contains "RESTORE FAILED for engine " "RESTORE FAILED" := by decide
  unfold restoreFailed
  exact contains_of_append (contains_of_append (contains_of_append h))

/-- One restore: re-apply the previous config, if the engine has one. -/
def restoreOne (o : Outcomes Config) (prev : Artifacts Config) (e : String)
    (err : String) (log : List (Call Config)) : String × List (Call Config) :=
  match prev.get e with
  | none => (err, log)
  | some prevCfg =>
      match o.apply log e prevCfg with
      | none => (err, log ++ [⟨e, prevCfg, none⟩])
      | some rerr => (err ++ "; " ++ restoreFailed e rerr, log ++ [⟨e, prevCfg, some rerr⟩])

/-- Restores, in the order given. -/
def restoreLoop (o : Outcomes Config) (prev : Artifacts Config) :
    List String → String → List (Call Config) → String × List (Call Config)
  | [], err, log => (err, log)
  | e :: es, err, log =>
      let r := restoreOne o prev e err log
      restoreLoop o prev es r.1 r.2

/-- The loop of `Supervisor.Apply` over the engines left, with the engines switched so
far and the calls made so far. The failing engine is restored first, then the switched
ones, last switched first. -/
def applyLoop (o : Outcomes Config) (next prev : Artifacts Config) :
    List String → List String → List (Call Config) → Option String × List (Call Config)
  | [], _, log => (none, log)
  | e :: es, applied, log =>
      match next.get e with
      | none => applyLoop o next prev es applied log
      | some cfg =>
          match o.apply log e cfg with
          | none => applyLoop o next prev es (applied ++ [e]) (log ++ [⟨e, cfg, none⟩])
          | some err =>
              let r := restoreLoop o prev (e :: applied.reverse)
                ("engine " ++ e ++ ": apply failed: " ++ err) (log ++ [⟨e, cfg, some err⟩])
              (some r.1, r.2)

/-- `Supervisor.Apply`: the error, if any, and the calls made. -/
def Supervisor.Apply (s : Supervisor) (o : Outcomes Config) (next prev : Artifacts Config) :
    Option String × List (Call Config) :=
  applyLoop o next prev s.engines [] []

/-! ### What engines hold -/

/-- The effect of one call on what the engines hold: a failed call changes nothing. -/
def hold (st : String → Option Config) (c : Call Config) : String → Option Config :=
  if c.error = none then fun e => if e = c.engine then some c.config else st e else st

/-- What the engines hold after some calls. -/
def holds (st : String → Option Config) (calls : List (Call Config)) : String → Option Config :=
  calls.foldl hold st

@[simp] theorem holds_nil (st : String → Option Config) : holds st [] = st := rfl

@[simp] theorem holds_cons (st : String → Option Config) (c : Call Config)
    (cs : List (Call Config)) : holds st (c :: cs) = holds (hold st c) cs := rfl

theorem holds_append (st : String → Option Config) (as bs : List (Call Config)) :
    holds st (as ++ bs) = holds (holds st as) bs := List.foldl_append

/-- An engine that is not called holds what it held. -/
theorem holds_of_not_called {e : String} : ∀ {calls : List (Call Config)}
    {st : String → Option Config}, (∀ c ∈ calls, c.engine ≠ e) → holds st calls e = st e := by
  intro calls
  induction calls with
  | nil => intro st _; rfl
  | cons c cs ih =>
      intro st h
      rw [holds_cons, ih (fun c' hc' => h c' (List.mem_cons_of_mem _ hc'))]
      have hne : e ≠ c.engine := (h c List.mem_cons_self).symm
      by_cases hok : c.error = none
      · simp only [hold, if_pos hok, if_neg hne]
      · simp only [hold, if_neg hok]

/-- An engine all of whose calls were successful and carried one config holds that
config, provided there was a call. -/
theorem holds_of_called {e : String} {cfg : Config} : ∀ {calls : List (Call Config)}
    {st : String → Option Config},
    (∀ c ∈ calls, c.engine = e → c.error = none ∧ c.config = cfg) →
    (∃ c ∈ calls, c.engine = e) → holds st calls e = some cfg := by
  intro calls
  induction calls with
  | nil => intro st _ hex; simp at hex
  | cons c cs ih =>
      intro st hall hex
      rw [holds_cons]
      by_cases hcs : ∃ c' ∈ cs, c'.engine = e
      · exact ih (fun c' hc' => hall c' (List.mem_cons_of_mem _ hc')) hcs
      · rw [holds_of_not_called (fun c' hc' he => hcs ⟨c', hc', he⟩)]
        obtain ⟨c', hc', he⟩ := hex
        rcases List.mem_cons.mp hc' with rfl | hc'
        · obtain ⟨hok, hcfg⟩ := hall c' List.mem_cons_self he
          simp [hold, hok, he, hcfg]
        · exact absurd ⟨c', hc', he⟩ hcs

/-! ### What the loops do -/

/-- Successful calls that give each of the engines its artifact. -/
def okCalls (next : Artifacts Config) (es : List String) : List (Call Config) :=
  es.filterMap fun e => (next.get e).map fun cfg => ⟨e, cfg, none⟩

theorem okCalls_cons_none {next : Artifacts Config} {e : String} {es : List String}
    (h : next.get e = none) : okCalls next (e :: es) = okCalls next es := by
  simp [okCalls, h]

theorem okCalls_cons_some {next : Artifacts Config} {e : String} {es : List String} {cfg : Config}
    (h : next.get e = some cfg) : okCalls next (e :: es) = ⟨e, cfg, none⟩ :: okCalls next es := by
  simp [okCalls, h]

theorem mem_okCalls {next : Artifacts Config} {es : List String} {c : Call Config} :
    c ∈ okCalls next es ↔ c.engine ∈ es ∧ next.get c.engine = some c.config ∧ c.error = none := by
  simp only [okCalls, List.mem_filterMap, Option.map_eq_some_iff]
  constructor
  · rintro ⟨e, he, cfg, hcfg, rfl⟩
    exact ⟨he, hcfg, rfl⟩
  · rintro ⟨he, hcfg, herr⟩
    refine ⟨c.engine, he, c.config, hcfg, ?_⟩
    cases c
    simp_all

/-- The engines among `es` that have an artifact, in order. -/
def switched (next : Artifacts Config) (es : List String) : List String :=
  es.filter fun e => (next.get e).isSome

/-- **What `Apply` does.** Either every engine with an artifact was given it and none
failed; or the engines before some `e` were, `e` itself failed, and the restore loop
ran over `e` and the switched engines in reverse. -/
theorem applyLoop_cases (o : Outcomes Config) (next prev : Artifacts Config) :
    ∀ (es applied : List String) (log : List (Call Config)),
      applyLoop o next prev es applied log = (none, log ++ okCalls next es) ∨
      ∃ pre e post cfg err, es = pre ++ e :: post ∧ next.get e = some cfg ∧
        o.apply (log ++ okCalls next pre) e cfg = some err ∧
        applyLoop o next prev es applied log =
          let r := restoreLoop o prev (e :: (applied ++ switched next pre).reverse)
            ("engine " ++ e ++ ": apply failed: " ++ err)
            (log ++ okCalls next pre ++ [⟨e, cfg, some err⟩])
          (some r.1, r.2) := by
  intro es
  induction es with
  | nil => intro applied log; exact .inl (by simp [applyLoop, okCalls])
  | cons e es ih =>
      intro applied log
      cases hcfg : next.get e with
      | none =>
          -- No artifact: the engine is skipped.
          have hloop : applyLoop o next prev (e :: es) applied log =
              applyLoop o next prev es applied log := by simp only [applyLoop, hcfg]
          rcases ih applied log with h | ⟨pre, e', post, cfg, err, hes, hget, hfail, h⟩
          · exact .inl (by rw [hloop, h, okCalls_cons_none hcfg])
          · refine .inr ⟨e :: pre, e', post, cfg, err, by rw [hes]; rfl, hget, ?_, ?_⟩
            · rwa [okCalls_cons_none hcfg]
            · rw [hloop, h, okCalls_cons_none hcfg]
              simp [switched, hcfg]
      | some cfg =>
          cases hout : o.apply log e cfg with
          | some err =>
              refine .inr ⟨[], e, es, cfg, err, rfl, hcfg, by simpa [okCalls] using hout, ?_⟩
              simp [applyLoop, hcfg, hout, switched, okCalls]
          | none =>
              have hloop : applyLoop o next prev (e :: es) applied log =
                  applyLoop o next prev es (applied ++ [e]) (log ++ [⟨e, cfg, none⟩]) := by
                simp only [applyLoop, hcfg, hout]
              have happ : ∀ l : List String, log ++ okCalls next (e :: l) =
                  log ++ [⟨e, cfg, none⟩] ++ okCalls next l := by
                intro l
                rw [okCalls_cons_some hcfg, List.append_cons]
              rcases ih (applied ++ [e]) (log ++ [⟨e, cfg, none⟩]) with
                h | ⟨pre, e', post, cfg', err, hes, hget, hfail, h⟩
              · exact .inl (by rw [hloop, h, happ])
              · refine .inr ⟨e :: pre, e', post, cfg', err, by rw [hes]; rfl, hget, ?_, ?_⟩
                · rwa [happ]
                · rw [hloop, h, happ]
                  simp [switched, hcfg]

/-- One restore makes at most one call, whose failure it names. -/
theorem restoreOne_spec (o : Outcomes Config) (prev : Artifacts Config) (e err : String)
    (log : List (Call Config)) :
    ∃ added : List (Call Config), (restoreOne o prev e err log).2 = log ++ added ∧
      Contains (restoreOne o prev e err log).1 err ∧
      (∀ c ∈ added, c.engine = e ∧ prev.get e = some c.config) ∧
      ((prev.get e).isSome → ∃ c ∈ added, c.engine = e) ∧
      ∀ c ∈ added, ∀ rerr, c.error = some rerr →
        Contains (restoreOne o prev e err log).1 (restoreFailed c.engine rerr) := by
  cases hp : prev.get e with
  | none => exact ⟨[], by simp [restoreOne, hp, Contains]⟩
  | some prevCfg =>
      cases hout : o.apply log e prevCfg with
      | none => exact ⟨[⟨e, prevCfg, none⟩], by simp [restoreOne, hp, hout, Contains]⟩
      | some rerr =>
          have hone : restoreOne o prev e err log =
              (err ++ "; " ++ restoreFailed e rerr, log ++ [⟨e, prevCfg, some rerr⟩]) := by
            simp only [restoreOne, hp, hout]
          refine ⟨[⟨e, prevCfg, some rerr⟩], by rw [hone], ?_, by simp, by simp, ?_⟩
          · rw [hone, String.append_assoc]
            exact contains_self_append _ _
          · intro c hc rerr' herr
            obtain rfl := List.mem_singleton.mp hc
            obtain rfl := Option.some.inj herr
            rw [hone]
            exact contains_append_right (List.infix_refl _)

/-- **What restoring does.** Every engine with a previous config is called with it, the
calls only add to the error, and every failure among them is named there. -/
theorem restoreLoop_spec (o : Outcomes Config) (prev : Artifacts Config) :
    ∀ (es : List String) (err : String) (log : List (Call Config)),
      ∃ restores, (restoreLoop o prev es err log).2 = log ++ restores ∧
        Contains (restoreLoop o prev es err log).1 err ∧
        (∀ c ∈ restores, c.engine ∈ es ∧ prev.get c.engine = some c.config) ∧
        (∀ e ∈ es, (prev.get e).isSome → ∃ c ∈ restores, c.engine = e) ∧
        ∀ c ∈ restores, ∀ rerr, c.error = some rerr →
          Contains (restoreLoop o prev es err log).1 (restoreFailed c.engine rerr) := by
  intro es
  induction es with
  | nil => intro err log; exact ⟨[], by simp [restoreLoop, Contains]⟩
  | cons e es ih =>
      intro err log
      obtain ⟨added, hlog, herr, hmem, hex, hfail⟩ := restoreOne_spec o prev e err log
      obtain ⟨restores, hlog', herr', hmem', hex', hfail'⟩ :=
        ih (restoreOne o prev e err log).1 (restoreOne o prev e err log).2
      refine ⟨added ++ restores, ?_, herr.trans herr', ?_, ?_, ?_⟩
      · rw [restoreLoop, hlog', hlog, List.append_assoc]
      · intro c hc
        rcases List.mem_append.mp hc with hc | hc
        · obtain ⟨he, hp⟩ := hmem c hc
          exact ⟨by simp [he], by rw [he, hp]⟩
        · exact ⟨List.mem_cons_of_mem _ (hmem' c hc).1, (hmem' c hc).2⟩
      · intro e' he' hsome
        rcases List.mem_cons.mp he' with rfl | he'
        · obtain ⟨c, hc, h⟩ := hex hsome
          exact ⟨c, List.mem_append_left _ hc, h⟩
        · obtain ⟨c, hc, h⟩ := hex' e' he' hsome
          exact ⟨c, List.mem_append_right _ hc, h⟩
      · intro c hc rerr hrerr
        rcases List.mem_append.mp hc with hc | hc
        · exact (hfail c hc rerr hrerr).trans herr'
        · exact hfail' c hc rerr hrerr

/-! ### Success and restore -/

/-- After a successful `Apply` the listed engines hold their new artifact, and the ones
without a new artifact hold what they held. -/
theorem holds_of_applied {next : Artifacts Config} {es : List String} {e : String}
    (he : e ∈ es) (st : String → Option Config) :
    holds st (okCalls next es) e = (next.get e).or (st e) := by
  cases hget : next.get e with
  | none =>
      rw [Option.none_or]
      apply holds_of_not_called
      intro c hc hce
      have := (mem_okCalls.mp hc).2.1
      rw [hce, hget] at this
      exact absurd this (by simp)
  | some cfg =>
      rw [Option.some_or]
      apply holds_of_called
      · intro c hc hce
        obtain ⟨-, hcfg, hok⟩ := mem_okCalls.mp hc
        rw [hce, hget] at hcfg
        exact ⟨hok, (Option.some.inj hcfg).symm⟩
      · exact ⟨⟨e, cfg, none⟩, mem_okCalls.mpr ⟨he, hget, rfl⟩, rfl⟩

/-- After restore calls that all succeeded, an engine that was called holds its previous
artifact. -/
theorem holds_of_restored {prev : Artifacts Config} {restores : List (Call Config)} {e : String}
    (hprev : ∀ c ∈ restores, prev.get c.engine = some c.config)
    (hok : ∀ c ∈ restores, c.error = none) (he : ∃ c ∈ restores, c.engine = e)
    (st : String → Option Config) : holds st restores e = prev.get e := by
  obtain ⟨c, hc, hce⟩ := he
  have hget : prev.get e = some c.config := hce ▸ hprev c hc
  rw [hget]
  apply holds_of_called _ ⟨c, hc, hce⟩
  intro c' hc' hce'
  have h := hprev c' hc'
  rw [hce', hget] at h
  exact ⟨hok c' hc', (Option.some.inj h).symm⟩

/-- A successful `Apply` gave every engine its artifact. -/
theorem Apply_applied {s : Supervisor} {o : Outcomes Config} {next prev : Artifacts Config}
    {calls : List (Call Config)} (h : s.Apply o next prev = (none, calls)) :
    calls = okCalls next s.engines := by
  unfold Supervisor.Apply at h
  rcases applyLoop_cases o next prev s.engines [] [] with
    h' | ⟨pre, e, post, cfg, err, -, -, -, h'⟩
  · rw [h'] at h
    exact (Prod.mk.inj h).2.symm
  · rw [h'] at h
    cases (Prod.mk.inj h).1

/-- **A failed `Apply`, taken apart**: engines were switched up to one that failed, and then
that one and the switched ones were restored where they have a previous artifact. -/
theorem Apply_failed {s : Supervisor} {o : Outcomes Config} {next prev : Artifacts Config}
    {err : String} {calls : List (Call Config)} (h : s.Apply o next prev = (some err, calls)) :
    ∃ pre e post cfg reason restores,
      s.engines = pre ++ e :: post ∧ next.get e = some cfg ∧
      calls = okCalls next pre ++ ⟨e, cfg, some reason⟩ :: restores ∧
      (∀ c ∈ restores, (c.engine = e ∨ c.engine ∈ switched next pre) ∧
        prev.get c.engine = some c.config) ∧
      (∀ e', e' = e ∨ e' ∈ switched next pre → (prev.get e').isSome →
        ∃ c ∈ restores, c.engine = e') ∧
      ∀ c ∈ restores, ∀ rerr, c.error = some rerr → Contains err (restoreFailed c.engine rerr) := by
  unfold Supervisor.Apply at h
  rcases applyLoop_cases o next prev s.engines [] [] with
    h' | ⟨pre, e, post, cfg, reason, hes, hcfg, -, h'⟩
  · rw [h'] at h
    cases (Prod.mk.inj h).1
  · obtain ⟨restores, hlog, -, hmem, hex, hnamed⟩ :=
      restoreLoop_spec o prev (e :: ([] ++ switched next pre).reverse)
        ("engine " ++ e ++ ": apply failed: " ++ reason)
        ([] ++ okCalls next pre ++ [⟨e, cfg, some reason⟩])
    rw [h'] at h
    obtain ⟨herr, hcalls⟩ := Prod.mk.inj h
    rw [Option.some.inj herr] at hnamed
    rw [hlog] at hcalls
    simp only [List.nil_append, List.mem_cons, List.mem_reverse] at hmem hex hcalls
    refine ⟨pre, e, post, cfg, reason, restores, hes, hcfg, ?_, hmem, hex, hnamed⟩
    rw [← hcalls, List.append_assoc, List.singleton_append]

/-- Every call after a failed one succeeded. -/
def RestoresSucceed (calls : List (Call Config)) : Prop :=
  ∀ pre c post, calls = pre ++ c :: post → c.error.isSome → ∀ r ∈ post, r.error = none

/-- **A failed `Apply` whose restores succeed restores.** An engine that was called holds its
previous artifact. -/
theorem holds_of_failed {s : Supervisor} {o : Outcomes Config} {next prev : Artifacts Config}
    {err : String} {calls : List (Call Config)} (h : s.Apply o next prev = (some err, calls))
    (hkeys : ∀ e ∈ s.engines, (next.get e).isSome → (prev.get e).isSome)
    (hok : RestoresSucceed calls) (before : String → Option Config) :
    ∀ c ∈ calls, holds before calls c.engine = prev.get c.engine := by
  obtain ⟨pre, e, post, cfg, reason, restores, hes, hcfg, rfl, hmem, hex, -⟩ := Apply_failed h
  intro c hc
  rw [List.append_cons, holds_append]
  refine holds_of_restored (fun r hr => (hmem r hr).2)
    (hok (okCalls next pre) _ restores rfl rfl) ?_ _
  -- every engine called is the failing one, a switched one, or was restored
  rcases List.mem_append.mp hc with hc | hc
  · obtain ⟨hcpre, hcget, -⟩ := mem_okCalls.mp hc
    have hsome : (next.get c.engine).isSome := by rw [hcget]; rfl
    refine hex c.engine (.inr (List.mem_filter.mpr ⟨hcpre, hsome⟩)) ?_
    exact hkeys c.engine (by rw [hes]; exact List.mem_append_left _ hcpre) hsome
  · rcases List.mem_cons.mp hc with rfl | hc
    · refine hex e (.inl rfl) (hkeys e ?_ (by rw [hcfg]; rfl))
      rw [hes]
      exact List.mem_append_right _ List.mem_cons_self
    · exact ⟨c, hc, rfl⟩

/-- Where the calls before the first failure succeeded, what follows any failure is among the
calls after the first. -/
theorem mem_of_split_failed {applies restores pre post : List (Call Config)}
    {failing c r : Call Config} (happ : ∀ c ∈ applies, c.error = none)
    (h : applies ++ failing :: restores = pre ++ c :: post) (hc : c.error.isSome)
    (hr : r ∈ post) : r ∈ restores := by
  rcases List.append_eq_append_iff.mp h with ⟨l, rfl, hl⟩ | ⟨l, rfl, hl⟩
  · cases l with
    | nil =>
        obtain ⟨-, rfl⟩ := List.cons.inj hl
        exact hr
    | cons x l =>
        obtain ⟨-, rfl⟩ := List.cons.inj hl
        exact List.mem_append_right _ (List.mem_cons_of_mem _ hr)
  · cases l with
    | nil =>
        obtain ⟨-, rfl⟩ := List.cons.inj hl
        exact hr
    | cons x l =>
        obtain ⟨rfl, -⟩ := List.cons.inj hl
        have := happ c (List.mem_append_right _ List.mem_cons_self)
        rw [this] at hc
        cases hc

/-- **`Apply` is all-or-nothing.** Let the engines be distinct and let every listed
engine with a new artifact have a previous one. If `Apply` succeeds, every such engine
holds its new config. Otherwise some engine `e` failed, and: when the error mentions no
failed restore, every engine that was called holds its previous config; no engine after
`e` was called; and the calls made after the failing one are the restores, each of
whose failures the error names. -/
theorem Apply_all_or_nothing (s : Supervisor) (o : Outcomes Config)
    (next prev : Artifacts Config) (hnodup : s.engines.Nodup)
    (hkeys : ∀ e ∈ s.engines, (next.get e).isSome → (prev.get e).isSome)
    (before : String → Option Config) :
    match s.Apply o next prev with
    | (none, calls) =>
        ∀ e ∈ s.engines, ∀ cfg, next.get e = some cfg → holds before calls e = some cfg
    | (some err, calls) =>
        ∃ pre e post applies failing restores,
          s.engines = pre ++ e :: post ∧ calls = applies ++ failing :: restores ∧
          failing.engine = e ∧ failing.error.isSome ∧ (∀ c ∈ applies, c.error = none) ∧
          (¬ Contains err "RESTORE FAILED" →
            ∀ c ∈ calls, holds before calls c.engine = prev.get c.engine) ∧
          (∀ e' ∈ post, ∀ c ∈ calls, c.engine ≠ e') ∧
          ∀ c ∈ restores, ∀ rerr, c.error = some rerr →
            Contains err ("RESTORE FAILED for engine " ++ c.engine ++ ": " ++ rerr) := by
  cases h : s.Apply o next prev with
  | mk result calls =>
    cases result with
    | none =>
        intro e he cfg hcfg
        rw [Apply_applied h, holds_of_applied he, hcfg, Option.some_or]
    | some err =>
        have hheld := holds_of_failed h hkeys
        obtain ⟨pre, e, post, cfg, reason, restores, hes, hcfg, rfl, hmem, -, hnamed⟩ :=
          Apply_failed h
        refine ⟨pre, e, post, okCalls next pre, ⟨e, cfg, some reason⟩, restores, hes, rfl, rfl, rfl,
          fun c hc => (mem_okCalls.mp hc).2.2, ?_, ?_, hnamed⟩
        · intro hquiet
          refine hheld ?_ before
          -- no failed restore is named, so none failed
          have hok : ∀ r ∈ restores, r.error = none := by
            intro r hr
            cases hrerr : r.error with
            | none => rfl
            | some rerr =>
                have hfailed := restoreFailed_contains r.engine rerr
                exact absurd (hfailed.trans (hnamed r hr rerr hrerr)) hquiet
          intro before' c after' hsplit herr r hr
          exact hok r (mem_of_split_failed (fun c hc => (mem_okCalls.mp hc).2.2) hsplit herr hr)
        · intro e' he' c hc hce
          rw [hes, List.nodup_append] at hnodup
          obtain ⟨-, hnd, hdisj⟩ := hnodup
          have hne : e' ≠ e := fun heq => (List.nodup_cons.mp hnd).1 (heq ▸ he')
          have hnotpre : e' ∉ pre := fun hpre =>
            hdisj e' hpre e' (List.mem_cons_of_mem _ he') rfl
          have hcalled : c.engine = e ∨ c.engine ∈ pre := by
            rcases List.mem_append.mp hc with hc | hc
            · exact .inr (mem_okCalls.mp hc).1
            · rcases List.mem_cons.mp hc with rfl | hc
              · exact .inl rfl
              · exact (hmem c hc).1.imp_right fun hx => (List.mem_filter.mp hx).1
          rw [hce] at hcalled
          rcases hcalled with h | h
          · exact hne h
          · exact hnotpre h

/-- Engines of which `routes` refuses the config `new`. -/
def routesRefuseNew : Outcomes String where
  validate _ _ := none
  apply _ e cfg := if e = "routes" ∧ cfg = "new" then some "boom" else none

/-- Two engines, the second of which fails: both hold the previous config again. -/
theorem Apply_all_or_nothing_routes_fail :
    (Supervisor.Apply ⟨["nftables", "routes"]⟩ routesRefuseNew
        [("nftables", "new"), ("routes", "new")] [("nftables", "old"), ("routes", "old")]).2 ≠ [] ∧
    ∀ c ∈ (Supervisor.Apply ⟨["nftables", "routes"]⟩ routesRefuseNew
        [("nftables", "new"), ("routes", "new")] [("nftables", "old"), ("routes", "old")]).2,
      holds (fun _ => none) (Supervisor.Apply ⟨["nftables", "routes"]⟩ routesRefuseNew
        [("nftables", "new"), ("routes", "new")] [("nftables", "old"), ("routes", "old")]).2
        c.engine = some "old" := by
  refine ⟨by decide, ?_⟩
  have h := Apply_all_or_nothing ⟨["nftables", "routes"]⟩ routesRefuseNew
    [("nftables", "new"), ("routes", "new")] [("nftables", "old"), ("routes", "old")]
    (by decide) (by decide) (fun _ => none)
  obtain ⟨-, -, -, -, -, -, -, -, -, -, -, hrestored, -⟩ := h
  intro c hc
  refine (hrestored (by decide) c hc).trans ?_
  revert c
  decide

end Phragma.Engines
