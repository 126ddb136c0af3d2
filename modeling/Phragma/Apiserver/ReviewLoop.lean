import Phragma.Apiserver.StageObservation
import Phragma.Appid.Classify

/-!
# Phragma.Apiserver.ReviewLoop

**From the review queue into the policy and back**: what promoting an App-ID observation does to
flows of its engine signal when they are classified again.

The definitions of the policy come before those of the content package
(`internal/apiserver/appid.go`), and where there is a usable engine signal, signals alone decide. So
from a promotion on the policy decides about such flows, whatever the content package says of them.
Without a usable signal the ports decide, and never with the confidence that the review asks for:
no definition takes such a flow off the queue (`promotion_settles`).
-/

namespace Phragma.Apiserver

open Lib Go Policy Appid Store

/-! ### Definitions in force -/

/-- The definition of an application. Its name is what `displayName` of `flows.go` shows. -/
def applicationDefinition (app : Application) : SourcedDefinition where
  id := app.name
  name := if app.displayName ≠ "" then app.displayName else app.name
  category := app.category
  engineSignals := app.engineSignals
  ports := appPortMatches app

/-- `appDefinitionsFromPolicy`: the applications of a policy as definitions. -/
def appDefinitionsFromPolicy (p : Phragma.Policy) : List SourcedDefinition :=
  p.applications.map applicationDefinition

section Review

variable (lib : Library)

/-- A flow as it is read when the given definitions are in force. -/
def classified (definitions : List SourcedDefinition) (flow : ObservedFlow) : ObservedFlow :=
  let app := ClassifyWithDefinitions lib flow.engineSignal flow.protocol flow.destPort definitions
  { flow with
    appID := app.id
    appName := app.name
    appCategory := app.category
    appConfidence := app.confidence
    appEvidence := app.evidence }

/-- Why a flow is reviewed, if it is, under a policy and the definitions of a content package. -/
def reviewKind (p : Phragma.Policy) (content : List SourcedDefinition) (threshold : UInt32)
    (flow : ObservedFlow) : Option ObservationKind :=
  classifyObservation lib (classified lib (appDefinitionsFromPolicy p ++ content) flow) threshold

/-- An application that settles a flow with the given signal: its name is none of those that stand
for an unknown application, and nothing in the evidence reads as a conflict. -/
structure Settles (signal : String) (app : Application) : Prop where
  named : normalize lib app.name ≠ "" ∧ normalize lib app.name ≠ "unknown"
  quiet : evidenceConflicts lib (signalEvidence signal (applicationDefinition app)) = false

end Review

variable {lib : Library}

/-! ### What an observation suggests -/

/-- What an observation suggests by signal: its own, if it is usable. -/
def SuggestsOwn (obs : Observation) : Prop :=
  usableSignal obs.engineSignal = true → obs.suggestedApplication.engineSignals = [obs.engineSignal]

theorem suggestsOwn_newObservation (kind : ObservationKind) (flow : ObservedFlow) :
    SuggestsOwn (newObservation lib kind flow) := by
  intro husable
  have husable : usableSignal (normalize lib flow.engineSignal) = true := husable
  simp only [usableSignal, Bool.and_eq_true, bne_iff_ne] at husable
  show (suggestBase lib flow).2 = [normalize lib flow.engineSignal]
  unfold suggestBase
  rw [if_pos ⟨husable.1.1, husable.1.2, husable.2⟩]

theorem suggestsOwn_mergeFlow {obs : Observation} (h : SuggestsOwn obs) (flow : ObservedFlow) :
    SuggestsOwn (mergeFlow obs flow) := by
  have hsame : (mergeFlow obs flow).engineSignal = obs.engineSignal ∧
      (mergeFlow obs flow).suggestedApplication = obs.suggestedApplication := by
    unfold mergeFlow noteLast noteFirst
    constructor <;> split <;> split <;> rfl
  unfold SuggestsOwn at h ⊢
  rw [hsame.1, hsame.2]
  exact h

/-- Every observation that is built suggests its own signal. -/
theorem suggestsOwn_of_mem {iterate : Iteration} {flows : List ObservedFlow}
    {opts : ObservationOptions} {obs : Observation}
    (h : obs ∈ BuildObservations lib iterate flows opts) : SuggestsOwn obs := by
  have hmem : obs ∈ (iterate.order ((flows.foldl (addFlow lib opts.threshold) []).map
      Prod.snd)).insertionSort fun a b => observationLess b a = false := by
    unfold BuildObservations at h
    dsimp only at h
    split at h
    · exact List.mem_of_mem_take h
    · exact h
  rw [List.mem_insertionSort, (iterate.perm _).mem_iff, foldl_addFlow] at hmem
  obtain ⟨g, hg, rfl⟩ := List.mem_map.mp hmem
  have hfirst : ∀ a : ObservationKind × ObservedFlow, SuggestsOwn (newObservation lib a.1 a.2) :=
    fun a => suggestsOwn_newObservation a.1 a.2
  have hstep : ∀ (obs : Observation) (a : ObservationKind × ObservedFlow), SuggestsOwn obs →
      SuggestsOwn (mergeFlow obs a.2) := fun _ a hown => suggestsOwn_mergeFlow hown a.2
  exact invariant_groupAll hfirst hstep hg

/-! ### What a promotion stages -/

/-- What the checks of a promotion settle: an observation of the queue, and the application that it
suggests. -/
theorem promotion_suggested {observations : List Observation}
    {req : StageAppIdObservationRequest} {r : Promotion}
    (h : promotion (.ok observations) req = .ok r) (hown : req.applicationOverride = none) :
    r.observation ∈ observations ∧
      appIDPromotionApplication r.observation none = .ok r.application ∧
      (r.mode = .defineOnly ∨ r.mode = .defineAndDrop) := by
  unfold promotion at h
  simp only at h
  split at h
  · cases h
  · split at h
    · cases h
    · obtain ⟨mode, hm, h⟩ := bind_ok.mp h
      split at h
      · cases h
      · obtain ⟨obs', hobs', h⟩ := bind_ok.mp h
        cases hobs'
        obtain ⟨obs, hobs, h⟩ := bind_ok.mp h
        split at h
        · cases h
        · obtain ⟨app, happ, h⟩ := bind_ok.mp h
          split at h
          · cases h
          · cases h
            refine ⟨?_, hown ▸ happ, ?_⟩
            · unfold findAppIDObservation at hobs
              split at hobs
              · next o hfind =>
                  cases hobs
                  exact List.mem_of_find?_eq_some hfind
              · cases hobs
            · unfold appIDStageMode at hm
              split at hm <;> cases hm
              · exact .inl rfl
              · exact .inl rfl
              · exact .inr rfl

/-- Staging adds the application, if it is not there, and no other. -/
theorem staged_applications {base : Phragma.Policy} {obs : Observation} {app : Application}
    {mode : StageMode} {reason : String} {staged : StagedAppIDObservation}
    (hmode : mode = .defineOnly ∨ mode = .defineAndDrop)
    (h : stageAppIDObservationCandidate base obs app mode reason = .ok staged) :
    staged.application = app ∧ app ∈ staged.policy.applications ∧
      ∃ extra, staged.policy.applications = base.applications ++ extra ∧ ∀ x ∈ extra, x = app := by
  rcases hmode with rfl | rfl
  · unfold stageAppIDObservationCandidate at h
    obtain ⟨⟨p, reused⟩, happ, h⟩ := bind_ok.mp h
    cases h
    obtain ⟨extra, hp, hmem, hextra⟩ := stageApplication_ok happ
    exact ⟨rfl, hmem, extra, by rw [hp], hextra⟩
  · obtain ⟨rfl, p, src, dst, srcObject, dstObject, -, -, hprepared, hpolicy⟩ :=
      stageAppIDObservationCandidate_ok h
    have happs : staged.policy.applications = p.applications := by
      rcases hpolicy with ⟨-, -, hpolicy⟩ | ⟨-, hpolicy⟩
      · rw [hpolicy]
      · rw [hpolicy]
    obtain ⟨addrs, apps, hp, -, hextra⟩ := hprepared.next
    exact ⟨rfl, happs ▸ hprepared.application, apps, by rw [happs, hp], hextra⟩

/-- The application of a promotion has the signal of the observation, if it is usable. -/
theorem promoted_signals {obs : Observation} {app : Application}
    (h : appIDPromotionApplication obs none = .ok app) (hown : SuggestsOwn obs)
    (husable : usableSignal obs.engineSignal = true) :
    app.engineSignals = [trimSpace obs.engineSignal] := by
  have hsuggested := hown husable
  unfold appIDPromotionApplication at h
  simp only at h
  split at h
  · cases h
  · split at h
    · cases h
    · cases h
      show (protoApplication obs.suggestedApplication).engineSignals.map trimSpace = _
      unfold protoApplication
      rw [hsuggested]
      rfl

/-! ### What decides about a flow -/

/-- Without a usable signal a flow is reviewed, whatever is defined. -/
theorem reviewed_of_unusable {flow : ObservedFlow} {threshold : UInt32} (h : 65 < threshold)
    (hunusable : usableSignal (normalize lib flow.engineSignal) = false)
    (p : Phragma.Policy) (content : List SourcedDefinition) :
    (reviewKind lib p content threshold flow).isSome = true := by
  have hconfidence : (classified lib (appDefinitionsFromPolicy p ++ content) flow).appConfidence ≤
      65 := by
    show (ClassifyWithDefinitions lib flow.engineSignal flow.protocol flow.destPort
      (appDefinitionsFromPolicy p ++ content)).confidence ≤ 65
    unfold ClassifyWithDefinitions
    simp only [hunusable, Bool.false_eq_true, if_false]
    split
    · exact UInt32.le_refl 65
    · unfold classifyPort
      split
      · exact (by decide : (60 : UInt32) ≤ 65)
      · exact (by decide : (10 : UInt32) ≤ 65)
  unfold reviewKind classifyObservation
  split
  · rfl
  · split
    · rfl
    · rw [if_pos (UInt32.lt_of_le_of_lt hconfidence h)]
      rfl

/-- Where an application of the policy lists the signal of a flow, the first one that does decides
about it. -/
theorem reviewKind_of_listed {flow : ObservedFlow} {threshold : UInt32} (h : threshold ≤ 92)
    {p : Phragma.Policy} {app : Application}
    (husable : usableSignal (normalize lib flow.engineSignal) = true)
    (hfind : p.applications.find? (fun a => listsSignal lib (normalize lib flow.engineSignal)
      (applicationDefinition a)) = some app) (content : List SourcedDefinition) :
    reviewKind lib p content threshold flow = none ↔
      Settles lib (normalize lib flow.engineSignal) app := by
  have hmatch : customSignalMatch lib (appDefinitionsFromPolicy p)
      (normalize lib flow.engineSignal) = some (applicationDefinition app) := by
    show (p.applications.map applicationDefinition).find? _ = _
    rw [List.find?_map]
    exact congrArg (Option.map applicationDefinition) hfind
  have hdeciding : (decidingDefinition lib flow.engineSignal flow.protocol flow.destPort
      (appDefinitionsFromPolicy p)).isSome = true := by
    unfold decidingDefinition
    rw [if_pos husable, hmatch]
    rfl
  have hresult : ClassifyWithDefinitions lib flow.engineSignal flow.protocol flow.destPort
      (appDefinitionsFromPolicy p ++ content) =
      result (definitionAppDef (applicationDefinition app).toDefinition) 92
        (signalEvidence (normalize lib flow.engineSignal) (applicationDefinition app)) := by
    -- the policy decides, so the content package is not asked
    rw [classify_append hdeciding]
    unfold ClassifyWithDefinitions
    simp only [husable, if_true, hmatch]
  have hconfidence : ¬ (92 : UInt32) < threshold := UInt32.not_lt.mpr h
  unfold reviewKind classifyObservation classified
  simp only [hresult, result, definitionAppDef]
  constructor
  · intro hnone
    split at hnone
    · cases hnone
    · next hname =>
        split at hnone
        · cases hnone
        · next hquiet =>
            refine ⟨?_, Bool.eq_false_iff.mpr hquiet⟩
            simpa [applicationDefinition] using hname
  · intro hsettles
    rw [if_neg (by simpa [applicationDefinition] using hsettles.named),
      if_neg (Bool.eq_false_iff.mp hsettles.quiet), if_neg hconfidence]

/-- The application that a promotion leaves for a signal: the first of the policy that lists it, or
else the promoted one. -/
def decidingApplication (lib : Library) (signal : String) (base : Phragma.Policy)
    (promoted : Application) : Application :=
  (base.applications.find? fun a => listsSignal lib signal (applicationDefinition a)).getD promoted

/-- The first application that lists a signal, once the promoted one is there. -/
theorem find_promoted {signal : String} {base : Phragma.Policy} {app : Application}
    {extra : List Application} (hlists : listsSignal lib signal (applicationDefinition app) = true)
    (hmem : app ∈ base.applications ++ extra) (hextra : ∀ x ∈ extra, x = app) :
    (base.applications ++ extra).find? (fun a =>
      listsSignal lib signal (applicationDefinition a)) =
        some (decidingApplication lib signal base app) := by
  unfold decidingApplication
  rw [List.find?_append]
  cases hfind : base.applications.find? fun a =>
      listsSignal lib signal (applicationDefinition a) with
  | some first => rfl
  | none =>
      have hnew : app ∈ extra := (List.mem_append.mp hmem).resolve_left fun hold =>
        List.find?_eq_none.mp hfind app hold hlists
      cases hextra' : extra.find? fun a => listsSignal lib signal (applicationDefinition a) with
      | none => exact absurd hlists (List.find?_eq_none.mp hextra' app hnew)
      | some x =>
          rw [hextra x (List.mem_of_find?_eq_some hextra')]
          rfl

/-! ### The loop -/

/-- **What a promotion settles.** Take any observation of the queue whose suggestion is promoted,
in either mode, and any flow with its engine signal. If the signal is usable, the candidate decides
about the flow, whatever the content package defines: it is not reviewed any more exactly when the
first application that lists the signal settles it. If the signal is not usable, the flow is
reviewed under every policy and every content package. -/
theorem promotion_settles {S : Server} {env : Env} {iterate : Iteration}
    {flows : List ObservedFlow} {opts : ObservationOptions} {req : StageAppIdObservationRequest}
    {db db' : DB} {resp : StageAppIdObservationResponse} {base : Phragma.Policy}
    {threshold : UInt32} (hbase : candidateOrRunningPolicy db = .ok base)
    (hown : req.applicationOverride = none)
    (hcall : S.StageAppIdObservation env (.ok (BuildObservations lib iterate flows opts)) req db =
      (.ok resp, db')) (hvalid : resp.validation = [])
    (hnormal : normalize lib (trimSpace resp.observation.engineSignal) =
      resp.observation.engineSignal) (hlow : 65 < threshold) (hhigh : threshold ≤ 92) :
    ∃ cand, db'.candidate = some cand ∧
      (usableSignal resp.observation.engineSignal = true →
        ∀ (content : List SourcedDefinition) (flow : ObservedFlow),
          normalize lib flow.engineSignal = resp.observation.engineSignal →
          (reviewKind lib cand content threshold flow = none ↔
            Settles lib resp.observation.engineSignal
              (decidingApplication lib resp.observation.engineSignal base resp.application))) ∧
      (usableSignal resp.observation.engineSignal = false →
        ∀ (p : Phragma.Policy) (content : List SourcedDefinition) (flow : ObservedFlow),
          normalize lib flow.engineSignal = resp.observation.engineSignal →
          (reviewKind lib p content threshold flow).isSome = true) := by
  obtain ⟨r, base', staged, hr, hbase', hstaged, -, hdb, hobs, happ⟩ :=
    StageAppIdObservation_ok hcall hvalid
  obtain rfl : base = base' := Except.ok.inj (hbase.symm.trans hbase')
  obtain ⟨hmem, hpromoted, hmode⟩ := promotion_suggested hr hown
  obtain ⟨hsame, hstored, extra, happs, hextra⟩ := staged_applications hmode hstaged
  rw [hobs] at hnormal ⊢
  rw [happ, hsame]
  refine ⟨_, hdb, fun husable content flow hsignal => ?_,
    fun hunusable p content flow hsignal => ?_⟩
  · -- a usable signal is listed by the application that was staged
    have hlists : listsSignal lib r.observation.engineSignal
        (applicationDefinition r.application) = true := by
      unfold listsSignal applicationDefinition
      rw [promoted_signals hpromoted (suggestsOwn_of_mem hmem) husable]
      simp [hnormal]
    have hcand : (normalizeIdentities S.H staged.policy).applications =
        base.applications ++ extra := happs
    have hfind := find_promoted hlists (happs ▸ hstored) hextra
    rw [← hcand, ← hsignal] at hfind
    rw [← hsignal] at husable ⊢
    exact reviewKind_of_listed hhigh husable hfind content
  · -- another one no definition can list
    exact reviewed_of_unusable hlow (hsignal ▸ hunusable) p content

/-! ### A promotion -/

/-- The library on ASCII texts, with the digest of one key. -/
def acmeLibrary : Library :=
  { asciiLibrary with
    sha256 := fun _ => [
      0xd6, 0x69, 0x73, 0x85, 0x6f, 0xe4, 0xbe, 0x7b, 0x5a, 0x14, 0x1d,
      0x9e, 0x70, 0xf3, 0x20, 0x27, 0xee, 0xf1, 0x5b, 0x4a, 0x5f, 0x15,
      0xca, 0x8f, 0xf5, 0x89, 0x47, 0x30, 0x08, 0x1e, 0x11, 0xa8] }

/-- A flow with an engine signal that nothing lists. -/
def acmeFlow : ObservedFlow where
  timestamp := 7
  srcIP := "10.0.0.5"
  destIP := "203.0.113.7"
  destPort := 4443
  protocol := "TCP"
  engineSignal := "Acme-RPC"

/-- The queue with that flow. -/
def acmeQueue : List Observation :=
  BuildObservations acmeLibrary ⟨id, List.Perm.refl⟩ [classified acmeLibrary [] acmeFlow] {}

/-- Its promotion. -/
def acmeRequest : StageAppIdObservationRequest where
  queueId := "d66973856fe4be7b"
  mode := .defineOnly
  reason := "internal service"

/-- The call, on an empty candidate. -/
def acmeCall : Except Status StageAppIdObservationResponse × DB :=
  sampleServer.StageAppIdObservation calmEnv (.ok acmeQueue) acmeRequest { candidate := some {} }

/-- The application that is promoted. -/
def acmeApplication : Application where
  name := "acme-rpc"
  displayName := "Acme Rpc"
  category := "business-app"
  engineSignals := ["acme-rpc"]
  ports := [{ protocol := .tcp, ports := [{ start := 4443 }] }]

/-- The flow is reviewed because it is unknown, and after the promotion not any more. -/
theorem promotion_settles_acme :
    reviewKind acmeLibrary {} [] 70 acmeFlow = some .unknown ∧
      ∃ resp db' cand, acmeCall = (.ok resp, db') ∧ db'.candidate = some cand ∧
        reviewKind acmeLibrary cand [] 70 acmeFlow = none := by
  refine ⟨by decide +kernel, ?_⟩
  have houtcome : (acmeCall.1.toOption.map fun resp =>
      (resp.observation.engineSignal, resp.application, resp.validation)) =
        some ("acme-rpc", acmeApplication, []) := by decide +kernel
  cases hcall : acmeCall with
  | mk result db' =>
      rw [hcall] at houtcome
      cases result with
      | error e => cases houtcome
      | ok resp =>
          have hresp := Option.some.inj houtcome
          simp only [Prod.mk.injEq] at hresp
          obtain ⟨hsignal, happ, hvalid⟩ := hresp
          obtain ⟨cand, hcand, hsettles, -⟩ := @promotion_settles acmeLibrary sampleServer calmEnv
            ⟨id, List.Perm.refl⟩ [classified acmeLibrary [] acmeFlow] {} acmeRequest
            { candidate := some {} } db' resp {} 70 rfl rfl hcall hvalid
            (by rw [hsignal]; decide +kernel) (by decide) (by decide)
          refine ⟨resp, db', cand, rfl, hcand, (hsettles ?_ [] acmeFlow ?_).mpr ?_⟩
          · rw [hsignal]
            decide +kernel
          · rw [hsignal]
            decide +kernel
          · rw [hsignal, happ]
            exact ⟨by decide +kernel, by decide +kernel⟩

end Phragma.Apiserver
