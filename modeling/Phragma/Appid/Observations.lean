import Mathlib.Data.List.DropRight
import Mathlib.Data.List.Sort
import Mathlib.Data.String.Basic
import Mathlib.Data.Prod.Lex
import Phragma.Go.Text
import Phragma.Lib.Grouping

/-!
# Phragma.Appid.Observations

**App-ID review queues**: `BuildObservations` of `internal/appid/observations.go`.

Flows whose application is unknown, doubtful or contradicted are folded one by one into the
observation of their queue id, in the order they arrive, and the observations are sorted. Names and
samples are taken from the first or the newest flow of a queue; the queue ids, kinds, counters and
instants do not depend on the order of the flows (`buildObservations_perm`).
-/

namespace Phragma.Appid

open Go Lib

/-! ### Data

A review queue collects the flows that one person would judge together. -/

/-- An instant, in nanoseconds since the zero time. -/
abbrev Instant := Int

/-- `ObservationKind`: why a flow is reviewed. -/
inductive ObservationKind
  | unknown
  | lowConfidence
  | conflictingEvidence
  deriving DecidableEq, Repr

/-- The text of a kind. -/
def ObservationKind.text : ObservationKind → String
  | .unknown => "unknown"
  | .lowConfidence => "low_confidence"
  | .conflictingEvidence => "conflicting_evidence"

/-- `ObservedFlow`, but for the policy version, which is not read. -/
structure ObservedFlow where
  timestamp : Instant := 0
  srcIP : String := ""
  srcPort : Int := 0
  destIP : String := ""
  destPort : Int := 0
  protocol : String := ""
  engineSignal : String := ""
  engineSignalSource : String := ""
  appID : String := ""
  appName : String := ""
  appCategory : String := ""
  appConfidence : UInt32 := 0
  appEvidence : List String := []
  bytesToServer : UInt64 := 0
  bytesToClient : UInt64 := 0
  packets : UInt64 := 0
  flowID : String := ""

/-- `ObservationOptions`: how many observations to give, and from what confidence on an App-ID is
believed. -/
structure ObservationOptions where
  limit : Int := 0
  confidenceThreshold : UInt32 := 0

/-- `PortMatch`: a range of ports of a protocol. -/
structure PortMatch where
  protocol : String
  start : Nat
  «end» : Nat
  deriving DecidableEq, Repr

/-- `Definition`, but for its source, which is not set. -/
structure Definition where
  id : String
  name : String
  category : String
  engineSignals : List String
  ports : List PortMatch
  deriving DecidableEq, Repr

/-- `Observation`: one review queue, with the counters of its flows, a sample of them and the
definition that would settle it. -/
structure Observation where
  queueID : String
  kind : ObservationKind
  appID : String
  appName : String
  appCategory : String
  appConfidence : UInt32
  engineSignal : String
  engineSignalSource : String
  protocol : String
  destPort : Nat
  count : UInt64 := 0
  firstSeen : Instant := 0
  lastSeen : Instant := 0
  bytes : UInt64 := 0
  packets : UInt64 := 0
  sampleFlowID : String := ""
  sampleSrcIP : String := ""
  sampleSrcPort : Nat := 0
  sampleDestIP : String := ""
  appEvidence : List String := []
  suggestedApplication : Definition

/-- What the library computes by tables or at length: `strings.ToLower` and `strings.ToUpper`,
`strings.EqualFold`, and SHA-256. -/
structure Library where
  toLower : String → String
  toUpper : String → String
  equalFold : String → String → Bool
  sha256 : String → List UInt8

/-- `DefaultObservationConfidenceThreshold`: the confidence that is asked for by default. -/
def DefaultObservationConfidenceThreshold : UInt32 := 70

/-! ### Classification

A flow belongs to the queue of its kind, App-ID, engine signal, protocol and port. The queue id is a
digest of these. -/

section Functions

variable (lib : Library)

/-- `normalize`: a text as texts are compared. -/
def normalize (s : String) : String := lib.toLower (trimSpace s)

/-- `evidenceConflicts`: the test that the evidence speaks of a conflict. It is words that are
looked for. -/
def evidenceConflicts (evidence : List String) : Bool :=
  evidence.any fun item =>
    decide (Contains (lib.toLower item) "reduced confidence") ||
      decide (Contains (lib.toLower item) "conflicting") ||
      decide (Contains (lib.toLower item) "conflict")

/-- `classifyObservation`: why a flow is reviewed, if it is. -/
def classifyObservation (flow : ObservedFlow) (threshold : UInt32) : Option ObservationKind :=
  if normalize lib flow.appID = "" || normalize lib flow.appID = "unknown" then some .unknown
  else if evidenceConflicts lib flow.appEvidence then some .conflictingEvidence
  else if flow.appConfidence < threshold then some .lowConfidence
  else none

/-- `validPort`: a port, or zero for none. -/
def validPort (port : Int) : Nat := if port < 1 ∨ 65535 < port then 0 else port.toNat

/-- `observationKey`: what the flows of a queue have in common. -/
def observationKey (kind : ObservationKind) (flow : ObservedFlow) : String :=
  join [kind.text, normalize lib flow.appID, normalize lib flow.engineSignal,
    lib.toLower (trimSpace flow.protocol), decimal (validPort flow.destPort)] "|"

/-- `stableQueueID`: the start of the digest of a key. -/
def stableQueueID (key : String) : String :=
  String.ofList (((lib.sha256 key).flatMap fun b => hexByte b.toNat).take 16)

/-- `rankObservation`: the kinds in the order they are shown in. -/
def rankObservation : ObservationKind → Nat
  | .conflictingEvidence => 0
  | .unknown => 1
  | .lowConfidence => 2

/-- `stringOr`: a text, or what stands for a blank one. -/
def stringOr (value fallback : String) : String :=
  if trimSpace value = "" then fallback else trimSpace value

/-- `engineSignalSource`: where the signal of a flow comes from. -/
def engineSignalSource (flow : ObservedFlow) : String :=
  if trimSpace flow.engineSignalSource ≠ "" then trimSpace flow.engineSignalSource
  else if normalize lib flow.engineSignal ≠ "" then "suricata.app_proto"
  else ""

/-- A loop of `mergeEvidence`: the items that are neither empty nor there already. -/
def appendEvidence (out : List String) (items : List String) : List String :=
  items.foldl (fun out item => if item = "" ∨ item ∈ out then out else out ++ [item]) out

/-- `mergeEvidence`: the evidence of two flows, each item once. -/
def mergeEvidence (existing incoming : List String) : List String :=
  appendEvidence (appendEvidence [] existing) incoming

/-! ### The suggested definition

The suggestion is made of the first flow of a queue. Its id is brought into the form that `Validate`
asks for. -/

/-- `isLowerAlnum`: the characters that an id may begin and end with. -/
def isLowerAlnum (c : Char) : Bool := ('a' ≤ c && c ≤ 'z') || ('0' ≤ c && c ≤ '9')

/-- The loop of `sanitizeDefinitionID`: a run of other characters becomes one dash. -/
def sanitizeLoop : Bool → List Char → List Char
  | _, [] => []
  | lastDash, c :: cs =>
      if isLowerAlnum c || c == '_' || c == '-' then c :: sanitizeLoop false cs
      else if lastDash then sanitizeLoop true cs
      else '-' :: sanitizeLoop true cs

/-- `strings.TrimRight` of dashes and underscores. -/
def trimRightDashes (s : List Char) : List Char := s.rdropWhile fun c => c == '-' || c == '_'

/-- The end of `sanitizeDefinitionID`, on a text that is not empty. -/
def frameID (out : List Char) : List Char :=
  let out := if out.head?.all isLowerAlnum then out else "app-".toList ++ out
  if out.getLast?.all isLowerAlnum then out else trimRightDashes out ++ ['1']

/-- `sanitizeDefinitionID`: a text as an id, as far as anything of it is left. -/
def sanitizeDefinitionID (value : String) : String :=
  let out := trim ['-', '_'] (sanitizeLoop false (lib.toLower (trimSpace value)).toList)
  let out := if 63 < out.length then trim ['-', '_'] (out.take 63) else out
  if out = [] then "" else String.ofList (frameID out)

/-- The loop of `strings.FieldsFunc` at dashes and underscores. -/
def dashFields : List Char → List Char → List (List Char)
  | word, [] => if word = [] then [] else [word]
  | word, c :: cs =>
      if c == '-' || c == '_' then (if word = [] then [] else [word]) ++ dashFields [] cs
      else dashFields (word ++ [c]) cs

/-- `titleFromID`: an id as a name. -/
def titleFromID (id : String) : String :=
  let parts := dashFields [] id.toList
  if parts = [] then "Custom App"
  else join (parts.map fun part =>
    lib.toUpper (String.ofList (part.take 1)) ++ String.ofList (part.drop 1)) " "

/-- The base of the suggested id, and the suggested signals. -/
def suggestBase (flow : ObservedFlow) : String × List String :=
  let signal := normalize lib flow.engineSignal
  let proto := lib.toLower (trimSpace flow.protocol)
  let port := validPort flow.destPort
  if signal ≠ "" ∧ signal ≠ "unknown" ∧ signal ≠ "failed" then (signal, [signal])
  else if normalize lib flow.appID ≠ "" ∧ normalize lib flow.appID ≠ "unknown" then
    (if 0 < port then normalize lib flow.appID ++ "-" ++ decimal port
      else normalize lib flow.appID, [])
  else if 0 < port then (proto ++ "-" ++ decimal port ++ "-app", [])
  else ("custom-app", [])

/-- `suggestDefinition`: a definition by the signal of a flow and, if it has one, by its port. -/
def suggestDefinition (flow : ObservedFlow) (kind : ObservationKind) : Definition :=
  let signal := normalize lib flow.engineSignal
  let proto := lib.toLower (trimSpace flow.protocol)
  let port := validPort flow.destPort
  let category := sanitizeDefinitionID lib flow.appCategory
  let category := if category = "" ∨ category = "unknown" then "business-app" else category
  let id := sanitizeDefinitionID lib (suggestBase lib flow).1
  let name := trimSpace flow.appName
  let name := if name = "" ∨ lib.equalFold name "unknown" then titleFromID lib id else name
  let name := if kind = .unknown ∧ signal ≠ "" then titleFromID lib id else name
  { id, name, category
    engineSignals := (suggestBase lib flow).2
    ports := if (proto = "tcp" ∨ proto = "udp") ∧ 0 < port then [⟨proto, port, port⟩] else [] }

/-! ### Grouping

The loop over the flows keeps a map by queue id. It is `addToGroup` at what a flow starts and at
what it adds. -/

/-- The observation a flow starts. -/
def newObservation (kind : ObservationKind) (flow : ObservedFlow) : Observation where
  queueID := stableQueueID lib (observationKey lib kind flow)
  kind
  appID := stringOr flow.appID "unknown"
  appName := stringOr flow.appName "Unknown"
  appCategory := stringOr flow.appCategory "unknown"
  appConfidence := flow.appConfidence
  engineSignal := normalize lib flow.engineSignal
  engineSignalSource := engineSignalSource lib flow
  protocol := lib.toUpper (trimSpace flow.protocol)
  destPort := validPort flow.destPort
  suggestedApplication := suggestDefinition lib flow kind

/-- The test that a flow is the first one seen of an observation. -/
def seenEarlier (ts firstSeen : Instant) : Bool :=
  firstSeen == 0 || (ts != 0 && decide (ts < firstSeen))

/-- The test that a flow is the last one seen of an observation. -/
def seenLater (ts lastSeen : Instant) : Bool :=
  lastSeen == 0 || (ts != 0 && decide (lastSeen < ts))

/-- The counters and the evidence with one more flow. -/
def countFlow (obs : Observation) (flow : ObservedFlow) : Observation :=
  { obs with
    count := obs.count + 1
    bytes := obs.bytes + (flow.bytesToServer + flow.bytesToClient)
    packets := obs.packets + flow.packets
    appEvidence := mergeEvidence obs.appEvidence flow.appEvidence }

/-- The first instant with one more flow. -/
def noteFirst (obs : Observation) (flow : ObservedFlow) : Observation :=
  if seenEarlier flow.timestamp obs.firstSeen then { obs with firstSeen := flow.timestamp } else obs

/-- The last instant and the sample with one more flow. -/
def noteLast (obs : Observation) (flow : ObservedFlow) : Observation :=
  if seenLater flow.timestamp obs.lastSeen then
    { obs with
      lastSeen := flow.timestamp
      sampleFlowID := flow.flowID
      sampleSrcIP := flow.srcIP
      sampleSrcPort := validPort flow.srcPort
      sampleDestIP := flow.destIP
      appConfidence := flow.appConfidence
      appName := stringOr flow.appName obs.appName
      appCategory := stringOr flow.appCategory obs.appCategory }
  else obs

/-- A flow merged into an observation. -/
def mergeFlow (obs : Observation) (flow : ObservedFlow) : Observation :=
  noteLast (noteFirst (countFlow obs flow) flow) flow

/-- The body of the loop over the flows, on the map of observations by queue id. -/
def addFlow (threshold : UInt32) (groups : List (String × Observation)) (flow : ObservedFlow) :
    List (String × Observation) :=
  match classifyObservation lib flow threshold with
  | none => groups
  | some kind =>
      addToGroup (fun f : ObservationKind × ObservedFlow =>
          stableQueueID lib (observationKey lib f.1 f.2))
        (fun f => newObservation lib f.1 f.2) (fun obs f => mergeFlow obs f.2) groups (kind, flow)

/-- The comparison the observations are sorted by. -/
def observationLess (a b : Observation) : Bool :=
  if rankObservation a.kind ≠ rankObservation b.kind then
    decide (rankObservation a.kind < rankObservation b.kind)
  else if a.count ≠ b.count then decide (b.count < a.count)
  else if a.lastSeen ≠ b.lastSeen then decide (b.lastSeen < a.lastSeen)
  else decide (a.queueID < b.queueID)

/-- An iteration of a map: its entries, in some order. -/
structure Iteration where
  order : List Observation → List Observation
  perm : ∀ entries, (order entries).Perm entries

/-- The threshold of the options, or the default. -/
def ObservationOptions.threshold (opts : ObservationOptions) : UInt32 :=
  if opts.confidenceThreshold = 0 then DefaultObservationConfidenceThreshold
  else opts.confidenceThreshold

/-- `BuildObservations`: the queues of a list of flows, sorted and limited. The map is iterated in
an order that nothing promises. -/
def BuildObservations (iterate : Iteration) (flows : List ObservedFlow)
    (opts : ObservationOptions) : List Observation :=
  let groups := flows.foldl (addFlow lib opts.threshold) []
  let out := (iterate.order (groups.map Prod.snd)).insertionSort
    fun a b => observationLess b a = false
  if 0 < opts.limit ∧ opts.limit < out.length then out.take opts.limit.toNat else out

end Functions

/-! ### What does not depend on the order

Counters are sums, and the instants a minimum and a maximum, so merging commutes on them. Names and
samples are left out of the summary: they are those of the first or the newest flow. -/

/-- What an observation says of its flows as a whole. -/
structure Summary where
  queueID : String
  kind : ObservationKind
  count : UInt64
  bytes : UInt64
  packets : UInt64
  firstSeen : Instant
  lastSeen : Instant
  deriving DecidableEq, Repr

/-- The summary of an observation. -/
def Observation.summary (obs : Observation) : Summary :=
  ⟨obs.queueID, obs.kind, obs.count, obs.bytes, obs.packets, obs.firstSeen, obs.lastSeen⟩

/-- The earlier of two instants, the zero time being none. -/
def earlier (seen ts : Instant) : Instant := if seenEarlier ts seen then ts else seen

/-- The later of two instants, the zero time being none. -/
def later (seen ts : Instant) : Instant := if seenLater ts seen then ts else seen

/-- A flow merged into a summary. -/
def Summary.merge (s : Summary) (flow : ObservedFlow) : Summary where
  queueID := s.queueID
  kind := s.kind
  count := s.count + 1
  bytes := s.bytes + (flow.bytesToServer + flow.bytesToClient)
  packets := s.packets + flow.packets
  firstSeen := earlier s.firstSeen flow.timestamp
  lastSeen := later s.lastSeen flow.timestamp

theorem summary_mergeFlow (obs : Observation) (flow : ObservedFlow) :
    (mergeFlow obs flow).summary = obs.summary.merge flow := by
  have hfirst : ∀ obs : Observation, (noteFirst obs flow).summary =
      { obs.summary with firstSeen := earlier obs.firstSeen flow.timestamp } := by
    intro obs
    unfold noteFirst earlier
    split <;> rfl
  have hlast : ∀ obs : Observation, (noteLast obs flow).summary =
      { obs.summary with lastSeen := later obs.lastSeen flow.timestamp } := by
    intro obs
    unfold noteLast later
    split <;> rfl
  have hkept : (noteFirst (countFlow obs flow) flow).lastSeen = obs.lastSeen := by
    unfold noteFirst
    split <;> rfl
  rw [mergeFlow, hlast, hfirst, hkept]
  rfl

theorem earlier_right_comm (seen a b : Instant) :
    earlier (earlier seen a) b = earlier (earlier seen b) a := by
  unfold earlier seenEarlier
  grind

theorem later_right_comm (seen a b : Instant) :
    later (later seen a) b = later (later seen b) a := by
  unfold later seenLater
  grind

/-- **Flows are merged in any order.** -/
theorem Summary.merge_right_comm (s : Summary) (a b : ObservedFlow) :
    (s.merge a).merge b = (s.merge b).merge a := by
  unfold Summary.merge
  simp only [Summary.mk.injEq, true_and]
  refine ⟨?_, ?_, earlier_right_comm .., later_right_comm ..⟩
  · grind
  · grind

/-! ### Keys

Two kinds never share a key, since a key starts with its kind. So a queue has one kind, provided
that the digest tells the keys apart. -/

section Order

variable {lib : Library}

/-- The keys of the flows that are reviewed. -/
def observedKeys (lib : Library) (threshold : UInt32) (flows : List ObservedFlow) : Set String :=
  {key | ∃ flow ∈ flows, ∃ kind, classifyObservation lib flow threshold = some kind ∧
    key = observationKey lib kind flow}

/-- A key starts with its kind. -/
theorem kind_of_observationKey {kind kind' : ObservationKind} {flow flow' : ObservedFlow}
    (h : observationKey lib kind flow = observationKey lib kind' flow') : kind = kind' := by
  have hcut : ∀ (k : ObservationKind) (f : ObservedFlow), ∃ rest,
      cutRune '|' (observationKey lib k f).toList = some (k.text.toList, rest) := by
    intro k f
    have hbar : '|' ∉ k.text.toList := by cases k <;> decide
    have hkey : ∃ rest, (observationKey lib k f).toList = k.text.toList ++ '|' :: rest := by
      unfold observationKey join
      rw [String.intercalate_cons_cons, String.toList_append, String.toList_append,
        List.append_assoc]
      exact ⟨_, rfl⟩
    obtain ⟨rest, hkey⟩ := hkey
    exact ⟨rest, by rw [hkey, cutRune_append rest hbar]⟩
  obtain ⟨rest, hk⟩ := hcut kind flow
  obtain ⟨rest', hk'⟩ := hcut kind' flow'
  rw [h, hk', Option.some.injEq, Prod.mk.injEq] at hk
  have htext : kind'.text = kind.text := String.toList_inj.mp hk.1
  revert htext
  cases kind <;> cases kind' <;> decide

/-- The flows that are reviewed, with their kinds. -/
def reviewed (lib : Library) (threshold : UInt32) (flows : List ObservedFlow) :
    List (ObservationKind × ObservedFlow) :=
  flows.filterMap fun flow => (classifyObservation lib flow threshold).map fun kind => (kind, flow)

/-- The map of observations after the loop. -/
def observations (lib : Library) (items : List (ObservationKind × ObservedFlow)) :
    List (String × Observation) :=
  groupAll (fun f => stableQueueID lib (observationKey lib f.1 f.2))
    (fun f => newObservation lib f.1 f.2) (fun obs f => mergeFlow obs f.2) items

theorem foldl_addFlow (threshold : UInt32) (flows : List ObservedFlow) :
    flows.foldl (addFlow lib threshold) [] = observations lib (reviewed lib threshold flows) := by
  rw [observations, groupAll, reviewed, List.foldl_filterMap]
  congr 1
  funext groups flow
  unfold addFlow
  cases classifyObservation lib flow threshold <;> rfl

/-- The kind that a queue id stands for among the flows reviewed. -/
def kindOf (lib : Library) (items : List (ObservationKind × ObservedFlow)) (id : String) :
    ObservationKind :=
  ((items.find? fun a => decide (stableQueueID lib (observationKey lib a.1 a.2) = id)).map
    Prod.fst).getD .unknown

/-- Queue ids tell the kinds of the flows reviewed apart. -/
def KindsApart (lib : Library) (items : List (ObservationKind × ObservedFlow)) : Prop :=
  ∀ a ∈ items, ∀ b ∈ items, stableQueueID lib (observationKey lib a.1 a.2) =
    stableQueueID lib (observationKey lib b.1 b.2) → a.1 = b.1

theorem kindOf_queueID {items : List (ObservationKind × ObservedFlow)}
    (hkinds : KindsApart lib items) {a : ObservationKind × ObservedFlow} (ha : a ∈ items) :
    kindOf lib items (stableQueueID lib (observationKey lib a.1 a.2)) = a.1 := by
  unfold kindOf
  cases hfind : items.find? fun b => decide (stableQueueID lib (observationKey lib b.1 b.2) =
      stableQueueID lib (observationKey lib a.1 a.2)) with
  | none => exact absurd (decide_eq_true rfl) (List.find?_eq_none.mp hfind a ha)
  | some b =>
      have hfound := List.find?_some hfind
      exact hkinds b (List.mem_of_find?_eq_some hfind) a ha (of_decide_eq_true hfound)

/-- The observations of a list and of a permutation of it **have the same summaries**, in some
order. -/
theorem perm_observations {items items' : List (ObservationKind × ObservedFlow)}
    (hperm : items.Perm items') (hkinds : KindsApart lib items) :
    ((observations lib items).map fun g => (g.1, g.2.summary)).Perm
      ((observations lib items').map fun g => (g.1, g.2.summary)) := by
  have hfirst : ∀ a ∈ items, (newObservation lib a.1 a.2).summary =
      ⟨stableQueueID lib (observationKey lib a.1 a.2),
        kindOf lib items (stableQueueID lib (observationKey lib a.1 a.2)), 0, 0, 0, 0, 0⟩ := by
    intro a ha
    rw [kindOf_queueID hkinds ha]
    rfl
  unfold observations
  refine perm_groupAll Observation.summary (fun id => ⟨id, kindOf lib items id, 0, 0, 0, 0, 0⟩)
    (fun s f => s.merge f.2) hperm ?_ ?_ ?_
  · exact hfirst
  · exact fun obs f => summary_mergeFlow obs f.2
  · exact fun s a b => s.merge_right_comm a.2 b.2

/-- An observation is kept under its queue id. -/
theorem queueID_of_mem_observations {items : List (ObservationKind × ObservedFlow)}
    {g : String × Observation} (h : g ∈ observations lib items) : g.2.queueID = g.1 := by
  have hmerge : ∀ (obs : Observation) (f : ObservationKind × ObservedFlow),
      (mergeFlow obs f.2).queueID = obs.queueID := by
    intro obs f
    have hsummary := congrArg Summary.queueID (summary_mergeFlow obs f.2)
    exact hsummary
  have hkept : ∀ (l : List (ObservationKind × ObservedFlow)) (id : String),
      l.foldl (fun id _ => id) id = id := by
    intro l
    induction l with
    | nil => exact fun _ => rfl
    | cons a l ih => exact ih
  have hfirst : ∀ f ∈ items, (newObservation lib f.1 f.2).queueID =
      stableQueueID lib (observationKey lib f.1 f.2) := fun _ _ => rfl
  rw [observations] at h
  rw [view_of_mem_groupAll Observation.queueID (fun id => id) (fun id _ => id) hfirst hmerge h,
    hkept]

/-! ### The sorted list

No two observations compare as equal, for the queue id decides last. So the sorted list is the same
for every order of the map. -/

/-- What the observations are sorted by, in one order. -/
def sortKey (s : Summary) : ℕ ×ₗ ℕᵒᵈ ×ₗ ℤᵒᵈ ×ₗ String :=
  toLex (rankObservation s.kind, toLex (OrderDual.toDual s.count.toNat,
    toLex (OrderDual.toDual s.lastSeen, s.queueID)))

/-- **The sort key decides the comparison.** -/
theorem observationLess_iff (a b : Observation) :
    observationLess a b = true ↔ sortKey a.summary < sortKey b.summary := by
  unfold observationLess sortKey Observation.summary
  simp only [Prod.Lex.toLex_lt_toLex, OrderDual.toDual_lt_toDual, OrderDual.toDual_inj]
  by_cases hrank : rankObservation a.kind = rankObservation b.kind
  · by_cases hcount : a.count = b.count
    · by_cases hlast : a.lastSeen = b.lastSeen
      · simp [hrank, hcount, hlast]
      · simp [hrank, hcount, hlast]
    · have hne : a.count.toNat ≠ b.count.toNat := mt UInt64.toNat_inj.mp hcount
      simp [hrank, hcount, hne, UInt64.lt_iff_toNat_lt]
  · simp [hrank]

instance : Std.Total fun a b : Summary => sortKey a ≤ sortKey b :=
  ⟨fun a b => le_total (sortKey a) (sortKey b)⟩

instance : IsTrans Summary fun a b => sortKey a ≤ sortKey b :=
  ⟨fun _ _ _ => le_trans⟩

theorem queueID_of_sortKey {a b : Summary} (h : sortKey a = sortKey b) : a.queueID = b.queueID :=
  congrArg (fun k => (ofLex (ofLex (ofLex k).2).2).2) h

theorem observationLess_eq_false_iff (a b : Observation) :
    observationLess b a = false ↔ sortKey a.summary ≤ sortKey b.summary := by
  rw [← Bool.not_eq_true, observationLess_iff, not_lt]

/-- The options' limit on a list. -/
def ObservationOptions.limited (opts : ObservationOptions) (l : List Summary) : List Summary :=
  if 0 < opts.limit ∧ opts.limit < l.length then l.take opts.limit.toNat else l

/-- The summaries of the observations are **the sorted summaries of the map**. -/
theorem map_summary_BuildObservations (iterate : Iteration) (flows : List ObservedFlow)
    (opts : ObservationOptions) :
    (BuildObservations lib iterate flows opts).map Observation.summary =
      opts.limited ((((iterate.order ((observations lib (reviewed lib opts.threshold flows)).map
        Prod.snd))).map Observation.summary).insertionSort fun a b => sortKey a ≤ sortKey b) := by
  have hsort : ∀ l : List Observation,
      (l.insertionSort fun a b => observationLess b a = false).map Observation.summary =
        (l.map Observation.summary).insertionSort fun a b => sortKey a ≤ sortKey b := by
    intro l
    exact List.map_insertionSort _ _ _ _ fun a _ b _ => observationLess_eq_false_iff a b
  unfold BuildObservations ObservationOptions.limited
  rw [foldl_addFlow, ← hsort, List.length_map]
  simp only [apply_ite (List.map Observation.summary), List.map_take]

/-- The summaries of the observations of a list. -/
def summaries (lib : Library) (items : List (ObservationKind × ObservedFlow)) : List Summary :=
  (observations lib items).map fun g => g.2.summary

theorem perm_summaries_iterate (lib : Library) (iterate : Iteration)
    (items : List (ObservationKind × ObservedFlow)) :
    ((iterate.order ((observations lib items).map Prod.snd)).map Observation.summary).Perm
      (summaries lib items) := by
  have hperm := (iterate.perm ((observations lib items).map Prod.snd)).map Observation.summary
  rwa [List.map_map] at hperm

/-- No two observations have one queue id. -/
theorem queueID_inj {items : List (ObservationKind × ObservedFlow)} {a b : Summary}
    (ha : a ∈ summaries lib items) (hb : b ∈ summaries lib items) (h : a.queueID = b.queueID) :
    a = b := by
  have hnodup : ((summaries lib items).map Summary.queueID).Nodup := by
    have hkeys : (summaries lib items).map Summary.queueID =
        (observations lib items).map Prod.fst := by
      rw [summaries, List.map_map]
      exact List.map_congr_left fun g hg => queueID_of_mem_observations hg
    rw [hkeys, observations]
    exact nodup_groupAll items
  exact List.inj_on_of_nodup_map hnodup ha hb h

theorem kindsApart_reviewed {threshold : UInt32} {flows : List ObservedFlow}
    (hinj : Set.InjOn (stableQueueID lib) (observedKeys lib threshold flows)) :
    KindsApart lib (reviewed lib threshold flows) := by
  have hkey : ∀ a ∈ reviewed lib threshold flows,
      observationKey lib a.1 a.2 ∈ observedKeys lib threshold flows := by
    intro a ha
    obtain ⟨flow, hflow, hmap⟩ := List.mem_filterMap.mp ha
    obtain ⟨kind, hkind, rfl⟩ := Option.map_eq_some_iff.mp hmap
    exact ⟨flow, hflow, kind, hkind, rfl⟩
  intro a ha b hb h
  exact kind_of_observationKey (hinj (hkey a ha) (hkey b hb) h)

/-- **The order of the flows does not matter.** For every list of flows and every permutation of
it, and whatever the order in which the map is iterated, the observations have the same queue ids,
kinds, counters and instants, in the same order. -/
theorem buildObservations_perm {flows flows' : List ObservedFlow} (hperm : flows.Perm flows')
    (opts : ObservationOptions)
    (hinj : Set.InjOn (stableQueueID lib) (observedKeys lib opts.threshold flows))
    (iterate iterate' : Iteration) :
    (BuildObservations lib iterate flows opts).map Observation.summary =
      (BuildObservations lib iterate' flows' opts).map Observation.summary := by
  have hitems : (reviewed lib opts.threshold flows).Perm (reviewed lib opts.threshold flows') :=
    hperm.filterMap _
  have hsummaries : (summaries lib (reviewed lib opts.threshold flows)).Perm
      (summaries lib (reviewed lib opts.threshold flows')) := by
    have hpairs := (perm_observations hitems (kindsApart_reviewed hinj)).map Prod.snd
    rwa [List.map_map, List.map_map] at hpairs
  rw [map_summary_BuildObservations, map_summary_BuildObservations]
  congr 1
  -- two sorted arrangements of summaries whose queue ids tell them apart
  have hiter := perm_summaries_iterate lib iterate (reviewed lib opts.threshold flows)
  have hiter' := perm_summaries_iterate lib iterate' (reviewed lib opts.threshold flows')
  have hleft := (List.perm_insertionSort (fun a b => sortKey a ≤ sortKey b) _).trans hiter
  have hright := (List.perm_insertionSort (fun a b => sortKey a ≤ sortKey b) _).trans
    (hiter'.trans hsummaries.symm)
  refine List.Perm.eq_of_pairwise ?_ (List.pairwise_insertionSort _ _)
    (List.pairwise_insertionSort _ _) (hleft.trans hright.symm)
  intro a b ha hb hab hba
  exact queueID_inj (hleft.mem_iff.mp ha) (hright.mem_iff.mp hb)
    (queueID_of_sortKey (le_antisymm hab hba))

instance : Std.Total fun a b : Observation => observationLess b a = false :=
  ⟨fun a b => by
    rw [observationLess_eq_false_iff, observationLess_eq_false_iff]
    exact le_total _ _⟩

instance : IsTrans Observation fun a b => observationLess b a = false :=
  ⟨fun a b c hab hbc => by
    rw [observationLess_eq_false_iff] at hab hbc ⊢
    exact hab.trans hbc⟩

/-- **The order in which the map is iterated does not matter.** -/
theorem buildObservations_iterate (lib : Library) (iterate iterate' : Iteration)
    (flows : List ObservedFlow) (opts : ObservationOptions) :
    BuildObservations lib iterate flows opts = BuildObservations lib iterate' flows opts := by
  have hkeys : ((flows.foldl (addFlow lib opts.threshold) []).map Prod.snd).map
      Observation.queueID = (flows.foldl (addFlow lib opts.threshold) []).map Prod.fst := by
    rw [foldl_addFlow, List.map_map]
    exact List.map_congr_left fun g hg => queueID_of_mem_observations hg
  have hnodup : (((flows.foldl (addFlow lib opts.threshold) []).map Prod.snd).map
      Observation.queueID).Nodup := by
    rw [hkeys, foldl_addFlow, observations]
    exact nodup_groupAll _
  have hsort : ∀ order : Iteration, ((order.order
      ((flows.foldl (addFlow lib opts.threshold) []).map Prod.snd)).insertionSort
        fun a b => observationLess b a = false).Perm
      ((flows.foldl (addFlow lib opts.threshold) []).map Prod.snd) :=
    fun order => (List.perm_insertionSort _ _).trans (order.perm _)
  have hsame := List.Perm.eq_of_pairwise
    (fun a b ha hb hab hba => List.inj_on_of_nodup_map hnodup ((hsort iterate).mem_iff.mp ha)
      ((hsort iterate').mem_iff.mp hb) (queueID_of_sortKey (le_antisymm
        ((observationLess_eq_false_iff a b).mp hab) ((observationLess_eq_false_iff b a).mp hba))))
    (List.pairwise_insertionSort (fun a b => observationLess b a = false) _)
    (List.pairwise_insertionSort (fun a b => observationLess b a = false) _)
    ((hsort iterate).trans (hsort iterate').symm)
  unfold BuildObservations
  dsimp only
  rw [hsame]

/-- There are no more observations than flows. -/
theorem length_buildObservations_le (lib : Library) (iterate : Iteration)
    (flows : List ObservedFlow) (opts : ObservationOptions) :
    (BuildObservations lib iterate flows opts).length ≤ flows.length := by
  have hall : ((iterate.order ((flows.foldl (addFlow lib opts.threshold) []).map
      Prod.snd)).insertionSort fun a b => observationLess b a = false).length ≤ flows.length := by
    rw [List.length_insertionSort, (iterate.perm _).length_eq, List.length_map, foldl_addFlow]
    exact (length_groupAll_le _).trans (List.length_filterMap_le _ _)
  unfold BuildObservations
  dsimp only
  split
  · exact (List.length_take_le' _ _).trans hall
  · exact hall

end Order

/-- The library on texts without letters beyond ASCII, with the digests of two keys. -/
def asciiLibrary : Library where
  toLower := toLower
  toUpper s := String.ofList (s.toList.map Char.toUpper)
  equalFold a b := toLower a == toLower b
  sha256 key :=
    if key = "unknown||weird-proto|tcp|443" then
      [0xcb, 0x38, 0xeb, 0x31, 0x30, 0xb8, 0xf9, 0x68, 0x90, 0x5f, 0x91,
        0x43, 0xe7, 0x94, 0x23, 0x3f, 0x2a, 0x49, 0x90, 0xcd, 0xea, 0x17,
        0xb5, 0x01, 0x40, 0xcb, 0x06, 0xa8, 0xc0, 0xbc, 0xde, 0xb2]
    else if key = "unknown||weird-proto|tcp|8443" then
      [0xe1, 0xed, 0x0f, 0xb8, 0xce, 0x0e, 0x42, 0x61, 0x5b, 0x71, 0xa1,
        0x68, 0xf7, 0x4c, 0x5a, 0xaf, 0x93, 0x29, 0x2f, 0xd4, 0xe3, 0xa9,
        0xbc, 0x40, 0xc7, 0x52, 0x9b, 0xd2, 0x2b, 0x8e, 0xf9, 0x11]
    else []

/-- Two flows of one queue, one of them without a time, and a flow of another. -/
def unknownFlows : List ObservedFlow :=
  [{ engineSignal := "weird-proto", protocol := "TCP", destPort := 443, timestamp := 7,
      packets := 3 },
    { engineSignal := "weird-proto", protocol := "tcp", destPort := 443 },
    { engineSignal := "Weird-Proto ", protocol := "TCP", destPort := 8443, timestamp := 5 }]

theorem buildObservations_reverse :
    (BuildObservations asciiLibrary ⟨id, fun _ => .refl _⟩ unknownFlows {}).map
        Observation.summary =
      (BuildObservations asciiLibrary ⟨List.reverse, List.reverse_perm⟩ unknownFlows.reverse
        {}).map Observation.summary := by
  refine buildObservations_perm (List.reverse_perm unknownFlows).symm {} ?_ _ _
  have hflows : ∀ flow ∈ unknownFlows, (classifyObservation asciiLibrary flow 70).all
      (fun kind => observationKey asciiLibrary kind flow = "unknown||weird-proto|tcp|443" ∨
        observationKey asciiLibrary kind flow = "unknown||weird-proto|tcp|8443") = true := by decide +kernel
  have hkeys : ∀ key ∈ observedKeys asciiLibrary 70 unknownFlows,
      key = "unknown||weird-proto|tcp|443" ∨ key = "unknown||weird-proto|tcp|8443" := by
    rintro key ⟨flow, hflow, kind, hkind, rfl⟩
    have hflow := hflows flow hflow
    rw [hkind] at hflow
    exact of_decide_eq_true hflow
  intro a ha b hb h
  rcases hkeys a ha with rfl | rfl <;> rcases hkeys b hb with rfl | rfl
  · rfl
  · revert h
    decide +kernel
  · revert h
    decide +kernel
  · rfl

end Phragma.Appid
