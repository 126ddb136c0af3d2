import Phragma.Go.Time
import Phragma.Intel.Normalize
import Phragma.Policy.Model

/-!
# Phragma.Intel.Refresh

**One refresh of the blocklist sets**: `Refresh` of `internal/intel/updater.go`, with the feed
registry it resolves the policy against.

The outcome of each download and of the run of `nft` are given. `nft` runs a script in one
transaction: the commands of `applySets` all take effect, or none does.

A failed download is logged and skipped, and `Refresh` goes on with what the others returned, down
to nothing at all: the error return does not tell, and when no feed answers the sets are flushed.
So the refresh does what is asked of it exactly when no download fails or `nft` does
(`refresh_sound_iff`).
-/

namespace Phragma.Intel

open Go Lib

/-! ### The registry -/

/-- `Feed`, the fields that enabling and fetching read. -/
structure Feed where
  name : String
  url : String
  license : String
  allowCommercial : Bool
  deriving DecidableEq, Repr

/-- `builtins`: the feeds that a policy can enable by name, with their licenses. -/
def builtins : List Feed :=
  [⟨"feodo-tracker", "https://feodotracker.abuse.ch/downloads/ipblocklist_recommended.txt",
      "CC0 (abuse.ch)", true⟩,
    ⟨"sslbl-ips", "https://sslbl.abuse.ch/blacklist/sslipblacklist.txt", "CC0 (abuse.ch)", true⟩,
    ⟨"et-block-ips", "https://rules.emergingthreats.net/fwrules/emerging-Block-IPs.txt",
      "ET Open (BSD-style, see license terms)", true⟩,
    ⟨"spamhaus-drop", "https://www.spamhaus.org/drop/drop.txt",
      "Spamhaus DROP terms: free for non-commercial use only", false⟩]

/-- `Lookup`: the built-in feed of a name. -/
def Lookup (name : String) : Option Feed := builtins.find? fun f => f.name = name

/-- `CheckEnable`: may the feed be enabled? Some licenses exclude commercial use. -/
def CheckEnable (f : Feed) (commercialUse : Bool) : Except String Unit :=
  if commercialUse && !f.allowCommercial then
    .error ("feed " ++ quote f.name ++ " license (" ++ f.license ++
      ") forbids commercial use; deployment declares commercial_use")
  else .ok ()

/-- The loop of `EnabledFeeds` over the policy's registry feeds. -/
def enabledBuiltins (commercialUse : Bool) : List Policy.FeedEnable → Except String (List Feed)
  | [] => .ok []
  | fe :: rest =>
      if !fe.enabled then enabledBuiltins commercialUse rest
      else
        match Lookup fe.name with
        | none => .error ("unknown intel feed " ++ quote fe.name)
        | some f => do
            CheckEnable f commercialUse
            let out ← enabledBuiltins commercialUse rest
            pure (f :: out)

/-- `EnabledFeeds`: the built-in feeds that a policy enables, then its own ones. -/
def EnabledFeeds : Option Policy.Intel → Except String (List Feed)
  | none => .ok []
  | some intel => do
      let out ← enabledBuiltins intel.commercialUse intel.feeds
      pure (out ++ intel.customFeeds.map fun cf => ⟨cf.name, cf.url, "operator-provided", true⟩)

/-! ### The sets

The script flushes both sets and adds what was merged. It is one transaction of `nft`, so the sets
are replaced or left. -/

/-- The two sets of the `openngfw` table. -/
inductive SetName
  | intel4
  | intel6
  deriving DecidableEq, Repr

/-- `SetV4` and `SetV6`. -/
def SetName.text : SetName → String
  | .intel4 => "intel4"
  | .intel6 => "intel6"

/-- What the sets hold. -/
structure IntelSets where
  intel4 : List Prefix := []
  intel6 : List Prefix := []

/-- The blocked addresses. -/
def IntelSets.addrs (s : IntelSets) : Set Addr := {a | ∃ p ∈ s.intel4 ++ s.intel6, a ∈ p.addrs}

/-- A line of the script. -/
inductive Command
  | flushSet (set : SetName)
  | addElement (set : SetName) (elements : List Prefix)

/-- The text of a line. -/
def Command.line : Command → String
  | .flushSet set => "flush set inet openngfw " ++ set.text ++ "\n"
  | .addElement set elements =>
      "add element inet openngfw " ++ set.text ++ " \x7b " ++
        join (elements.map Prefix.string) ", " ++ " \x7d\n"

/-- What `nft` does for a line. -/
def Command.perform (s : IntelSets) : Command → IntelSets
  | .flushSet .intel4 => { s with intel4 := [] }
  | .flushSet .intel6 => { s with intel6 := [] }
  | .addElement .intel4 elements => { s with intel4 := s.intel4 ++ elements }
  | .addElement .intel6 elements => { s with intel6 := s.intel6 ++ elements }

/-- `chunks`, of a positive size. -/
def chunks {α : Type} (items : List α) (size : Nat) (hsize : 0 < size) : List (List α) :=
  if _h : size < items.length then items.take size :: chunks (items.drop size) size hsize
  else if 0 < items.length then [items] else []
  termination_by items.length

/-- The script of `applySets`. -/
def setsScript (v4 v6 : List Prefix) : List Command :=
  [.flushSet .intel4, .flushSet .intel6] ++
    (chunks v4 1000 (by decide)).map (.addElement .intel4) ++
    (chunks v6 1000 (by decide)).map (.addElement .intel6)

/-- `applySets`: `nft` is the outcome of writing the script and running it. -/
def applySets (nft : Except String Unit) (v4 v6 : List Prefix) (s : IntelSets) :
    Except String Unit × IntelSets :=
  match nft with
  | .error e => (.error e, s)
  | .ok () => (.ok (), (setsScript v4 v6).foldl Command.perform s)

/-! ### Refresh -/

/-- An iteration of a map: its keys, in some order. -/
structure MapOrder where
  order : List Prefix → List Prefix
  perm : ∀ keys, (order keys).Perm keys

/-- What a refresh meets: the running policy, the outcome of the download of each feed, the order
of the map, the outcome of `nft`, and the clock. -/
structure Surroundings where
  runningPolicy : Except String Phragma.Policy
  fetch : Nat → Feed → Except String (List Prefix)
  iterate : MapOrder
  nft : Except String Unit
  now : Time

/-- The sets and the updater's record of the last refresh. -/
structure Updater where
  sets : IntelSets := {}
  lastEntries : Nat := 0
  lastRefresh : Time := .zero

/-- The keys of the map after one more prefix. -/
def insertKey (merged : List Prefix) (p : Prefix) : List Prefix :=
  if p ∈ merged then merged else merged ++ [p]

/-- The loop of `Refresh` over the feeds, the `i`-th one next: a failed download is skipped. -/
def mergeFeeds (fetch : Nat → Feed → Except String (List Prefix)) :
    Nat → List Feed → List Prefix → List Prefix
  | _, [], merged => merged
  | i, f :: feeds, merged =>
      match fetch i f with
      | .error _ => mergeFeeds fetch (i + 1) feeds merged
      | .ok prefixes => mergeFeeds fetch (i + 1) feeds (prefixes.foldl insertKey merged)

/-- `Refresh`: feeds downloaded, merged and loaded. A feed that cannot be downloaded is left out. -/
def Refresh (w : Surroundings) (u : Updater) : Except String Nat × Updater :=
  match w.runningPolicy with
  | .error e => (.error ("read running policy: " ++ e), u)
  | .ok pol =>
      match EnabledFeeds pol.intel with
      | .error e => (.error e, u)
      | .ok feeds =>
          if feeds = [] then (.ok 0, u)
          else
            let normalized := normalizePrefixes (w.iterate.order (mergeFeeds w.fetch 0 feeds []))
            let v4 := normalized.filter fun p => p.addr.is4
            let v6 := normalized.filter fun p => !p.addr.is4
            match applySets w.nft v4 v6 u.sets with
            | (.error e, sets) => (.error e, { u with sets })
            | (.ok (), sets) =>
                (.ok (v4.length + v6.length),
                  ⟨sets, v4.length + v6.length, w.now⟩)

/-! ### What the script leaves

A set holds the intervals of its elements, so what matters of a merge is which addresses it
covers. -/

theorem flatten_chunks {α : Type} (items : List α) (size : Nat) (hsize : 0 < size) :
    (chunks items size hsize).flatten = items := by
  induction items using chunks.induct size hsize with
  | case1 items h ih =>
      rw [chunks, dif_pos h, List.flatten_cons, ih, List.take_append_drop]
  | case2 items h hpos =>
      rw [chunks, dif_neg h, if_pos hpos]
      simp
  | case3 items h hnil =>
      rw [chunks, dif_neg h, if_neg hnil, List.length_eq_zero_iff.mp (Nat.eq_zero_of_not_pos hnil)]
      rfl

theorem foldl_addElement4 (cs : List (List Prefix)) (s : IntelSets) :
    (cs.map (Command.addElement .intel4)).foldl Command.perform s =
      { s with intel4 := s.intel4 ++ cs.flatten } := by
  induction cs generalizing s with
  | nil => simp
  | cons c cs ih =>
      rw [List.map_cons, List.foldl_cons, ih]
      simp [Command.perform]

theorem foldl_addElement6 (cs : List (List Prefix)) (s : IntelSets) :
    (cs.map (Command.addElement .intel6)).foldl Command.perform s =
      { s with intel6 := s.intel6 ++ cs.flatten } := by
  induction cs generalizing s with
  | nil => simp
  | cons c cs ih =>
      rw [List.map_cons, List.foldl_cons, ih]
      simp [Command.perform]

/-- **The script replaces the content of both sets.** -/
theorem foldl_setsScript (v4 v6 : List Prefix) (s : IntelSets) :
    (setsScript v4 v6).foldl Command.perform s = ⟨v4, v6⟩ := by
  rw [setsScript, List.foldl_append, List.foldl_append, foldl_addElement4, foldl_addElement6,
    flatten_chunks, flatten_chunks]
  rfl

/-! ### What is merged

The feeds that could be downloaded, each normalized, in one list for each family. -/

theorem mem_foldl_insertKey {prefixes merged : List Prefix} {p : Prefix} :
    p ∈ prefixes.foldl insertKey merged ↔ p ∈ merged ∨ p ∈ prefixes := by
  induction prefixes generalizing merged with
  | nil => simp
  | cons q qs ih =>
      rw [List.foldl_cons, ih, insertKey]
      split
      · next hq => grind
      · simp [or_assoc]

/-- The download of some feed returned the prefix. -/
def Fetched (fetch : Nat → Feed → Except String (List Prefix)) (feeds : List Feed) (p : Prefix) :
    Prop :=
  ∃ i f prefixes, feeds[i]? = some f ∧ fetch i f = .ok prefixes ∧ p ∈ prefixes

theorem mem_mergeFeeds_from {fetch : Nat → Feed → Except String (List Prefix)} {feeds : List Feed}
    {k : Nat} {merged : List Prefix} {p : Prefix} : p ∈ mergeFeeds fetch k feeds merged ↔
      p ∈ merged ∨ ∃ i f prefixes, feeds[i]? = some f ∧ fetch (k + i) f = .ok prefixes ∧
        p ∈ prefixes := by
  induction feeds generalizing k merged with
  | nil => simp [mergeFeeds]
  | cons f feeds ih =>
      -- the first feed, or one of the rest at a later place
      have hsplit : (∃ i g prefixes, (f :: feeds)[i]? = some g ∧ fetch (k + i) g = .ok prefixes ∧
            p ∈ prefixes) ↔ (∃ prefixes, fetch k f = .ok prefixes ∧ p ∈ prefixes) ∨
          ∃ i g prefixes, feeds[i]? = some g ∧ fetch (k + 1 + i) g = .ok prefixes ∧
            p ∈ prefixes := by
        constructor
        · rintro ⟨_ | i, g, prefixes, hg, hfetch, hp⟩
          · cases hg
            exact .inl ⟨prefixes, hfetch, hp⟩
          · exact .inr ⟨i, g, prefixes, hg, by rwa [Nat.add_right_comm, Nat.add_assoc], hp⟩
        · rintro (⟨prefixes, hfetch, hp⟩ | ⟨i, g, prefixes, hg, hfetch, hp⟩)
          · exact ⟨0, f, prefixes, rfl, hfetch, hp⟩
          · exact ⟨i + 1, g, prefixes, hg, by rwa [Nat.add_right_comm, Nat.add_assoc] at hfetch, hp⟩
      rw [hsplit, mergeFeeds]
      cases hfetch : fetch k f with
      | error e => simp [ih]
      | ok prefixes =>
          rw [ih, mem_foldl_insertKey]
          simp [or_assoc]

theorem mem_mergeFeeds {fetch : Nat → Feed → Except String (List Prefix)} {feeds : List Feed}
    {p : Prefix} : p ∈ mergeFeeds fetch 0 feeds [] ↔ Fetched fetch feeds p := by
  rw [mem_mergeFeeds_from]
  simp [Fetched]

/-! ### What a refresh is for

A failure should be told, what was downloaded should be in the sets, and without a download they
should stay. A download that fails is not told. -/

/-- A download failed. -/
def SomeFailed (fetch : Nat → Feed → Except String (List Prefix)) (feeds : List Feed) : Prop :=
  ∃ i f e, feeds[i]? = some f ∧ fetch i f = .error e

/-- **A failing feed neither hides nor removes protection.** -/
structure RefreshSound (w : Surroundings) (feeds : List Feed) (u : Updater)
    (result : Except String Nat × Updater) : Prop where
  /-- A failure is told. -/
  surfaced : SomeFailed w.fetch feeds → ∃ e, result.1 = .error e
  /-- The sets hold what was downloaded. -/
  programmed : (∃ i f prefixes, feeds[i]? = some f ∧ w.fetch i f = .ok prefixes) →
    w.nft = .ok () → ∀ a, a ∈ result.2.sets.addrs ↔ ∃ p, Fetched w.fetch feeds p ∧ a ∈ p.addrs
  /-- With nothing downloaded or programmed the sets stay as they were. -/
  kept : (∀ i f, feeds[i]? = some f → ∃ e, w.fetch i f = .error e) ∨ (∃ e, w.nft = .error e) →
    result.2.sets = u.sets

/-- The sets after a refresh that goes through. -/
def normalizedSets (w : Surroundings) (feeds : List Feed) : IntelSets :=
  let normalized := normalizePrefixes (w.iterate.order (mergeFeeds w.fetch 0 feeds []))
  ⟨normalized.filter fun p => p.addr.is4, normalized.filter fun p => !p.addr.is4⟩

/-- They hold **what was downloaded**. -/
theorem mem_addrs_normalizedSets {w : Surroundings} {feeds : List Feed} {a : Addr} :
    a ∈ (normalizedSets w feeds).addrs ↔ ∃ p, Fetched w.fetch feeds p ∧ a ∈ p.addrs := by
  have hcover := (normalizePrefixes_correct
    (w.iterate.order (mergeFeeds w.fetch 0 feeds []))).covers a
  have hsplit : a ∈ (normalizedSets w feeds).addrs ↔
      ∃ p ∈ normalizePrefixes (w.iterate.order (mergeFeeds w.fetch 0 feeds [])), a ∈ p.addrs := by
    simp only [normalizedSets, IntelSets.addrs, Set.mem_ofPred_eq, List.mem_append, List.mem_filter]
    constructor
    · rintro ⟨p, hp | hp, ha⟩
      · exact ⟨p, hp.1, ha⟩
      · exact ⟨p, hp.1, ha⟩
    · rintro ⟨p, hp, ha⟩
      cases h4 : p.addr.is4 with
      | true => exact ⟨p, .inl ⟨hp, h4⟩, ha⟩
      | false => exact ⟨p, .inr ⟨hp, by rw [h4]; rfl⟩, ha⟩
  rw [hsplit, hcover]
  simp only [(w.iterate.perm _).mem_iff, mem_mergeFeeds]

/-- A refresh with feeds, by the outcome of `nft`. -/
theorem Refresh_eq {w : Surroundings} {pol : Phragma.Policy} {feeds : List Feed}
    (hpol : w.runningPolicy = .ok pol) (hfeeds : EnabledFeeds pol.intel = .ok feeds) (u : Updater) :
    (feeds = [] ∧ Refresh w u = (.ok 0, u)) ∨
      (∃ e, w.nft = .error e ∧ Refresh w u = (.error e, u)) ∨
      (feeds ≠ [] ∧ w.nft = .ok () ∧ ∃ n, (Refresh w u).1 = .ok n ∧
        (Refresh w u).2.sets = normalizedSets w feeds) := by
  unfold Refresh
  simp only [hpol, hfeeds]
  by_cases hnil : feeds = []
  · exact .inl ⟨hnil, if_pos hnil⟩
  · refine .inr ?_
    rw [if_neg hnil]
    cases hnft : w.nft with
    | error e => exact .inl ⟨e, rfl, rfl⟩
    | ok ok =>
        refine .inr ⟨hnil, rfl, _, rfl, ?_⟩
        exact foldl_setsScript _ _ _

/-- **When a refresh is sound.** For every running policy and its enabled feeds, every outcome of
the downloads and every content of the sets, it is exactly when no download fails or `nft` does. -/
theorem refresh_sound_iff {w : Surroundings} {pol : Phragma.Policy} {feeds : List Feed}
    (hpol : w.runningPolicy = .ok pol) (hfeeds : EnabledFeeds pol.intel = .ok feeds) (u : Updater) :
    RefreshSound w feeds u (Refresh w u) ↔ ¬ SomeFailed w.fetch feeds ∨ ∃ e, w.nft = .error e := by
  rcases Refresh_eq hpol hfeeds u with ⟨rfl, heq⟩ | ⟨e, hnft, heq⟩ | ⟨hne, hnft, n, hok, hsets⟩
  · -- without feeds nothing is fetched and nothing happens
    have hnone : ¬ SomeFailed w.fetch [] := by
      rintro ⟨i, f, e, hf, -⟩
      simp at hf
    refine iff_of_true ⟨fun h => absurd h hnone, ?_, fun _ => by rw [heq]⟩ (.inl hnone)
    rintro ⟨i, f, prefixes, hf, -⟩
    simp at hf
  · refine iff_of_true ⟨fun _ => ⟨e, by rw [heq]⟩, fun _ hrun => ?_, fun _ => by rw [heq]⟩
      (.inr ⟨e, hnft⟩)
    rw [hnft] at hrun
    cases hrun
  · constructor
    · intro hsound
      refine .inl fun hfailed => ?_
      obtain ⟨e, he⟩ := hsound.surfaced hfailed
      rw [hok] at he
      cases he
    · rintro (hall | ⟨e, he⟩)
      · refine ⟨fun h => absurd h hall, fun _ _ a => ?_, ?_⟩
        · rw [hsets, mem_addrs_normalizedSets]
        · rintro (hfail | ⟨e, he⟩)
          · -- there is a feed, so that not every download fails
            obtain ⟨f, hf⟩ : ∃ f, feeds[0]? = some f := by
              cases feeds with
              | nil => exact absurd rfl hne
              | cons f feeds => exact ⟨f, rfl⟩
            obtain ⟨e, he⟩ := hfail 0 f hf
            exact absurd ⟨0, f, e, hf, he⟩ hall
          · rw [hnft] at he
            cases he
      · rw [hnft] at he
        cases he

/-- A policy with one registry feed. -/
def oneFeedPolicy : Phragma.Policy := { intel := some { feeds := [⟨"feodo-tracker", true⟩] } }

/-- That feed. -/
def feodoTracker : Feed :=
  ⟨"feodo-tracker", "https://feodotracker.abuse.ch/downloads/ipblocklist_recommended.txt",
    "CC0 (abuse.ch)", true⟩

theorem enabled_oneFeedPolicy : EnabledFeeds oneFeedPolicy.intel = .ok [feodoTracker] := by
  decide +kernel

/-- A refresh of that policy on a network that is down. -/
def networkDown : Surroundings where
  runningPolicy := .ok oneFeedPolicy
  fetch _ _ := .error "fetch feed: dial tcp: network is unreachable"
  iterate := ⟨id, fun _ => .refl _⟩
  nft := .ok ()
  now := .zero

/-- Sets that block 192.0.2.0/24. -/
def blocking : Updater :=
  { sets := ⟨[⟨.v4 0xc0000200#32, 24, by decide, rfl⟩], []⟩, lastEntries := 1 }

theorem refresh_sound_networkDown :
    RefreshSound networkDown [feodoTracker] blocking (Refresh networkDown blocking) ↔
      ¬ SomeFailed networkDown.fetch [feodoTracker] ∨ ∃ e, networkDown.nft = .error e :=
  refresh_sound_iff rfl enabled_oneFeedPolicy blocking

/-- With the network down a refresh empties the sets and reports success. -/
theorem refresh_empties : (Refresh networkDown blocking).1 = .ok 0 ∧
    (Refresh networkDown blocking).2.sets = ⟨[], []⟩ ∧
    ¬ RefreshSound networkDown [feodoTracker] blocking (Refresh networkDown blocking) := by
  have hsets : normalizedSets networkDown [feodoTracker] = ⟨[], []⟩ := rfl
  rcases Refresh_eq (w := networkDown) rfl enabled_oneFeedPolicy blocking with
    ⟨hnil, -⟩ | ⟨e, he, -⟩ | ⟨-, -, n, hok, hafter⟩
  · cases hnil
  · cases he
  · rw [hsets] at hafter
    refine ⟨?_, hafter, fun hsound => ?_⟩
    · unfold Refresh
      rw [show networkDown.runningPolicy = .ok oneFeedPolicy from rfl]
      simp only [enabled_oneFeedPolicy]
      rfl
    · obtain ⟨e, he⟩ := hsound.surfaced ⟨0, feodoTracker, _, rfl, rfl⟩
      rw [hok] at he
      cases he

end Phragma.Intel
