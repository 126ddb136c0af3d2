import Mathlib.Data.Rat.Floor
import Mathlib.Tactic.FieldSimp
import Mathlib.Tactic.Linarith
import Mathlib.Tactic.Positivity
import Phragma.Authz.Sessions
import Phragma.Lib.Machine

/-!
# Phragma.Controld.RateLimit

The token buckets of `cmd/controld/ratelimit.go`, one for each client, in exact arithmetic.

A bucket fills at the configured rate up to the burst. Every minute at most, the buckets of clients
that have not called for ten minutes are deleted, and a client without a bucket starts with a full
one. A deleted bucket need not have been full: the limit holds exactly when ten minutes fill a
bucket (`bounded_iff`). That the number of buckets is bounded, and that who waits as told is served,
holds for every configuration.

Instants and durations are nanoseconds, instants counted from Go's zero time. The clock readings of
the calls are in order.
-/

namespace Phragma.Controld

open Lib Authz

/-! ### Data -/

/-- `rateLimitConfig`, the fields that the buckets depend on. -/
structure RateLimitConfig where
  requestsPerMinute : Int
  burst : Int := 0
  maxClients : Int := 0

/-- The configured burst, or what a minute gives. -/
def RateLimitConfig.tokens (cfg : RateLimitConfig) : Int :=
  if cfg.burst ≤ 0 then cfg.requestsPerMinute else cfg.burst

/-- `defaultRateLimitMaxClients`: how many buckets are kept. -/
def defaultRateLimitMaxClients : Int := 4096

/-- `clientRateLimiter`, what `newClientRateLimiter` fixes. -/
structure ClientRateLimiter where
  ratePerSecond : ℚ
  burst : ℕ
  maxClients : ℕ
  le_rate : 1 / 60 ≤ ratePerSecond
  burst_pos : 0 < burst
  maxClients_pos : 0 < maxClients

/-- `newClientRateLimiter`. Without a rate there is no limiter. -/
def newClientRateLimiter (cfg : RateLimitConfig) : Option ClientRateLimiter :=
  if h : cfg.requestsPerMinute ≤ 0 then none
  else
    some {
      ratePerSecond := cfg.requestsPerMinute / 60
      burst := cfg.tokens.toNat
      maxClients :=
        (if cfg.maxClients ≤ 0 then defaultRateLimitMaxClients else cfg.maxClients).toNat
      le_rate := by
        have hrpm : (1 : ℚ) ≤ cfg.requestsPerMinute := by exact_mod_cast Int.not_le.mp h
        linarith
      burst_pos := by unfold RateLimitConfig.tokens; split <;> omega
      maxClients_pos := by unfold defaultRateLimitMaxClients; split <;> omega }

/-- `rateLimitBucket`: the tokens of a client, when they were counted, and when it last called. -/
structure RateLimitBucket where
  tokens : ℚ
  last : Int
  lastSeen : Int
  deriving DecidableEq

/-- The part of `clientRateLimiter` that changes. -/
structure LimiterState where
  clients : Table String RateLimitBucket := .empty
  lastSweep : Int := 0

/-- `time.Minute`, in nanoseconds. -/
def minute : Int := 60000000000

/-- `Time.Sub`, which stays within 64 bits. -/
def timeSub (t u : Int) : Int := max (-2 ^ 63) (min (2 ^ 63 - 1) (t - u))

/-- `Duration.Seconds`: a duration in seconds, as a fraction. -/
def seconds (d : Int) : ℚ := d / 1000000000

/-! ### Operations

All of a call is under one lock, so a call is a step. It sweeps, fills the bucket of its client, and
takes a token if there is one. -/

/-- `evictOldestClientLocked`: the bucket of the client that has not called for longest removed. -/
def evictOldestClientLocked (clients : Table String RateLimitBucket) :
    Table String RateLimitBucket :=
  match oldestKey RateLimitBucket.lastSeen clients.entries with
  | none => clients
  | some key => clients.remove key

/-- `enforceClientLimitLocked`: as many buckets as are allowed. -/
def enforceClientLimitLocked (l : ClientRateLimiter) (clients : Table String RateLimitBucket) :
    Table String RateLimitBucket :=
  clients.evict (oldestKey RateLimitBucket.lastSeen) l.maxClients

/-- The test of the loop in `sweepLocked`. -/
def isIdle (now : Int) (bucket : RateLimitBucket) : Bool :=
  decide (10 * minute < timeSub now bucket.lastSeen)

/-- The loop of `sweepLocked`. -/
def deleteIdle (now : Int) (clients : Table String RateLimitBucket) :
    Table String RateLimitBucket :=
  clients.restrict fun e => !isIdle now e.2

/-- `sweepLocked`: idle buckets deleted, once a minute. -/
def sweepLocked (l : ClientRateLimiter) (now : Int) (s : LimiterState) : LimiterState :=
  if s.lastSweep = 0 then { s with lastSweep := now }
  else if timeSub now s.lastSweep < minute then s
  else ⟨enforceClientLimitLocked l (deleteIdle now s.clients), now⟩

/-- What `allow` returns. -/
structure Answer where
  allowed : Bool
  wait : Int := 0
  deriving DecidableEq

/-- The key that `allow` looks up. -/
def clientKey (key : String) : String := if key = "" then "unknown" else key

/-- The bucket of a call at `now`, before a token is taken. -/
def refill (l : ClientRateLimiter) (now : Int) (b : RateLimitBucket) : RateLimitBucket :=
  let elapsed := seconds (timeSub now b.last)
  let b :=
    if 0 < elapsed then
      { b with tokens := min (l.burst : ℚ) (b.tokens + elapsed * l.ratePerSecond), last := now }
    else b
  { b with lastSeen := now }

/-- `allow`: a token taken, or how long to wait for one. -/
def allow (l : ClientRateLimiter) (key : String) (now : Int) (s : LimiterState) :
    Answer × LimiterState :=
  let key := clientKey key
  let s := sweepLocked l now s
  match s.clients.get key with
  | none =>
      let clients :=
        if l.maxClients ≤ s.clients.size then evictOldestClientLocked s.clients else s.clients
      (⟨true, 0⟩, { s with clients := clients.put key ⟨l.burst - 1, now, now⟩ })
  | some b =>
      let b := refill l now b
      if 1 ≤ b.tokens then
        (⟨true, 0⟩, { s with clients := s.clients.put key { b with tokens := b.tokens - 1 } })
      else
        (⟨false, ⌈(1 - b.tokens) / l.ratePerSecond * 1000000000⌉⟩,
          { s with clients := s.clients.put key b })

/-! ### Runs -/

/-- A call of `allow`, with the clock reading it makes. -/
structure RateCall where
  key : String
  now : Int

/-- Run a call. -/
def execAllow (l : ClientRateLimiter) (c : RateCall) (s : LimiterState) : Answer × LimiterState :=
  allow l c.key c.now s

/-- The clock readings of a run are in order. -/
def InOrder (calls : List RateCall) : Prop := calls.Pairwise fun a b => a.now ≤ b.now

/-- The buckets that the idle sweep of a call leaves. -/
def sweptClients (now : Int) (s : LimiterState) : Table String RateLimitBucket :=
  if s.lastSweep = 0 ∨ timeSub now s.lastSweep < minute then s.clients
  else deleteIdle now s.clients

/-- The call takes the bucket of a client away to keep the number of clients down. -/
def EvictedByCap (k : String) (ev : Event RateCall LimiterState Answer) : Prop :=
  (∃ b, (sweptClients ev.input.now ev.before).get k = some b) ∧ ev.after.clients.get k = none

/-- The call is one of the client's, and is allowed. -/
def allowedTo (k : String) (ev : Event RateCall LimiterState Answer) : Bool :=
  decide (clientKey ev.input.key = k) && ev.output.allowed

/-- **The limiter limits.** -/
structure Bounded (l : ClientRateLimiter) : Prop where
  /-- The clients tracked are never more than the cap. -/
  tracked : ∀ calls, InOrder calls →
    (final (execAllow l) {} calls).clients.size ≤ l.maxClients
  /-- In any span of time a client that the cap does not evict is allowed the burst, and what the
  rate gives in that time. -/
  spent : ∀ before span k start (T : ℕ), InOrder (before ++ span) →
    (∀ c ∈ span, start ≤ c.now ∧ c.now ≤ start + T) →
    (∀ ev ∈ history (execAllow l) (final (execAllow l) {} before) span, ¬ EvictedByCap k ev) →
    ((history (execAllow l) (final (execAllow l) {} before) span).countP (allowedTo k) : ℚ) ≤
      l.burst + l.ratePerSecond * seconds T
  /-- A refused client that waits as told is served. -/
  served : ∀ before c between next, InOrder (before ++ c :: (between ++ [next])) →
    clientKey next.key = clientKey c.key → (∀ d ∈ between, clientKey d.key ≠ clientKey c.key) →
    (execAllow l c (final (execAllow l) {} before)).1.allowed = false →
    c.now + (execAllow l c (final (execAllow l) {} before)).1.wait ≤ next.now →
    (execAllow l next (final (execAllow l) {} (before ++ c :: between))).1.allowed = true

/-! ### Durations

`Time.Sub` gives the largest duration where the difference is too large. Both orders matter here:
what is given is at most the difference, and at least what a duration can hold of it. -/

theorem ClientRateLimiter.rate_pos (l : ClientRateLimiter) : 0 < l.ratePerSecond :=
  lt_of_lt_of_le (by norm_num) l.le_rate

theorem timeSub_nonneg {t u : Int} (h : u ≤ t) : 0 ≤ timeSub t u := by
  unfold timeSub
  omega

theorem timeSub_le {t u : Int} (h : u ≤ t) : timeSub t u ≤ t - u := by
  unfold timeSub
  omega

theorem eq_of_timeSub_nonpos {t u : Int} (hle : u ≤ t) (h : timeSub t u ≤ 0) : t = u := by
  unfold timeSub at h
  omega

theorem le_timeSub {t u d : Int} (hd : d < 2 ^ 63) (h : u + d ≤ t) : d ≤ timeSub t u := by
  unfold timeSub
  omega

theorem seconds_le_seconds {d d' : Int} (h : d ≤ d') : seconds d ≤ seconds d' := by
  unfold seconds
  have hcast : (d : ℚ) ≤ d' := by exact_mod_cast h
  linarith

theorem seconds_add (d d' : Int) : seconds (d + d') = seconds d + seconds d' := by
  unfold seconds
  push_cast
  ring

theorem seconds_zero : seconds 0 = 0 := by
  unfold seconds
  norm_num

theorem seconds_pos_iff {d : Int} : 0 < seconds d ↔ 0 < d := by
  unfold seconds
  rw [div_pos_iff_of_pos_right (by norm_num), Int.cast_pos]

/-! ### Tables -/

section Table

variable {t : Table String RateLimitBucket} {k k' : String} {b : RateLimitBucket}

theorem get_put_self (t : Table String RateLimitBucket) (k : String) (b : RateLimitBucket) :
    (t.put k b).get k = some b :=
  Table.get_eq_some.mpr (Table.mem_put.mpr (.inl rfl))

theorem get_remove_of_ne (h : k' ≠ k) : (t.remove k).get k' = t.get k' := by
  refine Option.ext fun b => ?_
  rw [Table.get_eq_some, Table.get_eq_some, Table.mem_remove]
  exact and_iff_left h

theorem get_put_of_ne (h : k' ≠ k) : (t.put k b).get k' = t.get k' := by
  refine Option.ext fun b' => ?_
  rw [Table.get_eq_some, Table.get_eq_some, Table.mem_put]
  constructor
  · rintro (heq | ⟨hmem, -⟩)
    · exact absurd (congrArg Prod.fst heq) h
    · exact hmem
  · exact fun hmem => .inr ⟨hmem, h⟩

/-- A bucket in place of another. -/
theorem size_put_of_get {b' : RateLimitBucket} (h : t.get k = some b') :
    (t.put k b).size = t.size :=
  Table.size_remove (Table.get_eq_some.mp h)

/-- A bucket for a new client. -/
theorem size_put_of_get_none (h : t.get k = none) : (t.put k b).size = t.size + 1 := by
  have hall : (t.remove k).entries = t.entries := by
    refine List.filter_eq_self.mpr fun e he => decide_eq_true fun heq => ?_
    have hget := Table.get_eq_some.mpr (show (k, e.2) ∈ t.entries from heq ▸ he)
    rw [h] at hget
    cases hget
  show (t.remove k).entries.length + 1 = t.entries.length + 1
  rw [hall]

/-- The clients an eviction leaves: one fewer, with the buckets they had. -/
theorem evictOldest_spec (hne : t.entries ≠ []) (hnamed : ∀ e ∈ t.entries, e.1 ≠ "") :
    (evictOldestClientLocked t).size + 1 = t.size ∧
      ∀ k, (evictOldestClientLocked t).get k = none ∨
        (evictOldestClientLocked t).get k = t.get k := by
  obtain ⟨e, he, hsome, -⟩ := picksOldest_oldestKey t.entries hne t.nodup hnamed
  have hevict : evictOldestClientLocked t = t.remove e.1 := by
    unfold evictOldestClientLocked
    rw [hsome]
  rw [hevict]
  refine ⟨Table.size_remove he, fun k => ?_⟩
  by_cases hk : k = e.1
  · exact .inl (hk ▸ Table.get_remove_self e.1 t)
  · exact .inr (get_remove_of_ne hk)

/-- Within the cap nothing is evicted. -/
theorem enforceClientLimit_eq {l : ClientRateLimiter} (h : t.size ≤ l.maxClients) :
    enforceClientLimitLocked l t = t := by
  unfold enforceClientLimitLocked Table.evict
  cases hsize : t.size with
  | zero => rfl
  | succ n => rw [Table.evictLoop, if_neg (by omega)]

end Table

/-! ### One call

A bucket is good if its tokens are between none and the burst and its times are not in the future.
Calls keep this, and `allow_cases` says what else a call does. -/

section Steps

variable {l : ClientRateLimiter} {s : LimiterState} {now t : Int} {k : String}

/-- Buckets are neither overdrawn nor overfull, and were filled when they were last seen. -/
structure RateLimitBucket.Good (l : ClientRateLimiter) (t : Int) (b : RateLimitBucket) : Prop where
  nonneg : 0 ≤ b.tokens
  le_burst : b.tokens ≤ l.burst
  last_eq : b.last = b.lastSeen
  seen_le : b.lastSeen ≤ t

/-- What holds of the buckets at every moment of a run. -/
structure Tracked (l : ClientRateLimiter) (t : Int) (s : LimiterState) : Prop where
  size : s.clients.size ≤ l.maxClients
  named : ∀ e ∈ s.clients.entries, e.1 ≠ ""
  bucket : ∀ e ∈ s.clients.entries, e.2.Good l t

theorem tracked_empty (l : ClientRateLimiter) (t : Int) : Tracked l t {} :=
  ⟨Nat.zero_le _, fun _ he => (List.not_mem_nil he).elim, fun _ he => (List.not_mem_nil he).elim⟩

theorem Tracked.later (h : Tracked l t s) (hle : t ≤ now) : Tracked l now s :=
  ⟨h.size, h.named, fun e he => { h.bucket e he with seen_le := (h.bucket e he).seen_le.trans hle }⟩

theorem sweptClients_entries {e : String × RateLimitBucket}
    (he : e ∈ (sweptClients now s).entries) : e ∈ s.clients.entries := by
  unfold sweptClients at he
  split at he
  · exact he
  · exact (Table.mem_restrict.mp he).1

theorem Tracked.size_swept (h : Tracked l t s) (now : Int) :
    (sweptClients now s).size ≤ l.maxClients := by
  unfold sweptClients
  split
  · exact h.size
  · exact (List.length_filter_le _ _).trans h.size

/-- A sweep deletes the idle buckets and no others. -/
theorem clients_sweepLocked (h : Tracked l t s) :
    (sweepLocked l now s).clients = sweptClients now s := by
  have hsize := h.size_swept now
  unfold sweptClients at hsize ⊢
  unfold sweepLocked
  by_cases hfirst : s.lastSweep = 0
  · rw [if_pos hfirst, if_pos (.inl hfirst)]
  · by_cases hsoon : timeSub now s.lastSweep < minute
    · rw [if_neg hfirst, if_pos hsoon, if_pos (.inr hsoon)]
    · have hdue : ¬ (s.lastSweep = 0 ∨ timeSub now s.lastSweep < minute) :=
        not_or.mpr ⟨hfirst, hsoon⟩
      rw [if_neg hdue] at hsize
      rw [if_neg hfirst, if_neg hsoon, if_neg hdue]
      exact enforceClientLimit_eq hsize

/-- The tokens of a bucket at a call. -/
def refilled (l : ClientRateLimiter) (now : Int) (b : RateLimitBucket) : ℚ :=
  min (l.burst : ℚ) (b.tokens + seconds (timeSub now b.last) * l.ratePerSecond)

/-- The bucket of a call. -/
theorem refill_eq {b : RateLimitBucket} (h : b.Good l now) :
    refill l now b = ⟨refilled l now b, now, now⟩ := by
  have hle : b.last ≤ now := h.last_eq ▸ h.seen_le
  unfold refill refilled
  by_cases hpos : 0 < seconds (timeSub now b.last)
  · simp only [if_pos hpos]
  · have hzero : timeSub now b.last = 0 :=
      le_antisymm (not_lt.mp (mt seconds_pos_iff.mpr hpos)) (timeSub_nonneg hle)
    have hnow : now = b.last := eq_of_timeSub_nonpos hle (le_of_eq hzero)
    simp only [hzero, seconds_zero, zero_mul, add_zero, min_eq_right h.le_burst, lt_irrefl,
      if_false]
    rw [← hnow]

/-- The clients that a call leaves beside its own. -/
structure Kept (l : ClientRateLimiter) (t kept : Table String RateLimitBucket) : Prop where
  size : kept.size < l.maxClients
  get : ∀ k, kept.get k = none ∨ kept.get k = t.get k

/-- Room for a new client. -/
theorem kept_of_tracked (h : Tracked l t s) (now : Int) : Kept l (sweptClients now s)
    (if l.maxClients ≤ (sweptClients now s).size then evictOldestClientLocked (sweptClients now s)
      else sweptClients now s) := by
  have hsize := h.size_swept now
  split
  · next hfull =>
      have hne : (sweptClients now s).entries ≠ [] := by
        intro hnil
        have hzero : (sweptClients now s).size = 0 := by rw [Table.size, hnil, List.length_nil]
        have hpos := l.maxClients_pos
        omega
      obtain ⟨hone, hget⟩ := evictOldest_spec hne fun e he => h.named e (sweptClients_entries he)
      exact ⟨by omega, hget⟩
  · next hroom => exact ⟨Nat.not_le.mp hroom, fun k => .inr rfl⟩

/-- **What a call does**: it starts a bucket, takes a token, or is refused. -/
theorem allow_cases (h : Tracked l now s) (key : String) :
    ((sweptClients now s).get (clientKey key) = none ∧
        (allow l key now s).1 = ⟨true, 0⟩ ∧ ∃ kept, Kept l (sweptClients now s) kept ∧
          (allow l key now s).2.clients = kept.put (clientKey key) ⟨l.burst - 1, now, now⟩) ∨
      ∃ b, (sweptClients now s).get (clientKey key) = some b ∧ b.Good l now ∧
        ((1 ≤ refilled l now b ∧ (allow l key now s).1 = ⟨true, 0⟩ ∧
            (allow l key now s).2.clients = (sweptClients now s).put (clientKey key)
              ⟨refilled l now b - 1, now, now⟩) ∨
          (refilled l now b < 1 ∧
            (allow l key now s).1 =
              ⟨false, ⌈(1 - refilled l now b) / l.ratePerSecond * 1000000000⌉⟩ ∧
            (allow l key now s).2.clients =
              (sweptClients now s).put (clientKey key) ⟨refilled l now b, now, now⟩)) := by
  have hkept := kept_of_tracked h now
  have hgood : ∀ b, (sweptClients now s).get (clientKey key) = some b → b.Good l now :=
    fun b hb => h.bucket _ (sweptClients_entries (Table.get_eq_some.mp hb))
  rw [← clients_sweepLocked h] at hkept hgood ⊢
  unfold allow
  cases hget : (sweepLocked l now s).clients.get (clientKey key) with
  | none =>
      refine .inl ⟨rfl, ?_⟩
      simp only [hget]
      exact ⟨trivial, _, hkept, rfl⟩
  | some b =>
      refine .inr ⟨b, rfl, hgood b hget, ?_⟩
      simp only [hget, refill_eq (hgood b hget)]
      by_cases htoken : 1 ≤ refilled l now b
      · rw [if_pos htoken]
        exact .inl ⟨htoken, rfl, rfl⟩
      · rw [if_neg htoken]
        exact .inr ⟨not_le.mp htoken, rfl, rfl⟩

theorem Kept.mem {kept : Table String RateLimitBucket} (h : Kept l (sweptClients now s) kept)
    {e : String × RateLimitBucket} (he : e ∈ kept.entries) : e ∈ s.clients.entries := by
  have hget := Table.get_eq_some.mpr he
  rcases h.get e.1 with hnone | hsame
  · rw [hnone] at hget
    cases hget
  · rw [hsame] at hget
    exact sweptClients_entries (Table.get_eq_some.mp hget)

theorem clientKey_ne (key : String) : clientKey key ≠ "" := by
  unfold clientKey
  split
  · decide
  · assumption

/-- Buckets stay in order when one of them is exchanged. -/
theorem bucket_put {kept : Table String RateLimitBucket} {b : RateLimitBucket}
    (hmem : ∀ e ∈ kept.entries, e.1 ≠ "" ∧ e.2.Good l now) (hb : b.Good l now) (key : String) :
    ∀ e ∈ (kept.put (clientKey key) b).entries, e.1 ≠ "" ∧ e.2.Good l now := by
  intro e he
  rcases Table.mem_put.mp he with rfl | ⟨he, -⟩
  · exact ⟨clientKey_ne key, hb⟩
  · exact hmem e he

theorem good_refilled {b : RateLimitBucket} (h : b.Good l now) :
    (⟨refilled l now b, now, now⟩ : RateLimitBucket).Good l now := by
  have hle : b.last ≤ now := h.last_eq ▸ h.seen_le
  have hsec : 0 ≤ seconds (timeSub now b.last) := by
    rw [← seconds_zero]
    exact seconds_le_seconds (timeSub_nonneg hle)
  have hnonneg := h.nonneg
  have hrate := l.rate_pos
  exact ⟨le_min (by positivity) (by positivity), min_le_left _ _, rfl, le_refl _⟩

/-- **A call keeps the buckets in order.** -/
theorem tracked_allow (h : Tracked l t s) (hle : t ≤ now) (key : String) :
    Tracked l now (allow l key now s).2 := by
  have hlater := h.later hle
  have hswept : ∀ e ∈ (sweptClients now s).entries, e.1 ≠ "" ∧ e.2.Good l now := fun e he =>
    ⟨hlater.named e (sweptClients_entries he), hlater.bucket e (sweptClients_entries he)⟩
  have hsize := h.size_swept now
  have hentries : (allow l key now s).2.clients.size ≤ l.maxClients ∧
      ∀ e ∈ (allow l key now s).2.clients.entries, e.1 ≠ "" ∧ e.2.Good l now := by
    rcases allow_cases hlater key with ⟨hnone, -, kept, hkept, hclients⟩ | ⟨b, hget, hb⟩
    · rw [hclients]
      have hburst : (1 : ℚ) ≤ l.burst := by exact_mod_cast l.burst_pos
      have hnew : kept.get (clientKey key) = none := by
        rcases hkept.get (clientKey key) with h | h
        · exact h
        · rw [h, hnone]
      have hroom := hkept.size
      refine ⟨?_, bucket_put (fun e he => ?_) ⟨by simpa using hburst, by simp, rfl, le_refl _⟩ key⟩
      · rw [size_put_of_get_none hnew]
        omega
      · exact ⟨hlater.named e (hkept.mem he), hlater.bucket e (hkept.mem he)⟩
    · have hgood := good_refilled hb.1
      rcases hb.2 with ⟨htoken, -, hclients⟩ | ⟨-, -, hclients⟩
      · rw [hclients]
        refine ⟨(size_put_of_get hget).symm ▸ hsize, bucket_put hswept ?_ key⟩
        have hle_burst : refilled l now b ≤ l.burst := hgood.le_burst
        exact ⟨by simpa using htoken, by simp only; linarith, rfl, le_refl _⟩
      · rw [hclients]
        exact ⟨(size_put_of_get hget).symm ▸ hsize, bucket_put hswept hgood key⟩
  exact ⟨hentries.1, fun e he => (hentries.2 e he).1, fun e he => (hentries.2 e he).2⟩

/-! ### Credit

The credit of a client is what its bucket would hold now, a full one for a client without a bucket.
It grows at the rate, and a call that is allowed pays one token of it. Deleting a bucket is a gift
unless it would be full. -/

/-- What a client can spend at `t`. -/
def credit (l : ClientRateLimiter) (k : String) (t : Int)
    (clients : Table String RateLimitBucket) : ℚ :=
  match clients.get k with
  | none => l.burst
  | some b => min (l.burst : ℚ) (b.tokens + seconds (t - b.last) * l.ratePerSecond)

theorem credit_of_none {clients : Table String RateLimitBucket} (h : clients.get k = none)
    (t : Int) : credit l k t clients = l.burst := by
  unfold credit
  rw [h]

theorem credit_of_some {clients : Table String RateLimitBucket} {b : RateLimitBucket}
    (h : clients.get k = some b) (t : Int) :
    credit l k t clients =
      min (l.burst : ℚ) (b.tokens + seconds (t - b.last) * l.ratePerSecond) := by
  unfold credit
  rw [h]

theorem credit_le_burst (l : ClientRateLimiter) (k : String) (t : Int)
    (clients : Table String RateLimitBucket) : credit l k t clients ≤ l.burst := by
  unfold credit
  split
  · exact le_refl _
  · exact min_le_left _ _

theorem seconds_nonneg {d : Int} (h : 0 ≤ d) : 0 ≤ seconds d := by
  rw [← seconds_zero]
  exact seconds_le_seconds h

theorem credit_nonneg (h : Tracked l t s) (k : String) : 0 ≤ credit l k t s.clients := by
  cases hget : s.clients.get k with
  | none =>
      rw [credit_of_none hget]
      positivity
  | some b =>
      have hgood := h.bucket _ (Table.get_eq_some.mp hget)
      have hle : b.last ≤ t := hgood.last_eq ▸ hgood.seen_le
      have hsec := seconds_nonneg (Int.sub_nonneg.mpr hle)
      have hnonneg := hgood.nonneg
      have hrate := l.rate_pos
      rw [credit_of_some hget]
      exact le_min (by positivity) (by positivity)

/-- Credit grows at the rate. -/
theorem credit_later (hle : t ≤ now) (k : String) (clients : Table String RateLimitBucket) :
    credit l k now clients ≤ credit l k t clients + l.ratePerSecond * seconds (now - t) := by
  have hgrow : 0 ≤ l.ratePerSecond * seconds (now - t) :=
    mul_nonneg (le_of_lt l.rate_pos) (seconds_nonneg (Int.sub_nonneg.mpr hle))
  cases hget : clients.get k with
  | none =>
      rw [credit_of_none hget, credit_of_none hget]
      linarith
  | some b =>
      have hsplit : seconds (now - b.last) = seconds (t - b.last) + seconds (now - t) := by
        rw [← seconds_add]
        congr 1
        omega
      rw [credit_of_some hget, credit_of_some hget, hsplit, ← min_add_add_right]
      refine min_le_min (by linarith) ?_
      linarith

/-- Ten idle minutes fill a bucket. -/
def FullAfterIdle (l : ClientRateLimiter) : Prop :=
  (l.burst : ℚ) ≤ l.ratePerSecond * seconds (10 * minute + 1)

theorem get_sweptClients (now : Int) (s : LimiterState) (k : String) :
    (sweptClients now s).get k = s.clients.get k ∨
      (sweptClients now s).get k = none ∧ ∃ b, s.clients.get k = some b ∧ isIdle now b = true := by
  unfold sweptClients
  split
  · exact .inl rfl
  · cases hget : s.clients.get k with
    | none =>
        refine .inl (Option.eq_none_iff_forall_ne_some.mpr fun b hb => ?_)
        have hmem := (Table.mem_restrict.mp (Table.get_eq_some.mp hb)).1
        rw [Table.get_eq_some.mpr hmem] at hget
        cases hget
    | some b =>
        cases hidle : isIdle now b with
        | true =>
            refine .inr ⟨Option.eq_none_iff_forall_ne_some.mpr fun b' hb => ?_, b, rfl, hidle⟩
            obtain ⟨hmem, hbusy⟩ := Table.mem_restrict.mp (Table.get_eq_some.mp hb)
            rw [Table.eq_of_mem hmem (Table.get_eq_some.mp hget), hidle] at hbusy
            cases hbusy
        | false =>
            refine .inl (Table.get_eq_some.mpr (Table.mem_restrict.mpr
              ⟨Table.get_eq_some.mp hget, ?_⟩))
            rw [hidle]
            rfl

/-- **Where ten minutes fill a bucket**, deleting the idle ones gives nothing away. -/
theorem credit_swept (hfull : FullAfterIdle l) (h : Tracked l now s) (k : String) :
    credit l k now (sweptClients now s) ≤ credit l k now s.clients := by
  rcases get_sweptClients now s k with hsame | ⟨-, b, hget, hidle⟩
  · unfold credit
    rw [hsame]
  · have hgood : b.Good l now := h.bucket _ (Table.get_eq_some.mp hget)
    have hlong : 10 * minute + 1 ≤ now - b.last := by
      have hgt := of_decide_eq_true hidle
      have hsub := timeSub_le hgood.seen_le
      rw [hgood.last_eq]
      omega
    have hsec := mul_le_mul_of_nonneg_left (seconds_le_seconds hlong) (le_of_lt l.rate_pos)
    have hnonneg := hgood.nonneg
    refine (credit_le_burst l k now _).trans ?_
    rw [credit_of_some hget]
    refine le_min (le_refl _) (hfull.trans ?_)
    linarith

/-- The credit of a client whose bucket has just been filled. -/
theorem credit_le_tokens {clients : Table String RateLimitBucket} {tokens : ℚ}
    (h : clients.get k = some ⟨tokens, now, now⟩) : credit l k now clients ≤ tokens := by
  rw [credit_of_some h, Int.sub_self, seconds_zero, zero_mul, add_zero]
  exact min_le_right _ _

/-- A refill gives no more than the credit. -/
theorem refilled_le_credit {clients : Table String RateLimitBucket} {b : RateLimitBucket}
    (hget : clients.get k = some b) (hgood : b.Good l now) :
    refilled l now b ≤ credit l k now clients := by
  have hle : b.last ≤ now := hgood.last_eq ▸ hgood.seen_le
  have hsec := mul_le_mul_of_nonneg_right (seconds_le_seconds (timeSub_le hle))
    (le_of_lt l.rate_pos)
  rw [refilled, credit_of_some hget]
  exact min_le_min (le_refl _) (by linarith)

/-- Another client's call leaves a bucket alone, or takes it away. -/
theorem get_allow_of_ne (h : Tracked l now s) {key : String} (hne : k ≠ clientKey key) :
    (allow l key now s).2.clients.get k = none ∨
      (allow l key now s).2.clients.get k = (sweptClients now s).get k := by
  rcases allow_cases h key with ⟨-, -, kept, hkept, hclients⟩ |
    ⟨b, -, -, ⟨-, -, hclients⟩ | ⟨-, -, hclients⟩⟩
  · rw [hclients, get_put_of_ne hne]
    exact hkept.get k
  · exact .inr (by rw [hclients, get_put_of_ne hne])
  · exact .inr (by rw [hclients, get_put_of_ne hne])

/-- **A token taken is paid with credit.** -/
theorem credit_allow (h : Tracked l now s) (key : String)
    (hkeep : (allow l key now s).2.clients.get k = none → (sweptClients now s).get k = none) :
    (if clientKey key = k ∧ (allow l key now s).1.allowed = true then 1 else 0) +
      credit l k now (allow l key now s).2.clients ≤ credit l k now (sweptClients now s) := by
  by_cases hkey : clientKey key = k
  · subst hkey
    rcases allow_cases h key with ⟨hnone, hans, kept, -, hclients⟩ |
      ⟨b, hget, hgood, ⟨-, hans, hclients⟩ | ⟨-, hans, hclients⟩⟩
    · have hnew := credit_le_tokens (l := l) (get_put_self kept (clientKey key)
        ⟨l.burst - 1, now, now⟩)
      rw [hans, hclients, credit_of_none hnone, if_pos ⟨rfl, rfl⟩]
      linarith
    · have hcredit := refilled_le_credit hget hgood
      have hnew := credit_le_tokens (l := l) (get_put_self (sweptClients now s) (clientKey key)
        ⟨refilled l now b - 1, now, now⟩)
      rw [hans, hclients, if_pos ⟨rfl, rfl⟩]
      linarith
    · have hcredit := refilled_le_credit hget hgood
      have hnew := credit_le_tokens (l := l) (get_put_self (sweptClients now s) (clientKey key)
        ⟨refilled l now b, now, now⟩)
      rw [hans, hclients, if_neg (by simp)]
      linarith
  · rw [if_neg fun hboth => hkey hboth.1, zero_add]
    rcases get_allow_of_ne h (k := k) (fun heq => hkey heq.symm) with hnone | hsame
    · rw [credit_of_none hnone, credit_of_none (hkeep hnone)]
    · unfold credit
      rw [hsame]

/-- **What a client is allowed in a span** is paid with the credit it had and the credit it
gained. -/
theorem countP_allowedTo_le (hfull : FullAfterIdle l) {span : List RateCall} {stop : Int}
    (h : Tracked l t s) (hstop : t ≤ stop) (hord : InOrder span)
    (hspan : ∀ c ∈ span, t ≤ c.now ∧ c.now ≤ stop)
    (hkeep : ∀ ev ∈ history (execAllow l) s span, ¬ EvictedByCap k ev) :
    ((history (execAllow l) s span).countP (allowedTo k) : ℚ) ≤
      credit l k t s.clients + l.ratePerSecond * seconds (stop - t) := by
  induction span generalizing s t with
  | nil =>
      have hcredit := credit_nonneg h k
      have hgain := mul_nonneg (le_of_lt l.rate_pos) (seconds_nonneg (Int.sub_nonneg.mpr hstop))
      simp only [history, List.countP_nil, Nat.cast_zero]
      linarith
  | cons c span ih =>
      obtain ⟨hc, hspan⟩ := List.forall_mem_cons.mp hspan
      obtain ⟨hfirst, hord⟩ := List.pairwise_cons.mp hord
      rw [history, List.forall_mem_cons] at hkeep
      have hlater := h.later hc.1
      have hrest := ih (tracked_allow h hc.1 c.key) hc.2 hord
        (fun d hd => ⟨hfirst d hd, (hspan d hd).2⟩) hkeep.2
      -- a request that is allowed takes one token from the credit of its key
      have hspend := credit_allow (k := k) hlater c.key fun hnone => by
        by_contra hsome
        exact hkeep.1 ⟨Option.ne_none_iff_exists'.mp hsome, hnone⟩
      -- sweeping idle clients gives nobody more than it would have had
      have hswept := credit_swept hfull hlater k
      have hgain := credit_later (l := l) hc.1 k s.clients
      have hsplit : seconds (stop - t) = seconds (c.now - t) + seconds (stop - c.now) := by
        rw [← seconds_add]
        congr 1
        omega
      have hcount : (if allowedTo k ⟨c, s, (execAllow l c s).1, (execAllow l c s).2⟩ = true
          then 1 else 0 : ℚ) =
          if clientKey c.key = k ∧ (allow l c.key c.now s).1.allowed = true then 1 else 0 := by
        simp [allowedTo, execAllow]
      rw [history, List.countP_cons, Nat.cast_add, Nat.cast_ite, Nat.cast_one, Nat.cast_zero,
        hcount, hsplit, mul_add, show execAllow l c s = allow l c.key c.now s from rfl]
      linarith

end Steps

/-! ### Runs from the start

The credit at the start of a span and what it grows by in the span pay for all that is allowed in
it. -/

section Runs

variable {l : ClientRateLimiter}

/-- The buckets are in order **at every moment of a run**. -/
theorem tracked_final {s : LimiterState} {t : Int} (h : Tracked l t s) {calls : List RateCall}
    (hord : InOrder calls) (hstart : ∀ c ∈ calls, t ≤ c.now) {stop : Int} (hstop : t ≤ stop)
    (hlast : ∀ c ∈ calls, c.now ≤ stop) : Tracked l stop (final (execAllow l) s calls) := by
  induction calls generalizing s t with
  | nil => exact h.later hstop
  | cons c calls ih =>
      obtain ⟨hfirst, hrest⟩ := List.pairwise_cons.mp hord
      obtain ⟨hstart, -⟩ := List.forall_mem_cons.mp hstart
      obtain ⟨hstop, hlast⟩ := List.forall_mem_cons.mp hlast
      exact ih (tracked_allow h hstart c.key) hrest hfirst hstop hlast

/-- The same for the state before a call of a run. -/
theorem tracked_before (l : ClientRateLimiter) (before after : List RateCall) (c : RateCall)
    (hord : InOrder (before ++ c :: after)) :
    Tracked l c.now (final (execAllow l) {} before) := by
  obtain ⟨hbefore, -, hcross⟩ := List.pairwise_append.mp hord
  have hle : ∀ d ∈ before, d.now ≤ c.now := fun d hd => hcross d hd c List.mem_cons_self
  cases before with
  | nil => exact tracked_empty l c.now
  | cons d before =>
      refine tracked_final (tracked_empty l d.now) hbefore ?_ (hle d List.mem_cons_self) hle
      exact List.forall_mem_cons.mpr ⟨le_refl _, (List.pairwise_cons.mp hbefore).1⟩

/-- Other clients' calls leave a bucket alone, or take it away. -/
theorem get_final_of_ne {s : LimiterState} {t : Int} (h : Tracked l t s) {k : String}
    {b : RateLimitBucket} (hb : s.clients.get k = none ∨ s.clients.get k = some b)
    {calls : List RateCall} (hord : InOrder calls) (hstart : ∀ c ∈ calls, t ≤ c.now)
    (hne : ∀ c ∈ calls, clientKey c.key ≠ k) :
    (final (execAllow l) s calls).clients.get k = none ∨
      (final (execAllow l) s calls).clients.get k = some b := by
  induction calls generalizing s t with
  | nil => exact hb
  | cons c calls ih =>
      obtain ⟨hfirst, hrest⟩ := List.pairwise_cons.mp hord
      obtain ⟨hstart, -⟩ := List.forall_mem_cons.mp hstart
      obtain ⟨hnec, hne⟩ := List.forall_mem_cons.mp hne
      refine ih (tracked_allow h hstart c.key) ?_ hrest hfirst hne
      rcases get_allow_of_ne (h.later hstart) (Ne.symm hnec) with hnone | hsame
      · exact .inl hnone
      · rcases get_sweptClients c.now s k with hkept | ⟨hgone, -⟩
        · rw [hkept] at hsame
          exact hb.imp hsame.trans hsame.trans
        · exact .inl (hsame.trans hgone)

/-- The wait of a refused call is at most a minute. -/
theorem wait_le {x : ℚ} (l : ClientRateLimiter) (hx : 0 ≤ x) :
    ⌈(1 - x) / l.ratePerSecond * 1000000000⌉ ≤ minute := by
  have hrate := l.rate_pos
  have hle := l.le_rate
  refine Int.ceil_le.mpr ?_
  have hdiv : (1 - x) / l.ratePerSecond ≤ 60 := by
    rw [div_le_iff₀ hrate]
    linarith
  unfold minute
  push_cast
  linarith

/-- The wait gives a whole token. -/
theorem one_le_of_wait {x : ℚ} (l : ClientRateLimiter) {d : Int}
    (hd : ⌈(1 - x) / l.ratePerSecond * 1000000000⌉ ≤ d) :
    1 ≤ x + seconds d * l.ratePerSecond := by
  have hrate := l.rate_pos
  have hceil := (Int.le_ceil ((1 - x) / l.ratePerSecond * 1000000000)).trans
    (show ((⌈(1 - x) / l.ratePerSecond * 1000000000⌉ : Int) : ℚ) ≤ d by exact_mod_cast hd)
  have hsec : (1 - x) / l.ratePerSecond ≤ seconds d := by
    unfold seconds
    linarith
  rw [div_le_iff₀ hrate] at hsec
  linarith

/-- A client whose bucket has filled to a token since, or is gone, is served. -/
theorem allowed_of_waited {s : LimiterState} {now t : Int} (h : Tracked l now s) {key : String}
    {x : ℚ} (hx : 0 ≤ x) (hbucket : s.clients.get (clientKey key) = none ∨
      s.clients.get (clientKey key) = some ⟨x, t, t⟩)
    (hwait : t + ⌈(1 - x) / l.ratePerSecond * 1000000000⌉ ≤ now) :
    (allow l key now s).1.allowed = true := by
  rcases allow_cases h key with ⟨-, hans, -⟩ | ⟨b, hget, -, ⟨-, hans, -⟩ | ⟨hlow, -, -⟩⟩
  · rw [hans]
  · rw [hans]
  · exfalso
    have hb : b = ⟨x, t, t⟩ := by
      rcases get_sweptClients now s (clientKey key) with hkept | ⟨hgone, -⟩
      · rw [hkept] at hget
        rcases hbucket with hnone | hsome
        · rw [hnone] at hget
          cases hget
        · exact Option.some.inj (hget.symm.trans hsome)
      · rw [hgone] at hget
        cases hget
    have hlt : ⌈(1 - x) / l.ratePerSecond * 1000000000⌉ < 2 ^ 63 :=
      lt_of_le_of_lt (wait_le l hx) (by decide)
    have htoken := one_le_of_wait l (le_timeSub hlt hwait)
    have hburst : (1 : ℚ) ≤ l.burst := by exact_mod_cast l.burst_pos
    rw [hb, refilled] at hlow
    exact absurd (le_min hburst htoken) (not_le.mpr hlow)

/-- **A refused client that waits is served**: the bucket has filled, or is gone. -/
theorem served_of_wait (l : ClientRateLimiter) {before between : List RateCall} {c next : RateCall}
    (hord : InOrder (before ++ c :: (between ++ [next])))
    (hkey : clientKey next.key = clientKey c.key)
    (hbetween : ∀ d ∈ between, clientKey d.key ≠ clientKey c.key)
    (hrefused : (execAllow l c (final (execAllow l) {} before)).1.allowed = false)
    (hwait : c.now + (execAllow l c (final (execAllow l) {} before)).1.wait ≤ next.now) :
    (execAllow l next (final (execAllow l) {} (before ++ c :: between))).1.allowed = true := by
  have htracked := tracked_before l before (between ++ [next]) c hord
  obtain ⟨-, hafter, -⟩ := List.pairwise_append.mp hord
  obtain ⟨hfirst, hrest⟩ := List.pairwise_cons.mp hafter
  have hnext := tracked_before l (before ++ c :: between) [] next
    (by rwa [List.append_assoc, List.cons_append])
  rw [final_append] at hnext ⊢
  generalize final (execAllow l) {} before = s at *
  rcases allow_cases htracked c.key with ⟨-, hans, -⟩ |
    ⟨b, -, hgood, ⟨-, hans, -⟩ | ⟨-, hans, hclients⟩⟩
  · rw [show (execAllow l c s).1 = ⟨true, 0⟩ from hans] at hrefused
    cases hrefused
  · rw [show (execAllow l c s).1 = ⟨true, 0⟩ from hans] at hrefused
    cases hrefused
  · have hput := get_put_self (sweptClients c.now s) (clientKey c.key)
      ⟨refilled l c.now b, c.now, c.now⟩
    rw [← hclients] at hput
    have hbucket := get_final_of_ne (tracked_allow htracked (le_refl _) c.key) (.inr hput)
      (List.pairwise_append.mp hrest).1 (fun d hd => hfirst d (List.mem_append_left _ hd)) hbetween
    rw [← hkey] at hbucket
    refine allowed_of_waited hnext (good_refilled hgood).nonneg hbucket ?_
    rwa [show (execAllow l c s).1.wait = _ from congrArg Answer.wait hans] at hwait

/-- **Where ten minutes fill a bucket** the limiter limits. -/
theorem bounded_of_fullAfterIdle (hfull : FullAfterIdle l) : Bounded l where
  tracked calls hord := by
    have hstop : ∃ stop, ∀ c ∈ calls, c.now ≤ stop := by
      clear hord
      induction calls with
      | nil => exact ⟨0, fun c hc => (List.not_mem_nil hc).elim⟩
      | cons c calls ih =>
          obtain ⟨stop, hstop⟩ := ih
          refine ⟨max c.now stop, List.forall_mem_cons.mpr ⟨le_max_left _ _, fun d hd => ?_⟩⟩
          exact (hstop d hd).trans (le_max_right _ _)
    obtain ⟨stop, hstop⟩ := hstop
    cases calls with
    | nil => exact Nat.zero_le _
    | cons c calls =>
        have hfirst : ∀ d ∈ c :: calls, c.now ≤ d.now :=
          List.forall_mem_cons.mpr ⟨le_refl c.now, (List.pairwise_cons.mp hord).1⟩
        exact (tracked_final (tracked_empty l c.now) hord hfirst (hstop c List.mem_cons_self)
          hstop).size
  spent before span k start T hord hspan hkeep := by
    have hrate := le_of_lt l.rate_pos
    cases span with
    | nil =>
        have hgain := mul_nonneg hrate (seconds_nonneg (Int.natCast_nonneg T))
        simp only [history, List.countP_nil, Nat.cast_zero]
        positivity
    | cons c span =>
        have htracked := tracked_before l before span c hord
        obtain ⟨-, hord, -⟩ := List.pairwise_append.mp hord
        have hc := hspan c List.mem_cons_self
        have hfirst : ∀ d ∈ c :: span, c.now ≤ d.now :=
          List.forall_mem_cons.mpr ⟨le_refl c.now, (List.pairwise_cons.mp hord).1⟩
        -- at the first call of the span the credit is at most the burst
        have hcount := countP_allowedTo_le hfull htracked hc.2 hord
          (fun d hd => ⟨hfirst d hd, (hspan d hd).2⟩) hkeep
        have hcredit := credit_le_burst l k c.now (final (execAllow l) {} before).clients
        have hshort : start + T - c.now ≤ T := by omega
        have hgain := mul_le_mul_of_nonneg_left (seconds_le_seconds hshort) hrate
        linarith
  served _ _ _ _ hord hkey hbetween hrefused hwait :=
    served_of_wait l hord hkey hbetween hrefused hwait

/-! ### A burst before the sweep and one after it

A client empties its bucket and comes back when it has just been deleted: two bursts in a little over ten minutes. Where ten minutes do not fill a bucket, these are more than the rate allows. -/

/-- The limiter after `n` calls of its one client at `t`. -/
def aloneState (l : ClientRateLimiter) (n : ℕ) (t : Int) : LimiterState :=
  ⟨⟨[("a", ⟨l.burst - n, t, t⟩)], List.nodup_singleton _⟩, t⟩

theorem put_alone (l : ClientRateLimiter) (n : ℕ) (t : Int) (b : RateLimitBucket) :
    (aloneState l n t).clients.put "a" b = ⟨[("a", b)], List.nodup_singleton _⟩ := by
  rfl

theorem timeSub_self (t : Int) : timeSub t t = 0 := by
  unfold timeSub
  omega

/-- The first call of a burst. -/
theorem execAllow_first (l : ClientRateLimiter) (t : Int) :
    execAllow l ⟨"a", t⟩ {} = (⟨true, 0⟩, aloneState l 1 t) := by
  have hroom : ¬ l.maxClients ≤ (Table.empty : Table String RateLimitBucket).size :=
    Nat.not_le.mpr l.maxClients_pos
  have hsweep : sweepLocked l t {} = ⟨.empty, t⟩ := if_pos rfl
  unfold execAllow allow
  simp only [hsweep, Table.get_empty, if_neg hroom]
  rw [aloneState, Nat.cast_one]
  rfl

/-- The next call of a burst. -/
theorem execAllow_alone (l : ClientRateLimiter) {t : Int} (ht : t ≠ 0) {n : ℕ} (hn : n < l.burst) :
    execAllow l ⟨"a", t⟩ (aloneState l n t) = (⟨true, 0⟩, aloneState l (n + 1) t) := by
  have hsweep : sweepLocked l t (aloneState l n t) = aloneState l n t := by
    unfold sweepLocked aloneState
    rw [if_neg ht, if_pos (by rw [timeSub_self]; decide)]
  have hget : (aloneState l n t).clients.get (clientKey "a") =
      some ⟨l.burst - n, t, t⟩ := rfl
  have hrefill : refill l t ⟨l.burst - n, t, t⟩ = ⟨l.burst - n, t, t⟩ := by
    unfold refill
    simp only [timeSub_self, seconds_zero, lt_irrefl, if_false]
  have htoken : (1 : ℚ) ≤ l.burst - n := by
    have hcast : (n : ℚ) + 1 ≤ l.burst := by exact_mod_cast hn
    linarith
  unfold execAllow allow
  simp only [hsweep, hget, hrefill, if_pos htoken]
  rw [show clientKey "a" = "a" from rfl, put_alone, aloneState, aloneState, Nat.cast_add,
    Nat.cast_one, sub_sub]

/-- Ten minutes later the bucket is deleted. -/
theorem execAllow_idle (l : ClientRateLimiter) {t : Int} (ht : t ≠ 0) (n : ℕ) :
    execAllow l ⟨"a", t + (10 * minute + 1)⟩ (aloneState l n t) =
      (⟨true, 0⟩, aloneState l 1 (t + (10 * minute + 1))) := by
  have hsub : timeSub (t + (10 * minute + 1)) t = 10 * minute + 1 := by
    unfold timeSub minute
    omega
  have hidle : deleteIdle (t + (10 * minute + 1)) (aloneState l n t).clients = .empty := by
    have hentry : isIdle (t + (10 * minute + 1)) ⟨l.burst - n, t, t⟩ = true := by
      unfold isIdle
      rw [hsub]
      decide
    unfold deleteIdle aloneState Table.restrict Table.empty
    simp [hentry]
  have hroom : ¬ l.maxClients ≤ (Table.empty : Table String RateLimitBucket).size :=
    Nat.not_le.mpr l.maxClients_pos
  have hsweep : sweepLocked l (t + (10 * minute + 1)) (aloneState l n t) =
      ⟨.empty, t + (10 * minute + 1)⟩ := by
    unfold sweepLocked
    rw [if_neg (show (aloneState l n t).lastSweep ≠ 0 from ht),
      if_neg (by rw [show (aloneState l n t).lastSweep = t from rfl, hsub]; decide), hidle,
      enforceClientLimit_eq (Nat.zero_le _)]
  unfold execAllow allow
  simp only [hsweep, Table.get_empty, if_neg hroom]
  rw [aloneState, Nat.cast_one]
  rfl

/-- The rest of a burst is allowed. -/
theorem history_alone (l : ClientRateLimiter) {t : Int} (ht : t ≠ 0) {n m : ℕ}
    (h : n + m ≤ l.burst) :
    (history (execAllow l) (aloneState l n t) (List.replicate m ⟨"a", t⟩)).countP
        (allowedTo "a") = m ∧
      final (execAllow l) (aloneState l n t) (List.replicate m ⟨"a", t⟩) =
        aloneState l (n + m) t := by
  induction m generalizing n with
  | zero => exact ⟨rfl, rfl⟩
  | succ m ih =>
      have hcall := execAllow_alone l ht (show n < l.burst by omega)
      obtain ⟨hcount, hfinal⟩ := ih (n := n + 1) (by omega)
      rw [List.replicate_succ, history, final, hcall, List.countP_cons, hcount, hfinal]
      exact ⟨rfl, by rw [Nat.add_right_comm, Nat.add_assoc]⟩

/-- A client that calls as often as the burst, twice, with ten idle minutes between. -/
def twoBursts (l : ClientRateLimiter) : List RateCall :=
  List.replicate l.burst ⟨"a", 1⟩ ++ List.replicate l.burst ⟨"a", 1 + (10 * minute + 1)⟩

/-- One burst from a limiter that starts or resets the bucket. -/
theorem countP_burst (l : ClientRateLimiter) {t : Int} (ht : t ≠ 0) {s : LimiterState}
    (h : execAllow l ⟨"a", t⟩ s = (⟨true, 0⟩, aloneState l 1 t)) :
    (history (execAllow l) s (List.replicate l.burst ⟨"a", t⟩)).countP (allowedTo "a") = l.burst ∧
      final (execAllow l) s (List.replicate l.burst ⟨"a", t⟩) = aloneState l l.burst t := by
  have hpos := l.burst_pos
  obtain ⟨m, hm⟩ : ∃ m, l.burst = m + 1 := ⟨l.burst - 1, by omega⟩
  obtain ⟨hcount, hfinal⟩ := history_alone l ht (n := 1) (m := m) (by omega)
  rw [hm, List.replicate_succ, history, final, h, List.countP_cons, hcount, hfinal, ← hm,
    Nat.add_comm 1 m, ← hm]
  exact ⟨hm.symm ▸ rfl, rfl⟩

/-- **Two bursts are allowed.** -/
theorem countP_twoBursts (l : ClientRateLimiter) :
    (history (execAllow l) {} (twoBursts l)).countP (allowedTo "a") = 2 * l.burst := by
  obtain ⟨hcount, hfinal⟩ := countP_burst l (by decide) (execAllow_first l 1)
  obtain ⟨hcount', -⟩ := countP_burst l (by decide) (execAllow_idle l (t := 1) (by decide) l.burst)
  rw [twoBursts, history_append, List.countP_append, hcount, hfinal, hcount', Nat.two_mul]

/-- A client has a bucket after its call. -/
theorem get_allow_self (l : ClientRateLimiter) (key : String) (now : Int) (s : LimiterState) :
    (allow l key now s).2.clients.get (clientKey key) ≠ none := by
  unfold allow
  simp only
  split
  · rw [get_put_self]
    exact Option.some_ne_none _
  · split
    · rw [get_put_self]
      exact Option.some_ne_none _
    · rw [get_put_self]
      exact Option.some_ne_none _

theorem twoBursts_kept (l : ClientRateLimiter) :
    ∀ ev ∈ history (execAllow l) {} (twoBursts l), ¬ EvictedByCap "a" ev := by
  rintro ev hev ⟨-, hnone⟩
  obtain ⟨hmem, hexec⟩ := history_event hev
  have hkey : clientKey ev.input.key = "a" := by
    rcases List.mem_append.mp hmem with hmem | hmem <;> rw [List.eq_of_mem_replicate hmem] <;> rfl
  have hsome := get_allow_self l ev.input.key ev.input.now ev.before
  rw [show allow l ev.input.key ev.input.now ev.before = _ from hexec, hkey] at hsome
  exact hsome hnone

theorem twoBursts_inOrder (l : ClientRateLimiter) : InOrder (twoBursts l) := by
  refine List.pairwise_append.mpr ⟨List.pairwise_replicate.mpr (.inr (le_refl _)),
    List.pairwise_replicate.mpr (.inr (le_refl _)), fun a ha b hb => ?_⟩
  rw [List.eq_of_mem_replicate ha, List.eq_of_mem_replicate hb]
  decide

theorem twoBursts_span (l : ClientRateLimiter) : ∀ c ∈ twoBursts l,
    1 ≤ c.now ∧ c.now ≤ 1 + ((10 * minute + 1).toNat : ℕ) := by
  intro c hc
  rcases List.mem_append.mp hc with hc | hc <;> rw [List.eq_of_mem_replicate hc] <;> decide

/-- A limiter that limits allows two bursts only if the second has been earned. -/
theorem fullAfterIdle_of_bounded (h : Bounded l) : FullAfterIdle l := by
  have hspent := h.spent [] (twoBursts l) "a" 1 (10 * minute + 1).toNat (twoBursts_inOrder l)
    (twoBursts_span l) (twoBursts_kept l)
  rw [show final (execAllow l) {} [] = {} from rfl, countP_twoBursts,
    show (((10 * minute + 1).toNat : ℕ) : Int) = 10 * minute + 1 from rfl] at hspent
  push_cast at hspent
  unfold FullAfterIdle
  linarith

end Runs

/-- **When the limiter limits.** For every accepted configuration it is exactly when ten idle
minutes, after which a bucket is deleted, fill it: when the burst is at most ten times the requests
per minute, but for the nanosecond that the sweep waits longer. -/
theorem bounded_iff {cfg : RateLimitConfig} {l : ClientRateLimiter}
    (hcfg : newClientRateLimiter cfg = some l) :
    Bounded l ↔ cfg.tokens * 60000000000 ≤ cfg.requestsPerMinute * 600000000001 := by
  have hiff : Bounded l ↔ FullAfterIdle l := ⟨fullAfterIdle_of_bounded, bounded_of_fullAfterIdle⟩
  unfold newClientRateLimiter at hcfg
  split at hcfg
  · cases hcfg
  · next hrpm =>
      have hl := Option.some.inj hcfg
      have htokens : 0 ≤ cfg.tokens := by
        unfold RateLimitConfig.tokens
        split <;> omega
      have hburst : (l.burst : ℚ) = cfg.tokens := by
        rw [← hl]
        exact_mod_cast Int.toNat_of_nonneg htokens
      have hrate : l.ratePerSecond = cfg.requestsPerMinute / 60 := by rw [← hl]
      have hseconds : seconds (10 * minute + 1) = 600000000001 / 1000000000 := by
        unfold seconds minute
        norm_num
      rw [hiff, FullAfterIdle, hburst, hrate, hseconds, ← Int.cast_le (R := ℚ)]
      push_cast
      constructor <;> intro h <;> linarith

/-- The configuration of the flags' defaults. -/
theorem bounded_iff_default : Bounded ((newClientRateLimiter ⟨600, 120, 4096⟩).get (by decide)) ↔
    (120 : Int) * 60000000000 ≤ 600 * 600000000001 :=
  bounded_iff (Option.some_get _).symm

/-- One request a minute, with a burst of eleven. -/
def largeBurst : ClientRateLimiter where
  ratePerSecond := (1 : Int) / 60
  burst := 11
  maxClients := 4096
  le_rate := by norm_num
  burst_pos := by decide
  maxClients_pos := by decide

/-- Eleven calls, ten minutes and a nanosecond, and eleven calls are all allowed, though these ten
minutes give ten tokens only. -/
theorem largeBurst_overspends : newClientRateLimiter ⟨1, 11, 0⟩ = some largeBurst ∧
    (history (execAllow largeBurst) {} (twoBursts largeBurst)).countP (allowedTo "a") = 22 ∧
    ¬ Bounded largeBurst := by
  refine ⟨rfl, countP_twoBursts largeBurst, fun h => ?_⟩
  have hfull := fullAfterIdle_of_bounded h
  unfold FullAfterIdle seconds minute largeBurst at hfull
  norm_num at hfull

end Phragma.Controld
