import Phragma.Store.Approvals
import Phragma.Store.AuditChain

/-!
# Phragma.Store.ApprovalIds

Which **approval an id names**.

`CreateChangeApproval` hands out the decimal numeral of the approval's number. The preparation of a
version reads the id it is given with `parseApprovalID`, a digit loop in wrapping 64-bit
arithmetic, and looks the approval up by the number that comes out. So leading zeros and multiples
of 2^64 make no difference, and the approval that is consumed carries the given id exactly when
the id is a numeral that the loop reads as it is written (`approval_named_iff`).
-/

namespace Phragma.Store

open Lib Go Policy

variable {H : IdentityHash} {D : Digest}

/-! ### Reading an id -/

/-- The numeral of a 64-bit number other than zero, as `CreateChangeApproval` hands it out. -/
def IsApprovalID (id : GoString) : Prop := ∃ n, 0 < n ∧ n < 2 ^ 64 ∧ id = sprintD n

/-- The loop on digits: their value, wrapped around. -/
theorem parseDigits_digits {ds : List Char} (hds : ∀ d ∈ ds, d.isDigit = true) (parsed : Nat) :
    parseDigits (parsed % 2 ^ 64) (ds.map .char) =
      some (Nat.ofDigitChars 10 ds parsed % 2 ^ 64) := by
  induction ds generalizing parsed with
  | nil => rfl
  | cons d ds ih =>
      obtain ⟨hlo, hhi⟩ := Char.isDigit_iff_toNat.mp (hds d List.mem_cons_self)
      have hdigit : ¬ (d < '0' ∨ '9' < d) := by
        rw [not_or, Char.not_lt, Char.not_lt]
        exact ⟨hlo, hhi⟩
      have hstep : (parsed % 2 ^ 64 * 10 + (d.toNat - '0'.toNat)) % 2 ^ 64 =
          (10 * parsed + (d.toNat - '0'.toNat)) % 2 ^ 64 := by
        omega
      rw [List.map_cons, parseDigits, show (Rune.char d).toChar = d from rfl, if_neg hdigit, hstep,
        ih fun d hd => hds d (List.mem_cons_of_mem _ hd), Nat.ofDigitChars_cons]

/-- What the loop reads is a 64-bit number. -/
theorem parseDigits_lt {id : GoString} {parsed key : Nat} (hp : parsed < 2 ^ 64)
    (h : parseDigits parsed id = some key) : key < 2 ^ 64 := by
  induction id generalizing parsed with
  | nil =>
      cases h
      exact hp
  | cons r id ih =>
      rw [parseDigits] at h
      split at h
      · cases h
      · exact ih (Nat.mod_lt _ (by decide)) h

/-- An id that was handed out is read back. -/
theorem parseApprovalID_sprintD {n : Nat} (hpos : 0 < n) (hlt : n < 2 ^ 64) :
    parseApprovalID (sprintD n) = some n := by
  have hdigits := parseDigits_digits (fun d hd => isDigit_of_mem_decimal (n := n) hd) 0
  rw [toList_decimal, Nat.ofDigitChars_ten_toDigits, Nat.mod_eq_of_lt hlt] at hdigits
  have hparse : parseDigits 0 (sprintD n) = some n := by
    rw [sprintD, GoString.ofString, toList_decimal]
    exact hdigits
  rw [parseApprovalID, hparse]
  exact if_neg (by omega)

theorem parseApprovalID_range {id : GoString} {key : Nat} (h : parseApprovalID id = some key) :
    0 < key ∧ key < 2 ^ 64 := by
  obtain ⟨parsed, hparsed, hkey⟩ := Option.bind_eq_some_iff.mp h
  split at hkey
  · cases hkey
  · cases hkey
    exact ⟨by omega, parseDigits_lt (by decide) hparsed⟩

/-- An id is read as the number it is the numeral of **exactly when it is an approval id**. -/
theorem sprintD_of_parse_iff {id : GoString} {key : Nat} (h : parseApprovalID id = some key) :
    sprintD key = id ↔ IsApprovalID id := by
  obtain ⟨hpos, hlt⟩ := parseApprovalID_range h
  constructor
  · intro heq
    exact ⟨key, hpos, hlt, heq.symm⟩
  · rintro ⟨n, hn, hnlt, rfl⟩
    rw [parseApprovalID_sprintD hn hnlt] at h
    cases h
    rfl

/-! ### The ids that approvals carry -/

/-- Every approval carries the numeral of the number it is stored under. -/
def IdsMatch (db : DB) : Prop := ∀ key a, db.approvals.get key = some a → a.id = sprintD key

theorem idsMatch_empty : IdsMatch {} := fun _ _ h => by cases h

/-- A numeral survives its encoding. -/
theorem id_decoded {a : ChangeApproval} {n : Nat} (h : a.id = sprintD n) :
    a.decoded.id = sprintD n := by
  have hid : jsonString a.id = sprintD n := by rw [h, jsonString_eq_self (valid_sprintD n)]
  exact hid

/-- A transition keeps the ids: a new approval gets its numeral, and a consumption leaves it. -/
theorem Effect.idsMatch {clock : Nat → Time} {db db' : DB} {op : Op} {r : Reply}
    (h : Effect H D clock db op r db') (hdb : IdsMatch db) : IdsMatch db' := by
  have hconsumed : ∀ {key : Nat} {a : ChangeApproval} {identity : ActorIdentity} {version : Nat}
      {now : Time}, db.approvals.get key = some a →
      ∀ k x, (db.approvals.put key (a.consume identity version now).decoded).get k = some x →
        x.id = sprintD k := by
    intro key a identity version now ha k x hx
    rw [Bucket.get_put] at hx
    split_ifs at hx with hk
    · cases hx
      have hid := hdb key a ha
      rw [hk, ← hid]
      exact jsonString_eq_self (hid ▸ valid_sprintD key)
    · exact hdb k x hx
  cases h with
  | createChangeApproval =>
      intro k x hx
      rw [Bucket.get_put] at hx
      split_ifs at hx with hk
      · obtain rfl := Option.some.inj hx
        rw [hk]
        exact id_decoded rfl
      · exact hdb k x hx
  | consumeChangeApproval consumable => exact hconsumed consumable.get_key
  | prepare consumed =>
      rcases consumed with ⟨-, rfl⟩ | ⟨-, key, a, consumable, rfl⟩
      · exact hdb
      · exact hconsumed consumable.get_key
  | _ => exact hdb

theorem idsMatch_history (calls : List Call) :
    ∀ ev ∈ storeHistory H D calls, IdsMatch ev.before ∧ IdsMatch ev.after :=
  history_invariant (C := fun _ : Call => True)
    (fun _ _ _ h => exec_invariant (fun _ _ heff hI => heff.idsMatch hI) h)
    (fun _ _ => trivial) idsMatch_empty

/-! ### The approval a preparation consumes -/

/-- The approval that a recorded call consumes, if any, carries the id `s`. -/
def ConsumesNamed (ev : CallEvent) (s : GoString) : Prop :=
  ∀ key a b, ev.before.approvals.get key = some a → a.consumed = false →
    ev.after.approvals.get key = some b → b.consumed = true → a.id = s

theorem consumesNamed_of_unchanged {ev : CallEvent} {s : GoString}
    (h : ev.after.approvals = ev.before.approvals) : ConsumesNamed ev s := by
  intro key a b ha hfree hb hconsumed
  rw [h, ha] at hb
  cases hb
  rw [hfree] at hconsumed
  cases hconsumed

/-- Between the two states of a consumption **only the consumed approval matters**. -/
theorem ConsumedBy.named_iff {ev : CallEvent} {key version : Nat} {revision s : GoString}
    (h : ConsumedBy ev.before ev.after key version revision) (hids : IdsMatch ev.before) :
    ConsumesNamed ev s ↔ sprintD key = s := by
  obtain ⟨a, ha, hfree, -⟩ := h.unconsumed
  obtain ⟨b, hb, hconsumed, -⟩ := h.consumed
  constructor
  · intro hnamed
    rw [← hids key a ha]
    exact hnamed key a b ha hfree hb hconsumed
  · rintro rfl k x y hx hxfree hy hyconsumed
    by_cases hk : k = key
    · rw [hk] at hx
      exact hids key x hx
    · rw [h.others k hk, hx] at hy
      cases hy
      rw [hxfree] at hyconsumed
      cases hyconsumed

/-- A preparation that goes through returns the number of its version. -/
theorem Effect.version_of_preparesWith {clock : Nat → Time} {db db' : DB} {op : Op} {r : Reply}
    (h : Effect H D clock db op r db') {approvalID revision : GoString}
    (hop : op.preparesWith approvalID revision) : ∃ version, r = .version version := by
  obtain ⟨p, identity, action, comment, artifacts, source, rfl⟩ := hop
  cases h with
  | prepare => exact ⟨_, rfl⟩

/-- **Which ids name exactly one approval.** In every run of the store, a preparation whose id is a
numeral without leading zeros below 2^64 consumes no approval but the one that carries it; and a
preparation that goes through with any other id consumes an approval that carries another one. -/
theorem approval_named_iff (calls : List Call) {ev : CallEvent}
    (hev : ev ∈ storeHistory H D calls) {s revision : GoString}
    (hop : ev.input.op.preparesWith s revision) :
    (IsApprovalID s.trimSpace → ConsumesNamed ev s.trimSpace) ∧
      ∀ version, ev.output = .ok (.version version) → s.trimSpace ≠ [] →
        ConsumesNamed ev s.trimSpace → IsApprovalID s.trimSpace := by
  have hids := (idsMatch_history calls ev hev).1
  constructor
  · intro hid
    rcases event_cases hev with ⟨-, hsame⟩ | ⟨r, hr, heff⟩
    · exact consumesNamed_of_unchanged (congrArg DB.approvals hsame)
    · obtain ⟨version, rfl⟩ := heff.version_of_preparesWith hop
      rcases Prepared.approvals ⟨hop, hr⟩ hev with ⟨-, hsame⟩ | ⟨-, key, hkey, hby⟩
      · exact consumesNamed_of_unchanged hsame
      · exact (hby.named_iff hids).mpr ((sprintD_of_parse_iff hkey).mpr hid)
  · intro version hout hne hnamed
    rcases Prepared.approvals ⟨hop, hout⟩ hev with ⟨hnil, -⟩ | ⟨-, key, hkey, hby⟩
    · exact absurd hnil hne
    · exact (sprintD_of_parse_iff hkey).mp ((hby.named_iff hids).mp hnamed)

theorem namingHex_ne_nil (_ : GoString) : ['0'] ≠ [] := List.cons_ne_nil _ _

/-- A digest that tells nothing apart. -/
def namingDigest : Digest := ⟨fun _ => ['0'], fun _ => ['0'], namingHex_ne_nil⟩

def namingTime : Time := sampleTime

/-- The first approval of a fresh store. -/
def approveCall : Call :=
  ⟨.createChangeApproval (GoString.ofString "none:0") {} (GoString.ofString "ok") false false,
    fun _ => namingTime, []⟩

/-- A preparation that names an approval by `id`. -/
def prepareCall (id : String) : Call :=
  ⟨.preparePolicyApply {} {} (GoString.ofString "commit") [] [] 0 (GoString.ofString id)
    (GoString.ofString "none:0"), fun _ => namingTime, []⟩

/-- The store after the approval. -/
def approved : DB := (exec IdentityHash.zero namingDigest approveCall {}).2

/-- The preparation after the approval, as it is recorded. -/
def namingEvent (id : String) : CallEvent where
  input := prepareCall id
  before := approved
  output := (exec IdentityHash.zero namingDigest (prepareCall id) approved).1
  after := (exec IdentityHash.zero namingDigest (prepareCall id) approved).2

theorem mem_namingRun (id : String) : namingEvent id ∈
    storeHistory IdentityHash.zero namingDigest [approveCall, prepareCall id] := by
  rw [storeHistory, history_pair, List.mem_pair]
  exact .inr (by rw [namingEvent, approved])

theorem namingEvent_prepares (id : String) : (namingEvent id).input.op.preparesWith
    (GoString.ofString id) (GoString.ofString "none:0") :=
  ⟨{}, {}, GoString.ofString "commit", [], [], 0, rfl⟩

theorem approval_named_one :
    (IsApprovalID (GoString.ofString "1").trimSpace →
        ConsumesNamed (namingEvent "1") (GoString.ofString "1").trimSpace) ∧
      ∀ version, (namingEvent "1").output = .ok (.version version) →
        (GoString.ofString "1").trimSpace ≠ [] →
          ConsumesNamed (namingEvent "1") (GoString.ofString "1").trimSpace →
            IsApprovalID (GoString.ofString "1").trimSpace :=
  approval_named_iff [approveCall, prepareCall "1"] (mem_namingRun "1") (namingEvent_prepares "1")

/-- The numeral of 2^64 + 1. -/
def wrappedID : String := "18446744073709551617"

/-- An approval that is free and carries the id 1. -/
def isFreeOne (a : ChangeApproval) : Bool := !a.consumed && a.id = GoString.ofString "1"

theorem free_before : (namingEvent wrappedID).before.approvals.get 1 |>.any isFreeOne := by
  decide +kernel

theorem consumed_after :
    (namingEvent wrappedID).after.approvals.get 1 |>.any ChangeApproval.consumed := by
  decide +kernel

/-- The id 2^64 + 1 consumes the approval whose id is 1. -/
theorem approval_misnamed : ¬ ∀ calls, ∀ ev ∈ storeHistory IdentityHash.zero namingDigest calls,
    ∀ s revision, ev.input.op.preparesWith s revision → ConsumesNamed ev s.trimSpace := by
  intro h
  have hnamed := h _ _ (mem_namingRun wrappedID) _ _ (namingEvent_prepares wrappedID)
  obtain ⟨a, ha, hfree⟩ := (Option.any_eq_true _ _).mp free_before
  obtain ⟨b, hb, hconsumed⟩ := (Option.any_eq_true _ _).mp consumed_after
  simp only [isFreeOne, Bool.and_eq_true, Bool.not_eq_true', decide_eq_true_eq] at hfree
  have hid := hnamed 1 a b ha hfree.1 hb hconsumed
  rw [hfree.2] at hid
  exact absurd hid (by decide)

end Phragma.Store
