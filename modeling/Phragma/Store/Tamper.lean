import Phragma.Store.AuditChain

/-!
# Phragma.Store.Tamper

Tamper evidence of the audit log.

Where SHA-256 has no collisions, the hash of an entry determines everything else in it:
the payload is a JSON text from which every field can be read back (`payloadText_inj`), and
the key is the id. So the log is a hash chain in the sense of `Lib.HashChain`, and its length
and its tip determine it. `TamperEvident` states this together with what it means for the
elementary manipulations of a stored log, and `audit_tamper_evident` proves it for every log
that a run of the store leaves.
-/

namespace Phragma.Store

open Lib Go Policy

variable {H : IdentityHash} {D : Digest}

/-! ### What a hash seals

Unless two texts collide, entries of one hash have one payload, and the payload determines the
entry. -/

/-- **The payload binds every field** but the hash itself. -/
theorem payloadText_inj {e f : AuditEntry} (he : e.Valid) (hf : f.Valid)
    (h : payloadText e = payloadText f) : { e with entryHash := f.entryHash } = f := by
  have htime : ∀ t : Time, GoString.Valid (t.format.map .char) := fun t =>
    GoString.valid_map_char _
  have hschema : auditHashPayloadVersion.Valid := GoString.valid_ofString _
  unfold payloadText at h
  obtain ⟨-, h⟩ := stringMember_inj hschema hschema (List.cons.inj h).2
  obtain ⟨hid, h⟩ := natMember_inj (List.cons.inj h).2
  obtain ⟨ht, h⟩ := stringMember_inj (htime _) (htime _) h
  obtain ⟨hactor, h⟩ := stringMember_inj he.actor hf.actor (List.cons.inj h).2
  obtain ⟨hrole, h⟩ := stringMember_inj he.actorRole hf.actorRole (List.cons.inj h).2
  obtain ⟨hsource, h⟩ := stringMember_inj he.authSource hf.authSource (List.cons.inj h).2
  obtain ⟨haction, h⟩ := stringMember_inj he.action hf.action (List.cons.inj h).2
  obtain ⟨hdetail, h⟩ := stringMember_inj he.detail hf.detail (List.cons.inj h).2
  obtain ⟨hversion, h⟩ := natMember_inj (List.cons.inj h).2
  obtain ⟨hprev, -⟩ := stringMember_inj he.previousHash hf.previousHash h
  have ht := Time.format_inj (map_char_inj ht)
  cases e
  cases f
  simp_all

/-- A sealed entry is determined by its hash. -/
theorem sealed_unique (hD : D.CollisionFree) {e f : Nat × AuditEntry} (he : Sealed D e)
    (hf : Sealed D f) (hve : e.2.Valid) (hvf : f.2.Valid)
    (h : e.2.entryHash = f.2.entryHash) : e = f := by
  have hhash : auditEntryHash D e.2 = auditEntryHash D f.2 := by
    rw [← he.hash_eq, ← hf.hash_eq, h]
  have hentry : e.2 = f.2 := by
    have := payloadText_inj hve hvf (auditEntryHash_inj hD hhash)
    rwa [← h] at this
  exact Prod.ext (by rw [← he.id_eq, ← hf.id_eq, hentry]) hentry

/-! ### Manipulations of a stored log

What somebody with access to the file can do to a log that verifies: one elementary manipulation, or
anything at all that leaves count and tip as they are. -/

/-- One field of an entry set to another value. -/
inductive FieldChange
  | id (n : Nat)
  | time (t : Time)
  | actor (s : GoString)
  | actorRole (s : GoString)
  | authSource (s : GoString)
  | action (s : GoString)
  | detail (s : GoString)
  | version (n : Nat)
  | previousHash (s : GoString)
  | entryHash (s : GoString)

/-- The entry with the field changed. -/
def FieldChange.apply (e : AuditEntry) : FieldChange → AuditEntry
  | .id n => { e with id := n }
  | .time t => { e with time := t }
  | .actor s => { e with actor := s }
  | .actorRole s => { e with actorRole := s }
  | .authSource s => { e with authSource := s }
  | .action s => { e with action := s }
  | .detail s => { e with detail := s }
  | .version n => { e with version := n }
  | .previousHash s => { e with previousHash := s }
  | .entryHash s => { e with entryHash := s }

/-- The log is refused. -/
def Rejected (D : Digest) (audit : Bucket AuditEntry) : Prop :=
  ∃ err, auditIntegrityReport D audit = .error err

theorem rejected_of_not_chain {audit : Bucket AuditEntry} (h : ¬ Chain D [] audit.entries) :
    Rejected D audit := by
  cases hr : auditIntegrityReport D audit with
  | error err => exact ⟨err, hr⟩
  | ok report => exact (h (auditIntegrityReport_ok.mp hr).1).elim

/-- A change of one field leaves the hash alone, or leaves the payload alone. -/
theorem FieldChange.apply_cases (c : FieldChange) (e : AuditEntry) :
    (c.apply e).entryHash = e.entryHash ∨
      ∃ s, c.apply e = { e with entryHash := s } := by
  cases c with
  | entryHash s => exact .inr ⟨s, rfl⟩
  | _ => exact .inl rfl

/-- What it means for a log to be tamper evident: another log is told from it by its count and
tip, and a log that differs from it by one field, one deletion or one exchange is refused. All
entries are as `json.Unmarshal` returns them. -/
structure TamperEvident (D : Digest) (audit : Bucket AuditEntry) : Prop where
  committed : ∀ other : Bucket AuditEntry, (∀ e ∈ other.entries, e.2.Valid) →
    ∀ report report', auditIntegrityReport D audit = .ok report →
      auditIntegrityReport D other = .ok report' →
      report'.entryCount = report.entryCount →
      report'.latestEntryHash = report.latestEntryHash → other.entries = audit.entries
  changed : ∀ key e (c : FieldChange), audit.get key = some e → (c.apply e).Valid →
    c.apply e ≠ e → Rejected D (audit.put key (c.apply e))
  deleted : ∀ pre key e f post, audit.entries = pre ++ (key, e) :: f :: post →
    Rejected D (audit.delete key)
  swapped : ∀ i j a b, i ≠ j → audit.get i = some a → audit.get j = some b →
    Rejected D ((audit.put i b).put j a)

/-! ### The log of a run

Each manipulation meets one of the things that the walk checks: a changed entry its own hash, a gap
the link over it, an exchange the ids. -/

section

variable {audit : Bucket AuditEntry}

theorem WellLogged.committed (h : WellLogged D audit) (hD : D.CollisionFree)
    {other : Bucket AuditEntry} (hv : ∀ e ∈ other.entries, e.2.Valid)
    {report report' : AuditIntegrityReport} (hr : auditIntegrityReport D audit = .ok report)
    (hr' : auditIntegrityReport D other = .ok report')
    (hcount : report'.entryCount = report.entryCount)
    (hhash : report'.latestEntryHash = report.latestEntryHash) :
    other.entries = audit.entries := by
  obtain ⟨hchain, rfl⟩ := auditIntegrityReport_ok.mp hr
  obtain ⟨hchain', rfl⟩ := auditIntegrityReport_ok.mp hr'
  exact (linked_unique hchain' hchain hcount hhash fun e he f hf hse hsf =>
    sealed_unique hD hse hsf (hv e he) (h.valid f hf)).1

theorem WellLogged.changed (h : WellLogged D audit) (hD : D.CollisionFree) {key : Nat}
    {e : AuditEntry} {c : FieldChange} (hget : audit.get key = some e)
    (hv : (c.apply e).Valid) (hne : c.apply e ≠ e) :
    Rejected D (audit.put key (c.apply e)) := by
  refine rejected_of_not_chain fun hchain' => hne ?_
  have hs : Sealed D (key, e) := h.chain.sealed _ (Bucket.mem_of_get hget)
  have hs' : Sealed D (key, c.apply e) :=
    hchain'.sealed _ (Bucket.mem_of_get (Bucket.get_put_self audit key (c.apply e)))
  have hve := h.valid _ (Bucket.mem_of_get hget)
  rcases c.apply_cases e with hhash | ⟨s, hc⟩
  · exact congrArg Prod.snd (sealed_unique hD hs' hs hv hve hhash)
  · -- the payload is unchanged, so the hash it demands is too
    have hpayload : auditEntryHash D (c.apply e) = auditEntryHash D e := by
      rw [hc]
      rfl
    have hhash : (c.apply e).entryHash = e.entryHash := by
      rw [hs'.hash_eq, hs.hash_eq]
      exact hpayload
    exact congrArg Prod.snd (sealed_unique hD hs' hs hv hve hhash)

theorem WellLogged.deleted (h : WellLogged D audit) (hD : D.CollisionFree)
    {pre post : List (Nat × AuditEntry)} {key : Nat} {e : AuditEntry} {f : Nat × AuditEntry}
    (heq : audit.entries = pre ++ (key, e) :: f :: post) : Rejected D (audit.delete key) := by
  refine rejected_of_not_chain fun hchain' => ?_
  have hchain := h.chain
  rw [heq] at hchain
  rw [Bucket.entries_delete_of_mem heq] at hchain'
  obtain ⟨hpre, -, hs, hprev, -⟩ := linked_append.mp hchain
  have hprev' := (linked_append.mp hchain').2.1
  -- the entry after the gap names both the deleted entry and the one before it
  have htip : chainTip [] pre = e.entryHash := hprev'.symm.trans hprev
  have hcases : (pre = [] ∧ chainTip [] pre = []) ∨
      ∃ pre' g, pre = pre' ++ [g] ∧ chainTip [] pre = g.2.entryHash := tip_cases [] pre
  rcases hcases with ⟨-, hnil⟩ | ⟨pre', g, rfl, hg⟩
  · exact hs.hash_ne_nil (htip.symm.trans hnil)
  · have hmem : ∀ x ∈ pre' ++ [g], x ∈ audit.entries := fun x hx => by
      rw [heq]
      exact List.mem_append_left _ hx
    have hsame : g = (key, e) :=
      sealed_unique hD (hpre.sealed g (by simp)) hs (h.valid g (hmem g (by simp)))
        (h.valid _ (by rw [heq]; simp)) (hg.symm.trans htip)
    have hsorted := audit.sorted
    rw [heq, List.pairwise_append] at hsorted
    have hlt := hsorted.2.2 g (by simp) (key, e) List.mem_cons_self
    rw [hsame] at hlt
    exact lt_irrefl _ hlt

theorem WellLogged.swapped (h : WellLogged D audit) {i j : Nat} {a b : AuditEntry} (hij : i ≠ j)
    (hb : audit.get j = some b) : Rejected D ((audit.put i b).put j a) := by
  refine rejected_of_not_chain fun hchain' => hij ?_
  have hmoved : ((audit.put i b).put j a).get i = some b := by
    rw [Bucket.get_put_of_ne hij, Bucket.get_put_self]
  have hi : b.id = i := (hchain'.sealed _ (Bucket.mem_of_get hmoved)).id_eq
  have hj : b.id = j := (h.chain.sealed _ (Bucket.mem_of_get hb)).id_eq
  exact hi.symm.trans hj

end

/-- **The audit log is tamper evident**: the log that any run of the store with UTF-8 texts
leaves is determined by its entry count and its tip, and refuses every elementary
manipulation. -/
theorem audit_tamper_evident (hD : D.CollisionFree) {calls : List Call}
    (hcalls : ∀ c ∈ calls, c.op.Utf8) :
    TamperEvident D (final (exec H D) {} calls).audit := by
  have h := wellLogged_final (H := H) (D := D) hcalls
  refine ⟨?_, ?_, ?_, ?_⟩
  · intro other hv report report' hr hr' hcount hhash
    exact h.committed hD hv hr hr' hcount hhash
  · intro key e c hget hv hne
    exact h.changed hD hget hv hne
  · intro pre key e f post heq
    exact h.deleted hD heq
  · intro i j a b hij _ hb
    exact h.swapped hij hb

theorem audit_tamper_evident_session :
    sampleDigest.CollisionFree ∧ (∀ c ∈ sampleCalls, c.op.Utf8) ∧
      (final (exec IdentityHash.zero sampleDigest) {} sampleCalls).audit.entries.length = 2 ∧
      TamperEvident sampleDigest (final (exec IdentityHash.zero sampleDigest) {} sampleCalls).audit :=
  ⟨sampleDigest_collisionFree, sampleCalls_utf8, by decide +kernel,
    audit_tamper_evident sampleDigest_collisionFree sampleCalls_utf8⟩

end Phragma.Store
