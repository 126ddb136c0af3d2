import Phragma.Store.Effects

/-!
# Phragma.Store.AuditChain

The audit log along a run of the store.

`AuditIntact` is what an operator relies on: the log verifies, its entries are numbered
from 1 without a gap and each names the hash before it, and the next entry can be appended
whatever it says. `audit_intact_of_utf8` shows it for every run whose audit texts are UTF-8.

Texts that are not UTF-8 break it. The hash is taken over the entry in memory, where a byte
that is not UTF-8 is encoded as an escape, and checked over the entry read back, where it has
become U+FFFD and is encoded as itself. `auditIntegrityReport_broken` shows that such an
entry never verifies, and since every append verifies the log first, that is the last entry
the log ever takes (`appendAudit_bricked`).
-/

namespace Phragma.Store

open Lib Go Policy

variable {H : IdentityHash} {D : Digest}

/-! ### Which texts reach the log

The texts of an entry are those of the request, or made by the store. The latter are UTF-8 whatever
the request holds. -/

/-- The texts of an entry that a caller chooses are UTF-8. -/
structure AuditEntry.Utf8 (e : AuditEntry) : Prop where
  actor : e.actor.Valid
  actorRole : e.actorRole.Valid
  authSource : e.authSource.Valid
  action : e.action.Valid
  detail : e.detail.Valid

/-- The texts of an identity are UTF-8. -/
structure ActorIdentity.Utf8 (i : ActorIdentity) : Prop where
  name : i.name.Valid
  role : i.role.Valid
  authSource : i.authSource.Valid

/-- The texts that an operation puts into the audit log are UTF-8. -/
def Op.Utf8 : Op → Prop
  | .setCandidateWithAuditIfRevision _ _ e => e.Utf8
  | .createChangeApproval _ identity comment _ _ => identity.Utf8 ∧ comment.Valid
  | .preparePolicyApply _ identity action comment _ _ _ _ =>
      identity.Utf8 ∧ action.Valid ∧ comment.Valid
  | .activatePreparedVersion _ identity action comment =>
      identity.Utf8 ∧ action.Valid ∧ comment.Valid
  | .appendAudit e => e.Utf8
  | .setHighAvailabilityStateWithAudit _ e => e.Utf8
  | _ => True

theorem versionEntry_utf8 {identity : ActorIdentity} {action detail : GoString} {version : Nat}
    (hi : identity.Utf8) (ha : action.Valid) (hd : detail.Valid) :
    (versionEntry identity action detail version).Utf8 :=
  ⟨hi.name, hi.role, hi.authSource, ha, hd⟩

theorem approvalEntry_utf8 {id : Nat} {revision comment : GoString} {identity : ActorIdentity}
    {now : Time} (hr : revision.Valid) (hi : identity.Utf8) (hc : comment.Valid) :
    (approvalEntry id revision identity comment now).Utf8 := by
  refine ⟨hi.name, hi.role, hi.authSource, GoString.valid_ofString _, ?_⟩
  simp only [approvalEntry, GoString.valid_append]
  exact ⟨⟨⟨⟨⟨GoString.valid_ofString _, valid_sprintD _⟩, GoString.valid_ofString _⟩, hr⟩,
    GoString.valid_ofString _⟩, hc⟩

/-! ### The log as a bucket

The log is appended to under the next number of its bucket, so in key order the new entry comes
last. -/

/-- A log as appends leave it. -/
structure WellLogged (D : Digest) (audit : Bucket AuditEntry) : Prop where
  chain : Chain D [] audit.entries
  keys : audit.entries.map Prod.fst = List.range' 1 audit.seq
  valid : ∀ e ∈ audit.entries, e.2.Valid

theorem wellLogged_empty : WellLogged D .empty := ⟨trivial, rfl, fun e he => by cases he⟩

namespace WellLogged

variable {audit : Bucket AuditEntry}

theorem length_eq (h : WellLogged D audit) : audit.entries.length = audit.seq := by
  have := congrArg List.length h.keys
  simpa using this

theorem fresh (h : WellLogged D audit) : audit.Fresh := by
  intro e he
  have hmem : e.1 ∈ List.range' 1 audit.seq := h.keys ▸ List.mem_map_of_mem he
  rw [List.mem_range'_1] at hmem
  omega

end WellLogged

/-- The tip of a chain is UTF-8: it is empty or a digest. -/
theorem valid_chainTip {p : GoString} {es : List (Nat × AuditEntry)} (hp : p.Valid)
    (h : Chain D p es) : (chainTip p es).Valid := by
  induction es generalizing p with
  | nil => exact hp
  | cons e es ih =>
      have he : e.2.entryHash.Valid := by
        rw [h.2.1.hash_eq]
        exact valid_auditEntryHash D e.2
      exact ih he h.2.2

/-- An entry of UTF-8 texts is stored as it was sealed. -/
theorem sealEntry_decoded {hash : GoString} {id : Nat} {now : Time} {e : AuditEntry}
    (he : e.Utf8) (hhash : hash.Valid) :
    (sealEntry D hash id now e).decoded = sealEntry D hash id now e :=
  AuditEntry.Valid.decoded_eq
    ⟨he.actor, he.actorRole, he.authSource, he.action, he.detail, hhash,
      valid_auditEntryHash D _⟩

/-- **One append keeps the log well-formed** when its texts are UTF-8. -/
theorem WellLogged.extendLog {audit : Bucket AuditEntry} (h : WellLogged D audit) {now : Time}
    {e : AuditEntry} (he : e.Utf8) :
    WellLogged D (extendLog D (chainTip [] audit.entries) now e audit) := by
  have htip : (chainTip [] audit.entries).Valid :=
    valid_chainTip (fun r hr => by cases hr) h.chain
  have hentries := h.fresh.entries_put_next
    (sealEntry D (chainTip [] audit.entries) (audit.seq + 1) now e).decoded
  constructor
  · rw [Store.extendLog, hentries, sealEntry_decoded he htip]
    exact linked_append.mpr ⟨h.chain, linked_singleton.mpr ⟨rfl, rfl, rfl⟩⟩
  · rw [Store.extendLog, hentries, List.map_append, h.keys]
    simp only [List.map_cons, List.map_nil, Bucket.seq_put, Bucket.seq_bump]
    rw [List.range'_1_concat, Nat.add_comm 1]
  · rw [Store.extendLog, hentries]
    intro f hf
    rcases List.mem_append.mp hf with hf | hf
    · exact h.valid f hf
    · rw [List.mem_singleton.mp hf]
      exact AuditEntry.valid_decoded _

/-! ### One transition

Every transition either leaves a log that verifies alone or appends one entry to it. If the texts
are UTF-8, what is read back is what was hashed, and the log verifies again. -/

theorem backfilled_of_chain {audit : Bucket AuditEntry} (h : Chain D [] audit.entries) :
    backfilled D audit = audit := by
  rw [backfilled, backfillUpdates_of_chain h]
  rfl

/-- A transition leaves a chained log alone or appends one entry to it. -/
theorem Effect.audit {clock : Nat → Time} {db db' : DB} {op : Op} {r : Reply}
    (h : Effect H D clock db op r db') (hchain : Chain D [] db.audit.entries) :
    db'.audit = db.audit ∨
      ∃ now e, (op.Utf8 → e.Utf8) ∧
        db'.audit = extendLog D (chainTip [] db.audit.entries) now e db.audit := by
  have hash_eq : ∀ {hash}, auditTipHash D db.audit = .ok hash →
      hash = chainTip [] db.audit.entries := fun h => (auditTipHash_ok.mp h).2
  cases h with
  | reopen => exact .inl (backfilled_of_chain hchain)
  | recover => exact .inl (backfilled_of_chain hchain)
  | setCandidate => exact .inl rfl
  | setCandidateWithAudit current tip =>
      obtain rfl := hash_eq tip
      refine .inr ⟨_, _, fun hop => ?_, rfl⟩
      exact ⟨hop.actor, hop.actorRole, hop.authSource, hop.action,
        valid_appendPolicyIdentityAuditDetail H _ hop.detail⟩
  | createChangeApproval current tip =>
      obtain rfl := hash_eq tip
      refine .inr ⟨_, _, fun hop => ?_, rfl⟩
      exact approvalEntry_utf8 (current ▸ valid_candidateRevision D db) hop.1
        (GoString.valid_trimSpace hop.2)
  | consumeChangeApproval => exact .inl rfl
  | commitVersion => exact .inl rfl
  | prepare consumed tip =>
      obtain rfl := hash_eq tip
      refine .inr ⟨_, _, fun hop => ?_, rfl⟩
      exact versionEntry_utf8 hop.1
        (GoString.valid_append.mpr ⟨hop.2.1, GoString.valid_ofString _⟩)
        (valid_appendPolicyIdentityAuditDetail H _ hop.2.2)
  | activate version metadata tip =>
      obtain rfl := hash_eq tip
      exact .inr ⟨_, _, fun hop => versionEntry_utf8 hop.1 hop.2.1 hop.2.2, rfl⟩
  | markVersionState => exact .inl rfl
  | appendAudit tip =>
      obtain rfl := hash_eq tip
      exact .inr ⟨_, _, fun hop => hop, rfl⟩
  | setHighAvailabilityState => exact .inl rfl
  | setHighAvailabilityStateWithAudit tip =>
      obtain rfl := hash_eq tip
      exact .inr ⟨_, _, fun hop => hop, rfl⟩

theorem Effect.wellLogged {clock : Nat → Time} {db db' : DB} {op : Op} {r : Reply}
    (h : Effect H D clock db op r db') (hop : op.Utf8) (hdb : WellLogged D db.audit) :
    WellLogged D db'.audit := by
  rcases h.audit hdb.chain with heq | ⟨now, e, he, heq⟩
  · rw [heq]
    exact hdb
  · rw [heq]
    exact hdb.extendLog (he hop)

/-- The log is well-formed throughout a run of calls with UTF-8 texts. -/
theorem wellLogged_history {calls : List Call} (h : ∀ c ∈ calls, c.op.Utf8) :
    ∀ ev ∈ storeHistory H D calls, WellLogged D ev.before.audit ∧ WellLogged D ev.after.audit :=
  history_invariant (I := fun db : DB => WellLogged D db.audit) (C := fun c : Call => c.op.Utf8)
    (fun _ _ hc hI => exec_invariant (fun _ _ heff hI => heff.wellLogged hc hI) hI) h
    wellLogged_empty

theorem wellLogged_final {calls : List Call} (h : ∀ c ∈ calls, c.op.Utf8) :
    WellLogged D (final (exec H D) {} calls).audit :=
  final_invariant (I := fun db : DB => WellLogged D db.audit) (C := fun c : Call => c.op.Utf8)
    (fun _ _ hc hI => exec_invariant (fun _ _ heff hI => heff.wellLogged hc hI) hI) h
    wellLogged_empty

/-! ### What an operator relies on

Said without the walk: the log verifies, its entries are numbered and linked without a gap, and the
next one can be appended. -/

/-- The log verifies, is numbered and linked without a gap, and takes any next entry. -/
structure AuditIntact (D : Digest) (db : DB) : Prop where
  verifies : ∃ report, auditIntegrityReport D db.audit = .ok report
  ids : db.audit.entries.map (fun e => e.2.id) = List.range' 1 db.audit.entries.length
  ids_keys : ∀ e ∈ db.audit.entries, e.2.id = e.1
  first : ∀ a post, db.audit.entries = a :: post → a.2.previousHash = []
  linked : ∀ pre a b post, db.audit.entries = pre ++ a :: b :: post →
    b.2.previousHash = a.2.entryHash
  appends : ∀ now e, ∃ db', Tx.update .bolt [] (appendAuditTx D now e) db = (.ok (), db')

theorem WellLogged.intact {db : DB} (h : WellLogged D db.audit) : AuditIntact D db where
  verifies := ⟨_, auditIntegrityReport_ok.mpr ⟨h.chain, rfl⟩⟩
  ids := by
    rw [h.length_eq, ← h.keys]
    exact List.map_congr_left fun e he => (h.chain.sealed e he).id_eq
  ids_keys e he := (h.chain.sealed e he).id_eq
  first a post heq := by
    have hchain := h.chain
    rw [heq] at hchain
    exact hchain.1
  linked pre a b post heq := by
    have hchain := h.chain
    rw [heq] at hchain
    exact (linked_append.mp hchain).2.2.2.1
  appends now e :=
    ⟨_, (appendAuditTx_runs D (auditTipHash_ok.mpr ⟨h.chain, rfl⟩)).update .bolt⟩

/-- **The audit chain is not bricked by UTF-8 texts**: in every run from an empty database
whose calls put only UTF-8 texts into the log, whichever of them fail, the log is intact
before and after every call. -/
theorem audit_intact_of_utf8 {calls : List Call} (h : ∀ c ∈ calls, c.op.Utf8) :
    ∀ ev ∈ storeHistory H D calls, AuditIntact D ev.before ∧ AuditIntact D ev.after := by
  intro ev hev
  obtain ⟨hbefore, hafter⟩ := wellLogged_history h ev hev
  exact ⟨hbefore.intact, hafter.intact⟩

/-! ### Samples

A digest that is SHA-256 on the payloads of the runs below, and has no collisions. -/

/-- An instant. -/
def sampleTime : Time := ⟨2025, 1, 2, 3, 4, 5, 0, by decide, by decide⟩

/-- An entry. -/
def sampleEntry (actor : GoString) (action : String) : AuditEntry where
  time := sampleTime
  actor
  action := GoString.ofString action

/-- The payloads and their digests: a login and a logout of `ops`, and a login of an actor
whose name is the byte 0xff, in memory and read back. -/
def sampleTable : List (List Char × List Char) :=
  let login := "2685ac661de98aa0d8c88ecef69abd21168e0143114d2f663454f055c953eeca"
  [(payloadText { sampleEntry (GoString.ofString "ops") "login" with id := 1 }, login.toList),
    (payloadText { sampleEntry (GoString.ofString "ops") "logout" with
        id := 2, previousHash := GoString.ofString login },
      "aaa0b5a67558b4e44055996f8abe796461f537e2cdfdf4a6c1754914dd492e96".toList),
    (payloadText { sampleEntry [.byte 0xff] "login" with id := 1 },
      "57545b6131fbde7174f619aad75cf8467babf6bae31844df8e3d2cb4040a078d".toList),
    (payloadText { sampleEntry [.char runeError] "login" with id := 1 },
      "1bb9154ab766a7adaefd11d0aa2bf48f3e67292856811cbf04607bf67bb973d0".toList)]

theorem sampleTable_inj : ∀ e ∈ sampleTable, e.2.length = 64 ∧
    ∀ f ∈ sampleTable, e.2 = f.2 → e.1 = f.1 := by
  decide +kernel

theorem mem_sampleTable {s d : List Char} (h : sampleTable.lookup s = some d) :
    (s, d) ∈ sampleTable := by
  obtain ⟨pre, post, heq, -⟩ := List.lookup_eq_some_iff.mp h
  rw [heq]
  simp

/-- SHA-256 on the table; any other text is its own digest, behind 65 zeros. -/
def sampleDigest : Digest where
  hex s := (sampleTable.lookup (s.map Rune.toChar)).getD
    (List.replicate 65 '0' ++ s.map Rune.toChar)
  policy _ := List.replicate 64 '0'
  hex_ne_nil s := by
    cases h : sampleTable.lookup (s.map Rune.toChar) with
    | none => simp
    | some d =>
        have hlen := (sampleTable_inj _ (mem_sampleTable h)).1
        rintro rfl
        cases hlen

theorem sampleDigest_collisionFree : sampleDigest.CollisionFree := by
  intro s t hs ht h
  apply GoString.map_toChar_inj hs ht
  simp only [sampleDigest] at h
  cases hls : sampleTable.lookup (s.map Rune.toChar) with
  | none =>
      cases hlt : sampleTable.lookup (t.map Rune.toChar) with
      | none =>
          simp only [hls, hlt, Option.getD_none] at h
          exact List.append_cancel_left h
      | some d =>
          have hlen := (sampleTable_inj _ (mem_sampleTable hlt)).1
          simp only [hls, hlt, Option.getD_none, Option.getD_some] at h
          rw [← h, List.length_append, List.length_replicate] at hlen
          omega
  | some d =>
      cases hlt : sampleTable.lookup (t.map Rune.toChar) with
      | none =>
          have hlen := (sampleTable_inj _ (mem_sampleTable hls)).1
          simp only [hls, hlt, Option.getD_none, Option.getD_some] at h
          rw [h, List.length_append, List.length_replicate] at hlen
          omega
      | some d' =>
          simp only [hls, hlt, Option.getD_some] at h
          exact (sampleTable_inj _ (mem_sampleTable hls)).2 _ (mem_sampleTable hlt) h

/-- A call that appends an entry, without faults. -/
def appendCall (e : AuditEntry) : Call := ⟨.appendAudit e, fun _ => sampleTime, []⟩

/-- A login and a logout of `ops`. -/
def sampleCalls : List Call :=
  [appendCall (sampleEntry (GoString.ofString "ops") "login"),
    appendCall (sampleEntry (GoString.ofString "ops") "logout")]

theorem sampleCalls_utf8 : ∀ c ∈ sampleCalls, c.op.Utf8 := by
  intro c hc
  simp only [sampleCalls, List.mem_cons, List.not_mem_nil, or_false] at hc
  rcases hc with rfl | rfl <;> exact ⟨by decide, by decide, by decide, by decide, by decide⟩

theorem audit_intact_of_utf8_session : (∀ c ∈ sampleCalls, c.op.Utf8) ∧
    ∀ ev ∈ storeHistory IdentityHash.zero sampleDigest sampleCalls,
      AuditIntact sampleDigest ev.before ∧ AuditIntact sampleDigest ev.after :=
  ⟨sampleCalls_utf8, audit_intact_of_utf8 sampleCalls_utf8⟩

/-- One login of an actor whose name is a byte that is not UTF-8 leaves a log that does not
verify. -/
theorem audit_not_intact_of_byte :
    ¬ ∀ calls, ∀ ev ∈ storeHistory IdentityHash.zero sampleDigest calls,
      (∃ r, ev.output = .ok r) → AuditIntact sampleDigest ev.after := by
  intro h
  have hintact := h [appendCall (sampleEntry [.byte 0xff] "login")] _ List.mem_cons_self
    ⟨.done, rfl⟩
  obtain ⟨report, hreport⟩ := hintact.verifies
  have hbroken : auditIntegrityReport sampleDigest
      (exec IdentityHash.zero sampleDigest
        (appendCall (sampleEntry [.byte 0xff] "login")) {}).2.audit =
      .error (.message "audit integrity entry 1: entry hash mismatch") := by
    decide +kernel
  rw [hbroken] at hreport
  cases hreport

/-! ### Texts that are not UTF-8

Such a byte is six characters long in the hashed JSON and comes back as one character, so the
payload of what is read back is shorter than the one that was hashed, and the two have different
digests. -/

theorem length_encodeRune_toChar (r : Rune) :
    (encodeRune (.char r.toChar)).length ≤ (encodeRune r).length := by
  cases r with
  | char c => exact le_rfl
  | byte b => exact (by decide : (encodeRune (.char runeError)).length ≤ 6)

/-- A text is encoded at least as long as it is after a round trip. -/
theorem length_encodeString_jsonString (s : GoString) :
    (encodeString (jsonString s)).length ≤ (encodeString s).length := by
  rw [jsonString_eq]
  unfold encodeString
  induction s with
  | nil => exact le_rfl
  | cons r s ih =>
      have := length_encodeRune_toChar r
      simp only [List.map_cons, List.flatMap_cons, List.length_append] at ih ⊢
      omega

/-- Strictly longer when it is not UTF-8: an escape has become one character. -/
theorem length_encodeString_of_not_valid {s : GoString} (h : ¬ s.Valid) :
    (encodeString (jsonString s)).length < (encodeString s).length := by
  rw [jsonString_eq]
  unfold encodeString
  induction s with
  | nil => exact (h fun r hr => by cases hr).elim
  | cons r s ih =>
      simp only [List.map_cons, List.flatMap_cons, List.length_append]
      have hle := length_encodeString_jsonString s
      rw [jsonString_eq] at hle
      unfold encodeString at hle
      cases r with
      | byte b =>
          have : (encodeRune (.char (Rune.byte b).toChar)).length < (encodeRune (.byte b)).length :=
            (by decide : (encodeRune (.char runeError)).length < 6)
          omega
      | char c =>
          have := ih fun hs => h fun r hr => by
            rcases List.mem_cons.mp hr with rfl | hr
            · exact ⟨c, rfl⟩
            · exact hs r hr
          have hc : encodeRune (.char (Rune.char c).toChar) = encodeRune (.char c) := rfl
          rw [hc]
          omega

/-- Nor does the payload of such an entry survive. -/
theorem length_payloadText_of_not_utf8 {e : AuditEntry} (h : ¬ e.Utf8) :
    (payloadText e.decoded).length < (payloadText e).length := by
  have hlen := length_encodeString_jsonString
  have h1 := hlen e.actor
  have h2 := hlen e.actorRole
  have h3 := hlen e.authSource
  have h4 := hlen e.action
  have h5 := hlen e.detail
  have h6 := hlen e.previousHash
  simp only [payloadText, stringMember, natMember, AuditEntry.decoded, List.length_cons,
    List.length_append]
  by_cases ha : e.actor.Valid
  case neg =>
    have := length_encodeString_of_not_valid ha
    omega
  by_cases hr : e.actorRole.Valid
  case neg =>
    have := length_encodeString_of_not_valid hr
    omega
  by_cases hs : e.authSource.Valid
  case neg =>
    have := length_encodeString_of_not_valid hs
    omega
  by_cases hc : e.action.Valid
  case neg =>
    have := length_encodeString_of_not_valid hc
    omega
  by_cases hd : e.detail.Valid
  case neg =>
    have := length_encodeString_of_not_valid hd
    omega
  exact (h ⟨ha, hr, hs, hc, hd⟩).elim

/-- **An entry with a text that is not UTF-8 breaks the log.** -/
theorem auditIntegrityReport_broken (hD : D.CollisionFree) {audit : Bucket AuditEntry}
    (h : WellLogged D audit) {now : Time} {e : AuditEntry} (he : ¬ e.Utf8) :
    ∃ err, auditIntegrityReport D (extendLog D (chainTip [] audit.entries) now e audit) =
      .error err := by
  cases hrep : auditIntegrityReport D (extendLog D (chainTip [] audit.entries) now e audit) with
  | error err => exact ⟨err, rfl⟩
  | ok report =>
      have hchain := (auditIntegrityReport_ok.mp hrep).1
      rw [Store.extendLog, h.fresh.entries_put_next] at hchain
      have hlast := (linked_singleton.mp (linked_append.mp hchain).2).2.hash_eq
      -- the stored hash is that of the entry in memory, the checked one that of its decoding
      have hmem : (sealEntry D (chainTip [] audit.entries) (audit.seq + 1) now e).decoded.entryHash =
          auditEntryHash D (sealEntry D (chainTip [] audit.entries) (audit.seq + 1) now e) :=
        jsonString_eq_self (valid_auditEntryHash D _)
      rw [hmem] at hlast
      have htext := auditEntryHash_inj hD hlast
      have hne : ¬ (sealEntry D (chainTip [] audit.entries) (audit.seq + 1) now e).Utf8 :=
        fun hs => he ⟨hs.actor, hs.actorRole, hs.authSource, hs.action, hs.detail⟩
      have := length_payloadText_of_not_utf8 hne
      rw [htext] at this
      exact (lt_irrefl _ this).elim

/-- A log that does not verify takes no further entry. -/
theorem appendAudit_bricked {db : DB} {err : Error}
    (h : auditIntegrityReport D db.audit = .error err) (faults : List Bool) (now : Time)
    (e : AuditEntry) : ∃ err, Tx.update .bolt faults (appendAuditTx D now e) db = (.error err, db) := by
  rcases Tx.update_cases .bolt faults (appendAuditTx D now e) db with hfail | ⟨u, db', -, hy⟩
  · exact hfail
  · obtain ⟨hash, htip, -⟩ := appendAuditTx_ok D hy
    rw [auditTipHash, h] at htip
    cases htip

end Phragma.Store
