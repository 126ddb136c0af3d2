import Phragma.Store.Effects

/-!
# Phragma.Store.Approvals

Change approvals along a run of the store.

An approval is created for the candidate revision that is current at that moment, and it is
consumed in the middle of the transaction that prepares a version. Nothing undoes a
consumption (`ConsumedKept`), and a failed transaction leaves no trace of one, so an approval
serves one prepared version at most, of the revision it was given for
(`approvals_single_use`).
-/

namespace Phragma.Store

open Lib Go Policy

variable {H : IdentityHash} {D : Digest}

/-- What the runs keep: approvals are numbered by the counter, and their revisions are
texts that an encoding does not change. -/
structure ApprovalsWell (db : DB) : Prop where
  fresh : db.approvals.Fresh
  valid : ∀ key a, db.approvals.get key = some a → a.candidateRevision.Valid

theorem approvalsWell_empty : ApprovalsWell {} where
  fresh := Bucket.fresh_empty
  valid _ _ h := by cases h

/-- A consumed approval of `db` is the same record in `db'`. -/
def ConsumedKept (db db' : DB) : Prop :=
  ∀ key a, db.approvals.get key = some a → a.consumed = true → db'.approvals.get key = some a

theorem ConsumedKept.refl (db : DB) : ConsumedKept db db := fun _ _ h _ => h

theorem ConsumedKept.trans {a b c : DB} (hab : ConsumedKept a b) (hbc : ConsumedKept b c) :
    ConsumedKept a c := fun key x h hx => hbc key x (hab key x h hx) hx

/-! ### One transition -/

section

variable {clock : Nat → Time} {db db' : DB} {op : Op} {r : Reply}

/-- A transition leaves the approvals alone, adds one for the current revision, or consumes
one that was free. -/
theorem Effect.approvals (h : Effect H D clock db op r db') :
    db'.approvals = db.approvals ∨
    (∃ revision identity comment ackRisk ackRuntime a,
      op = .createChangeApproval revision identity comment ackRisk ackRuntime ∧
      revision.trimSpace = candidateRevision D db ∧
      a.candidateRevision = candidateRevision D db ∧
      db'.approvals = db.approvals.bump.put (db.approvals.seq + 1) a) ∨
    ∃ key a b, db.approvals.get key = some a ∧ a.consumed = false ∧
      b.candidateRevision = jsonString a.candidateRevision ∧
      db'.approvals = db.approvals.put key b := by
  cases h with
  | createChangeApproval current tip =>
      refine .inr (.inl ⟨_, _, _, _, _, _, rfl, current, ?_, rfl⟩)
      exact (jsonString_eq_self (current ▸ valid_candidateRevision D db)).trans current
  | consumeChangeApproval consumable =>
      exact .inr (.inr ⟨_, _, _, consumable.get_key, consumable.unconsumed, rfl, rfl⟩)
  | prepare consumed tip =>
      rcases consumed with ⟨-, rfl⟩ | ⟨-, key, a, consumable, rfl⟩
      · exact .inl rfl
      · exact .inr (.inr ⟨_, _, _, consumable.get_key, consumable.unconsumed, rfl, rfl⟩)
  | _ => exact .inl rfl

theorem Effect.approvalsWell (h : Effect H D clock db op r db') (hdb : ApprovalsWell db) :
    ApprovalsWell db' := by
  rcases h.approvals with heq | ⟨-, -, -, -, -, a, -, -, ha, heq⟩ | ⟨key, a, b, hget, -, hb, heq⟩
  · exact ⟨heq ▸ hdb.fresh, fun k x hx => hdb.valid k x (heq ▸ hx)⟩
  · refine ⟨heq ▸ hdb.fresh.bump.put le_rfl a, fun k x hx => ?_⟩
    rw [heq, Bucket.get_put] at hx
    split_ifs at hx with hk
    · cases hx
      rw [ha]
      exact valid_candidateRevision D db
    · exact hdb.valid k x hx
  · refine ⟨heq ▸ hdb.fresh.put (hdb.fresh.le_of_get hget) b, fun k x hx => ?_⟩
    rw [heq, Bucket.get_put] at hx
    split_ifs at hx with hk
    · cases hx
      rw [hb]
      exact valid_jsonString _
    · exact hdb.valid k x hx

theorem Effect.consumedKept (h : Effect H D clock db op r db') (hdb : ApprovalsWell db) :
    ConsumedKept db db' := by
  intro key x hget hx
  rcases h.approvals with heq | ⟨-, -, -, -, -, a, -, -, -, heq⟩ | ⟨k, a, b, hk, hfree, -, heq⟩
  · rw [heq]
    exact hget
  · have hle := hdb.fresh.le_of_get hget
    rw [heq, Bucket.get_put_of_ne (by omega)]
    exact hget
  · have hne : key ≠ k := by
      rintro rfl
      rw [hget] at hk
      cases hk
      rw [hx] at hfree
      cases hfree
    rw [heq, Bucket.get_put_of_ne hne]
    exact hget

/-- The approval of a given revision appears under a key only by being created there, for the
revision that is current. -/
theorem Effect.approval_created (h : Effect H D clock db op r db') (hdb : ApprovalsWell db)
    {key : Nat} {revision : GoString}
    (hbefore : ¬ ∃ a, db.approvals.get key = some a ∧ a.candidateRevision = revision)
    (hafter : ∃ a, db'.approvals.get key = some a ∧ a.candidateRevision = revision) :
    revision = candidateRevision D db ∧ db.approvals.get key = none ∧
      ∃ given identity comment ackRisk ackRuntime,
        op = .createChangeApproval given identity comment ackRisk ackRuntime ∧
        given.trimSpace = revision := by
  obtain ⟨x, hx, hrev⟩ := hafter
  rcases h.approvals with heq | ⟨given, identity, comment, ackRisk, ackRuntime, a, hop, hgiven, ha, heq⟩ |
    ⟨k, a, b, hk, -, hb, heq⟩
  · rw [heq] at hx
    exact (hbefore ⟨x, hx, hrev⟩).elim
  · rw [heq, Bucket.get_put] at hx
    split_ifs at hx with hkey
    · cases hx
      have hcur : revision = candidateRevision D db := hrev.symm.trans ha
      refine ⟨hcur, ?_, given, identity, comment, ackRisk, ackRuntime, hop, hgiven.trans hcur.symm⟩
      rw [hkey]
      exact hdb.fresh.get_next
    · exact (hbefore ⟨x, hx, hrev⟩).elim
  · rw [heq, Bucket.get_put] at hx
    split_ifs at hx with hkey
    · -- a consumption keeps the revision, so the approval was there before
      cases hx
      rw [jsonString_eq_self (hdb.valid k a hk)] at hb
      exact (hbefore ⟨a, hkey ▸ hk, hb.symm.trans hrev⟩).elim
    · exact (hbefore ⟨x, hx, hrev⟩).elim

end

/-! ### Calls -/

theorem exec_approvalsWell (c : Call) {db : DB} (h : ApprovalsWell db) :
    ApprovalsWell (exec H D c db).2 :=
  exec_invariant (fun _ _ heff hI => heff.approvalsWell hI) h

theorem exec_consumedKept (c : Call) {db : DB} (h : ApprovalsWell db) :
    ConsumedKept db (exec H D c db).2 := by
  rcases exec_cases (H := H) (D := D) c db with ⟨e, he⟩ | ⟨r, db', hr, heff⟩
  · rw [he]
    exact .refl db
  · rw [hr]
    exact heff.consumedKept h

/-- The call prepares a version with the given approval id and candidate revision. -/
def Op.preparesWith (op : Op) (approvalID revision : GoString) : Prop :=
  ∃ p identity action comment artifacts sourceVersion,
    op = .preparePolicyApply p identity action comment artifacts sourceVersion approvalID revision

/-- Between two states the version `version` consumed the approval under `key`, given for
`revision`, and no other approval changed. -/
structure ConsumedBy (db db' : DB) (key version : Nat) (revision : GoString) : Prop where
  unconsumed : ∃ a, db.approvals.get key = some a ∧ a.consumed = false ∧
    a.candidateRevision = revision
  consumed : ∃ a, db'.approvals.get key = some a ∧ a.consumed = true ∧
    a.consumedVersion = version ∧ a.candidateRevision = revision
  others : ∀ k, k ≠ key → db'.approvals.get k = db.approvals.get k

/-- What preparing a version does to the approvals. -/
theorem Effect.prepared {clock : Nat → Time} {db db' : DB} {op : Op} {version : Nat}
    (h : Effect H D clock db op (.version version) db') (hdb : ApprovalsWell db)
    {approvalID revision : GoString} (hop : op.preparesWith approvalID revision) :
    (approvalID.trimSpace = [] ∧ db'.approvals = db.approvals) ∨
      (approvalID.trimSpace ≠ [] ∧ ∃ key, parseApprovalID approvalID.trimSpace = some key ∧
        ConsumedBy db db' key version revision.trimSpace) := by
  obtain ⟨p, identity, action, comment, artifacts, source, rfl⟩ := hop
  cases h with
  | prepare consumed tip =>
      rcases consumed with hnone | ⟨hid, key, a, consumable, rfl⟩
      · exact .inl hnone
      · refine .inr ⟨hid, key, consumable.id_key, ?_, ?_, ?_⟩
        · exact ⟨a, consumable.get_key, consumable.unconsumed, consumable.revision_eq⟩
        · have hrev := jsonString_eq_self (hdb.valid key a consumable.get_key)
          exact ⟨_, Bucket.get_put_self _ _ _, rfl, rfl, hrev.trans consumable.revision_eq⟩
        · intro k hk
          exact Bucket.get_put_of_ne hk _ _

/-! ### Runs -/

theorem approvalsWell_history (calls : List Call) :
    ∀ ev ∈ storeHistory H D calls, ApprovalsWell ev.before ∧ ApprovalsWell ev.after :=
  history_invariant (C := fun _ : Call => True) (fun c _ _ h => exec_approvalsWell c h)
    (fun _ _ => trivial) approvalsWell_empty

theorem history_consumedKept (calls : List Call) :
    (storeHistory H D calls).Pairwise fun a b => ConsumedKept a.after b.before :=
  history_pairwise (fun c _ h => exec_approvalsWell c h) ConsumedKept.refl
    (fun _ _ _ hab hbc => hab.trans hbc) (fun c _ h => exec_consumedKept c h) approvalsWell_empty

/-- A recorded call prepared `version` with the given approval id and candidate revision. -/
structure Prepared (ev : CallEvent) (approvalID revision : GoString) (version : Nat) : Prop where
  op : ev.input.op.preparesWith approvalID revision
  output : ev.output = .ok (.version version)

/-- What a recorded preparation does to the approvals. -/
theorem Prepared.approvals {calls : List Call} {ev : CallEvent} {approvalID revision : GoString}
    {version : Nat} (h : Prepared ev approvalID revision version)
    (hev : ev ∈ storeHistory H D calls) :
    (approvalID.trimSpace = [] ∧ ev.after.approvals = ev.before.approvals) ∨
      (approvalID.trimSpace ≠ [] ∧ ∃ key, parseApprovalID approvalID.trimSpace = some key ∧
        ConsumedBy ev.before ev.after key version revision.trimSpace) := by
  rcases event_cases hev with ⟨⟨e, he⟩, -⟩ | ⟨r, hr, heff⟩
  · rw [h.output] at he
    cases he
  · rw [h.output] at hr
    cases hr
    exact heff.prepared (approvalsWell_history calls ev hev).1 h.op

/-- What holds of every run of the store, given by its recorded calls. -/
structure ApprovalRun (D : Digest) (run : List CallEvent) : Prop where
  /-- A preparation that names an approval consumes it, and it was given for the revision the
  version was prepared with; no other approval changes. -/
  bound : ∀ ev ∈ run, ∀ approvalID revision version, Prepared ev approvalID revision version →
    (approvalID.trimSpace = [] ∧ ev.after.approvals = ev.before.approvals) ∨
      (approvalID.trimSpace ≠ [] ∧ ∃ key, parseApprovalID approvalID.trimSpace = some key ∧
        ConsumedBy ev.before ev.after key version revision.trimSpace)
  /-- No approval is consumed by two preparations. -/
  once : run.Pairwise fun a b => ∀ key version version' revision revision',
    ConsumedBy a.before a.after key version revision →
      ¬ ConsumedBy b.before b.after key version' revision'
  /-- A consumed approval stays what it is. -/
  final : run.Pairwise fun a b => ConsumedKept a.after b.before
  /-- Every approval was created by an earlier call, when its revision was the current one. -/
  created : ∀ pre ev post, run = pre ++ ev :: post → ∀ key a,
    ev.before.approvals.get key = some a →
    ∃ c ∈ pre, c.before.approvals.get key = none ∧
      a.candidateRevision = candidateRevision D c.before ∧
      ∃ given identity comment ackRisk ackRuntime,
        c.input.op = .createChangeApproval given identity comment ackRisk ackRuntime ∧
        given.trimSpace = a.candidateRevision
  /-- A preparation that fails changes nothing. -/
  failed : ∀ ev ∈ run, ∀ approvalID revision e, ev.input.op.preparesWith approvalID revision →
    ev.output = .error e → ev.after = ev.before

theorem history_once (calls : List Call) :
    (storeHistory H D calls).Pairwise fun a b => ∀ key version version' revision revision',
      ConsumedBy a.before a.after key version revision →
        ¬ ConsumedBy b.before b.after key version' revision' := by
  refine (history_consumedKept calls).imp fun {a b} hkept key v v' rev rev' ha hb => ?_
  obtain ⟨x, hx, hconsumed, -⟩ := ha.consumed
  obtain ⟨y, hy, hfree, -⟩ := hb.unconsumed
  rw [hkept key x hx hconsumed] at hy
  cases hy
  rw [hconsumed] at hfree
  cases hfree

theorem history_created {calls : List Call} {pre post : List CallEvent} {ev : CallEvent}
    (hrun : storeHistory H D calls = pre ++ ev :: post) {key : Nat} {a : ChangeApproval}
    (hget : ev.before.approvals.get key = some a) :
    ∃ c ∈ pre, c.before.approvals.get key = none ∧
      a.candidateRevision = candidateRevision D c.before ∧
      ∃ given identity comment ackRisk ackRuntime,
        c.input.op = .createChangeApproval given identity comment ackRisk ackRuntime ∧
        given.trimSpace = a.candidateRevision := by
  obtain ⟨c, hc, hbefore, hafter⟩ := history_cause
    (P := fun db : DB => ∃ x, db.approvals.get key = some x ∧
      x.candidateRevision = a.candidateRevision)
    (fun ⟨x, hx, _⟩ => by cases hx) hrun ⟨a, hget, rfl⟩
  have hmem : c ∈ storeHistory H D calls := by
    rw [hrun]
    exact List.mem_append_left _ hc
  rcases event_cases hmem with ⟨-, hsame⟩ | ⟨r, -, heff⟩
  · rw [hsame] at hafter
    exact (hbefore hafter).elim
  · obtain ⟨hrev, hnone, hop⟩ :=
      heff.approval_created (approvalsWell_history calls c hmem).1 hbefore hafter
    exact ⟨c, hc, hnone, hrev, hop⟩

/-- **Approvals are single-use and bound to one candidate revision.** -/
theorem approvals_single_use (calls : List Call) : ApprovalRun D (storeHistory H D calls) where
  bound _ hev _ _ _ h := h.approvals hev
  once := history_once calls
  final := history_consumedKept calls
  created _ _ _ hrun _ _ hget := history_created hrun hget
  failed ev hev _ _ e _ he := by
    rcases event_cases hev with ⟨-, hsame⟩ | ⟨r, hr, -⟩
    · exact hsame
    · rw [he] at hr
      cases hr

end Phragma.Store
