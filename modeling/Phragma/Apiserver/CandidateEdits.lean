import Phragma.Apiserver.Concurrent

/-!
# Phragma.Apiserver.CandidateEdits

Optimistic concurrency of NAT edits.

A NAT edit compares the revision its client expects with the current one in the transaction
that stores the edit, but it has read the policy it edits before, without the mutex. Between
the two the candidate may have changed and changed back: a revision is a digest of content, and
recurs. `candidate_nat_edits_of_reads` says what then holds: the edit that is stored is the edit of
what the expected revision denotes whenever the policy that was read is the one with that
revision. `nat_edit_resurrects` is a run in which it is not.
-/

namespace Phragma.Apiserver

open Lib Go Policy Engines Renderers Store

/-! ### What a revision denotes

A revision is a digest of the candidate, or the number of the running policy where there is none. So
it denotes a policy as far as digests do not collide. -/

/-- The revision of a store without a candidate. -/
def noneRevision (running : Nat) : GoString := GoString.ofString "none:" ++ sprintD running

/-- The policy a revision denotes: the candidate with that digest, or the policy of a version
that was running without a candidate; no version is the empty policy. -/
inductive Denotes (D : Digest) (db : DB) : GoString → Phragma.Policy → Prop
  | candidate (p : Phragma.Policy) : Denotes D db (candidateBlobRevision D p) p
  | version {n : Nat} {p : Phragma.Policy} (h : db.versions.get n = some p) :
      Denotes D db (noneRevision n) p
  | fresh : Denotes D db (noneRevision 0) {}

/-- The policy a client works on: the candidate, or else the running policy. -/
def workspace (db : DB) : Option Phragma.Policy :=
  match db.candidate with
  | some candidate => some candidate
  | none => (readRunning db).toOption

/-- The candidates of a run. -/
def candidates (run : List AccessEvent) : List Phragma.Policy :=
  run.filterMap fun ev => ev.before.shared.db.candidate

/-- Different candidates of the run have different digests. -/
def DistinctRevisions (D : Digest) (run : List AccessEvent) : Prop :=
  ∀ p ∈ candidates run, ∀ q ∈ candidates run, D.policy p = D.policy q → p = q

theorem candidateBlobRevision_ne_noneRevision (D : Digest) (p : Phragma.Policy) (n : Nat) :
    candidateBlobRevision D p ≠ noneRevision n := by
  intro h
  have hhead := congrArg List.head? h
  rw [candidateBlobRevision, noneRevision, List.head?_append, List.head?_append] at hhead
  have hs : (GoString.ofString "sha256:").head? = some (.char 's') := by decide
  have hn : (GoString.ofString "none:").head? = some (.char 'n') := by decide
  rw [hs, hn] at hhead
  simp at hhead

theorem noneRevision_inj {m n : Nat} (h : noneRevision m = noneRevision n) : m = n := by
  have hdigits : (decimal m).toList.map Rune.char = (decimal n).toList.map Rune.char :=
    List.append_cancel_left h
  exact decimal_inj (List.map_injective_iff.mpr (fun _ _ => Rune.char.inj) hdigits)

theorem candidateRevision_of_some {D : Digest} {db : DB} {p : Phragma.Policy}
    (h : db.candidate = some p) : candidateRevision D db = candidateBlobRevision D p := by
  simp only [candidateRevision, h]

theorem candidateRevision_of_none {D : Digest} {db : DB} (h : db.candidate = none) :
    candidateRevision D db = noneRevision (metaVersionID db.running) := by
  simp only [candidateRevision, h, noneRevision]

/-- In a store whose versions are numbered from one, version 0 is no version. -/
theorem running_of_metaVersionID_zero {H : IdentityHash} {db : DB} (hdb : StoreSound H db)
    (h : metaVersionID db.running = 0) : db.running = none := by
  cases hr : db.running with
  | none => rfl
  | some n =>
      rw [hr] at h
      obtain ⟨⟨p, hp⟩, -⟩ := hdb.well.pointers.recorded n hr
      obtain rfl : n = 0 := h
      rw [hdb.zero] at hp
      cases hp

/-! ### One edit -/

/-- The revision a NAT edit expects. -/
def NatCall.expected (n : NatCall) : GoString :=
  GoString.ofString (trimSpace n.expectedCandidateRevision)

/-- The step stores the edit of the policy that the expected revision denotes, which is the
policy its client worked on: nothing that others staged is lost, and nothing comes back. -/
def StagesEdit (S : Server) (n : NatCall) (before after : DB) : Prop :=
  ∃ edit content m, n.required = .ok edit ∧ Denotes S.D before n.expected content ∧
    workspace before = some content ∧ edit content = .ok m ∧ SingleEdit content m.next ∧
    after.candidate = some (normalizeIdentities S.H m.next)

/-- What is known of the policy a NAT edit has read, whatever the others do since. -/
inductive Loaded (D : Digest) (known : List Phragma.Policy) (db : DB) :
    GoString → Phragma.Policy → Prop
  | candidate {p : Phragma.Policy} (h : p ∈ known) :
      Loaded D known db (candidateBlobRevision D p) p
  | version {n : Nat} {p : Phragma.Policy} (h : db.versions.get n = some p) :
      Loaded D known db (noneRevision n) p
  | fresh : Loaded D known db (noneRevision 0) {}

section

variable {H : IdentityHash} {D : Digest} {known : List Phragma.Policy} {db db' : DB} {R : GoString}
  {content : Phragma.Policy}

theorem Loaded.mono (h : Loaded D known db R content) (hkept : VersionsKept db db') :
    Loaded D known db' R content := by
  cases h with
  | candidate hp => exact .candidate hp
  | version hv => exact .version (hkept _ _ hv)
  | fresh => exact .fresh

theorem Loaded.denotes (h : Loaded D known db R content) : Denotes D db R content := by
  cases h with
  | candidate hp => exact .candidate _
  | version hv => exact .version hv
  | fresh => exact .fresh

/-- What was read without a candidate is the running policy. -/
theorem loaded_running (hdb : StoreSound H db) (hR : noneRevision (metaVersionID db.running) = R)
    (h : readRunning db = .ok content) : Loaded D known db R content := by
  subst hR
  unfold readRunning GetRunning at h
  cases hr : db.running with
  | none =>
      rw [hr] at h
      cases h
      exact .fresh
  | some n =>
      obtain ⟨⟨p, hp⟩, -⟩ := hdb.well.pointers.recorded n hr
      simp only [hr, hp] at h
      cases h
      exact .version hp

/-- **While the expected revision is the current one, the policy that was read is the one to be
edited.** -/
theorem Loaded.workspace_eq (h : Loaded D known db R content) (hdb : StoreSound H db)
    (hdistinct : ∀ p ∈ known, ∀ q ∈ known, D.policy p = D.policy q → p = q)
    (hknown : ∀ c, db.candidate = some c → c ∈ known) (hcur : R = candidateRevision D db) :
    workspace db = some content := by
  unfold workspace
  cases hc : db.candidate with
  | some c =>
      rw [candidateRevision_of_some hc] at hcur
      cases h with
      | candidate hp =>
          have hdigits : D.policy content = D.policy c :=
            List.map_injective_iff.mpr (fun _ _ => Rune.char.inj) (List.append_cancel_left hcur)
          exact congrArg some (hdistinct c (hknown c hc) content hp hdigits.symm)
      | version hv => exact (candidateBlobRevision_ne_noneRevision D c _ hcur.symm).elim
      | fresh => exact (candidateBlobRevision_ne_noneRevision D c _ hcur.symm).elim
  | none =>
      rw [candidateRevision_of_none hc] at hcur
      cases h with
      | candidate hp => exact (candidateBlobRevision_ne_noneRevision D content _ hcur).elim
      | @version n _ hv =>
          have hn := noneRevision_inj hcur
          cases hr : db.running with
          | none =>
              rw [hn, hr, show metaVersionID none = 0 from rfl, hdb.zero] at hv
              cases hv
          | some m =>
              rw [hn, hr, show metaVersionID (some m) = m from rfl] at hv
              simp only [readRunning, GetRunning, hr, hv]
              rfl
      | fresh =>
          have hr := running_of_metaVersionID_zero hdb (noneRevision_inj hcur).symm
          simp only [readRunning, GetRunning, hr]
          rfl

end

/-! ### The handler of an edit

The accesses of a handler in order, with others in between: the candidate that is read need not be
the one that is compared. -/

/-- What a run must meet at the accesses of a NAT edit: the candidates are known, and what is
read is what the expected revision denotes. -/
structure ReadsAt (D : Digest) (known : List Phragma.Policy) (R : GoString) (label : Access)
    (w : World) : Prop where
  known : ∀ c, w.db.candidate = some c → c ∈ known
  candidate : label = .getCandidate → ∀ c, w.db.candidate = some c →
    candidateBlobRevision D c = R
  running : label = .getRunning → noneRevision (metaVersionID w.db.running) = R

/-- What a NAT edit does at an access: it changes the store only by its edit. -/
def EditsAt (S : Server) (n : NatCall) (_ : Access) (w w' : World) : Prop :=
  w'.db ≠ w.db → StagesEdit S n w.db w'.db

theorem editsAt_rfl (S : Server) (n : NatCall) (label : Access) (w : World) :
    EditsAt S n label w w := fun h => (h rfl).elim

section

variable {S : Server} {env : Env} {known : List Phragma.Policy} {n : NatCall}
  {edit : Phragma.Policy → Except Status NatMutation} {content : Phragma.Policy} {m : NatMutation}

/-- The correctness of a part of a NAT edit, from a given world on. -/
abbrev EditMeets (S : Server) (known : List Phragma.Policy) (n : NatCall) (t : Handler)
    (w : World) : Prop :=
  t.Meets (WorldSound S) StoreKept (ReadsAt S.D known n.expected) (EditsAt S n) w

theorem stageNatMutation_meets
    (hdistinct : ∀ p ∈ known, ∀ q ∈ known, S.D.policy p = S.D.policy q → p = q)
    (hrequired : n.required = .ok edit) (hedit : edit content = .ok m)
    (hsingle : SingleEdit content m.next) {comment : String}
    (hexpected : n.expected ≠ []) {w : World} (hload : Loaded S.D known w.db n.expected content) :
    EditMeets S known n
      (S.stageNatMutation env (trimSpace n.expectedCandidateRevision) comment m) w := by
  refine Thread.meets_transact fun w' hkept hw' hreads => ⟨?_, ?_⟩
  · intro hchanged
    unfold onStore transact at hchanged ⊢
    rcases Tx.update_cases .bolt (env.faults .stage)
      (S.natTx env (trimSpace n.expectedCandidateRevision) comment m) w'.db
      with ⟨e, he⟩ | ⟨r, db', he, hy⟩
    · rw [he] at hchanged
      exact (hchanged rfl).elim
    · rw [he]
      obtain ⟨hcur, -, hash, -, rfl⟩ := SetCandidateWithAuditIfRevision_ok hy
      have hcur : n.expected = candidateRevision S.D w'.db := hcur.resolve_left hexpected
      have hload' := hload.mono hkept
      exact ⟨edit, content, m, hrequired, hload'.denotes,
        hload'.workspace_eq hw' hdistinct hreads.known hcur, hedit, hsingle, rfl⟩
  · cases (onStore env .stage (S.natTx env (trimSpace n.expectedCandidateRevision) comment m)
      w').1 with
    | error e => exact Thread.meets_ret _ _
    | ok revision =>
        exact Thread.meets_view (editsAt_rfl S n _) fun _ _ _ _ => Thread.meets_ret _ _

theorem editLoaded_meets
    (hdistinct : ∀ p ∈ known, ∀ q ∈ known, S.D.policy p = S.D.policy q → p = q)
    (hrequired : n.required = .ok edit)
    (hsingle : ∀ p m, edit p = .ok m → SingleEdit p m.next) {comment : String}
    {loaded : Except Status Phragma.Policy} {w : World}
    (hload : ∀ p, loaded = .ok p → Loaded S.D known w.db n.expected p) :
    EditMeets S known n (S.editLoaded env n edit comment loaded) w := by
  unfold Server.editLoaded
  cases loaded with
  | error status => exact Thread.meets_ret _ _
  | ok p =>
      have hload := hload p rfl
      simp only [Except.bind]
      cases hedit : edit p with
      | error status => exact Thread.meets_ret _ _
      | ok m =>
          dsimp only
          unfold Server.storeCandidateNatMutation
          split_ifs with htrim
          · exact Thread.meets_ret _ _
          · have hexpected : n.expected ≠ [] := by
              intro hnil
              unfold NatCall.expected at hnil
              rw [GoString.ofString_eq_nil hnil] at htrim
              exact htrim (by decide)
            refine Thread.meets_view (editsAt_rfl S n _) fun w' hkept _ _ => ?_
            split
            · exact Thread.meets_ret _ _
            · exact (stageNatMutation_meets hdistinct hrequired hedit (hsingle p m hedit) hexpected
                (hload.mono hkept)).locked
            · exact Thread.meets_ret _ _

/-- **A NAT edit is correct under interference.** -/
theorem mutateCandidateNat_meets
    (hdistinct : ∀ p ∈ known, ∀ q ∈ known, S.D.policy p = S.D.policy q → p = q)
    (hsingle : ∀ edit p m, n.required = .ok edit → edit p = .ok m → SingleEdit p m.next)
    (w : World) : EditMeets S known n (S.mutateCandidateNat env n) w := by
  unfold Server.mutateCandidateNat
  split
  · exact Thread.meets_ret _ _
  · next edit hrequired =>
      split
      · exact Thread.meets_ret _ _
      · refine Thread.meets_view (editsAt_rfl S n _) fun w₁ _ _ hreads => ?_
        have hsingle := fun p m => hsingle edit p m hrequired
        split
        · next candidate hc =>
            refine editLoaded_meets hdistinct hrequired hsingle fun p hp => ?_
            cases hp
            rw [← hreads.candidate rfl candidate hc]
            exact .candidate (hreads.known candidate hc)
        · refine Thread.meets_view (editsAt_rfl S n _) fun w₂ _ hw₂ hreads => ?_
          exact editLoaded_meets hdistinct hrequired hsingle fun p hp =>
            loaded_running hw₂ (hreads.running rfl) hp

end

/-! ### Runs

The condition is on the reads of the run. Where it holds each stored edit is the edit of what the
client has seen. -/

/-- The NAT edit of a request, if it is one. -/
def Request.natCall : Request → Option NatCall
  | .upsertCandidateSourceNat req => some (req.natCall sourceNats upsertSourceNat)
  | .deleteCandidateSourceNat req => some (req.natCall deleteSourceNat)
  | .upsertCandidateDestinationNat req => some (req.natCall destinationNats upsertDestinationNat)
  | .deleteCandidateDestinationNat req => some (req.natCall deleteDestinationNat)
  | _ => none

theorem handle_of_natCall {S : Server} {c : ClientCall} {n : NatCall}
    (h : c.request.natCall = some n) : S.handle c = S.mutateCandidateNat c.env n := by
  unfold Server.handle
  cases hreq : c.request <;> rw [hreq] at h <;> cases h <;> rfl

theorem upsertNatRequest_single {ρ : Type} {T : NatTable ρ}
    {upsert : ρ → String → Phragma.Policy → Except Status NatMutation}
    (hupsert : ∀ rule id p m, upsert rule id p = .ok m → SingleEdit p m.next)
    {req : UpsertNatRequest ρ} {edit : Phragma.Policy → Except Status NatMutation}
    {p : Phragma.Policy} {m : NatMutation} (h : (req.natCall T upsert).required = .ok edit)
    (hedit : edit p = .ok m) : SingleEdit p m.next := by
  unfold UpsertNatRequest.natCall at h
  cases hrule : req.rule with
  | none => simp only [hrule] at h; cases h
  | some rule =>
      simp only [hrule] at h
      cases h
      exact hupsert rule _ p m hedit

theorem deleteNatRequest_single
    {delete : String → String → Phragma.Policy → Except Status NatMutation}
    (hdelete : ∀ name id p m, delete name id p = .ok m → SingleEdit p m.next)
    {req : DeleteNatRequest} {edit : Phragma.Policy → Except Status NatMutation}
    {p : Phragma.Policy} {m : NatMutation} (h : (req.natCall delete).required = .ok edit)
    (hedit : edit p = .ok m) : SingleEdit p m.next := by
  unfold DeleteNatRequest.natCall at h
  obtain rfl := Except.ok.inj h
  exact hdelete _ _ p m hedit

/-- Every NAT edit is a single edit. -/
theorem natCall_single {r : Request} {n : NatCall} (h : r.natCall = some n)
    {edit : Phragma.Policy → Except Status NatMutation} {p : Phragma.Policy} {m : NatMutation}
    (hrequired : n.required = .ok edit) (hedit : edit p = .ok m) : SingleEdit p m.next := by
  cases r with
  | upsertCandidateSourceNat req =>
      cases h
      exact upsertNatRequest_single (fun _ _ _ _ => upsertSourceNat_single) hrequired hedit
  | upsertCandidateDestinationNat req =>
      cases h
      exact upsertNatRequest_single (fun _ _ _ _ => upsertDestinationNat_single) hrequired hedit
  | deleteCandidateSourceNat req =>
      cases h
      exact deleteNatRequest_single (fun _ _ _ _ => deleteSourceNat_single) hrequired hedit
  | deleteCandidateDestinationNat req =>
      cases h
      exact deleteNatRequest_single (fun _ _ _ _ => deleteDestinationNat_single) hrequired hedit
  | _ => cases h

/-- Staging changes the store: it leaves an audit entry. -/
theorem stageTx_changes {S : Server} {env : Env} {p : Phragma.Policy} {expected : String}
    {entry : AuditEntry} {db db' : DB} {r : GoString}
    (h : (S.stageTx env p expected entry).Yields db r db') : db' ≠ db := by
  obtain ⟨-, -, hash, -, rfl⟩ := SetCandidateWithAuditIfRevision_ok h
  intro heq
  have hseq := congrArg (fun d : DB => d.audit.seq) heq
  exact Nat.succ_ne_self _ hseq

/-- **A NAT edit that succeeds has changed the store.** -/
theorem mutateCandidateNat_through (S : Server) (env : Env) (n : NatCall) :
    (S.mutateCandidateNat env n).Through (fun w w' => w'.db ≠ w.db)
      (fun o => ∃ r, o = .nat (.ok r)) := by
  have herror : ∀ status, ¬ ∃ r, Response.nat (.error status) = .nat (.ok r) := by
    rintro status ⟨r, hr⟩
    cases hr
  have hload : ∀ edit comment loaded, (S.editLoaded env n edit comment loaded).Through
      (fun w w' => w'.db ≠ w.db) (fun o => ∃ r, o = .nat (.ok r)) := by
    intro edit comment loaded
    unfold Server.editLoaded
    split
    · exact Thread.through_ret (herror _)
    · unfold Server.storeCandidateNatMutation
      split_ifs
      · exact Thread.through_ret (herror _)
      · refine Thread.through_view fun w => ?_
        split
        · exact Thread.through_ret (herror _)
        · apply Thread.Through.locked
          refine Thread.through_transact fun w' => ?_
          unfold onStore transact
          rcases Tx.update_cases .bolt (env.faults .stage) (S.natTx env
            (trimSpace n.expectedCandidateRevision) comment _) w'.db with ⟨e, he⟩ | ⟨r, db', he, hy⟩
          · rw [he]
            exact .inr (Thread.through_ret (herror _))
          · rw [he]
            exact .inl (stageTx_changes hy)
        · exact Thread.through_ret (herror _)
  unfold Server.mutateCandidateNat
  split
  · exact Thread.through_ret (herror _)
  · split
    · exact Thread.through_ret (herror _)
    · refine Thread.through_view fun w => ?_
      split
      · exact hload _ _ _
      · exact Thread.through_view fun w' => hload _ _ _

/-- Whenever call `i` reads the policy it edits, it reads what the revision `R` denotes: the
candidate it finds has that revision, and the running version it reads otherwise is the one
the revision names. -/
def ReadsExpected (D : Digest) (R : GoString) (i : Nat) (run : List AccessEvent) : Prop :=
  ∀ ev ∈ run, ev.input = i →
    (ev.output = some .getCandidate → ∀ c ∈ ev.before.shared.db.candidate,
      candidateBlobRevision D c = R) ∧
    (ev.output = some .getRunning → noneRevision (metaVersionID ev.before.shared.db.running) = R)

instance (D : Digest) (R : GoString) (i : Nat) (run : List AccessEvent) :
    Decidable (ReadsExpected D R i run) :=
  inferInstanceAs (Decidable (∀ ev ∈ run, _ → _ ∧ _))

/-- **NAT edits are optimistically concurrent as far as they read what they expect.** Take any
store, any calls of concurrent clients and any interleaving of them, and a NAT edit among them
that reads the policy its expected revision denotes. Then whatever the call changes in the
store is its single edit of the policy with that revision, which still is the policy of the
workspace when it is stored; and if the call succeeds it has made that change. -/
theorem candidate_nat_edits_of_reads {S : Server} {earlier : List Store.Call}
    {hold : String → Option String} {calls : List ClientCall} {schedule : List Nat} {i : Nat}
    {c : ClientCall} {n : NatCall} (hcall : calls[i]? = some c)
    (hnat : c.request.natCall = some n)
    (hdistinct : DistinctRevisions S.D
      ((S.serve ⟨final (exec S.H S.D) {} earlier, hold⟩ calls).run schedule))
    (hreads : ReadsExpected S.D n.expected i
      ((S.serve ⟨final (exec S.H S.D) {} earlier, hold⟩ calls).run schedule)) :
    (∀ ev ∈ (S.serve ⟨final (exec S.H S.D) {} earlier, hold⟩ calls).run schedule, ev.input = i →
      ev.after.shared.db ≠ ev.before.shared.db →
        StagesEdit S n ev.before.shared.db ev.after.shared.db) ∧
    ∀ r, (final Pool.step (S.serve ⟨final (exec S.H S.D) {} earlier, hold⟩ calls)
        schedule).threads[i]? = some (.ret (.nat (.ok r))) →
      ∃ ev ∈ (S.serve ⟨final (exec S.H S.D) {} earlier, hold⟩ calls).run schedule, ev.input = i ∧
        ev.after.shared.db ≠ ev.before.shared.db ∧
          StagesEdit S n ev.before.shared.db ev.after.shared.db := by
  set p := S.serve ⟨final (exec S.H S.D) {} earlier, hold⟩ calls with hp
  have hthread : p.threads[i]? = some (S.mutateCandidateNat c.env n) := by
    rw [← handle_of_natCall hnat]
    exact serve_thread hcall
  have hwell := serve_well S (w := ⟨final (exec S.H S.D) {} earlier, hold⟩)
    (storeSound_final earlier) calls
  have hcorrect : EditMeets S _ n (S.mutateCandidateNat c.env n) p.shared :=
    mutateCandidateNat_meets hdistinct (fun _ _ _ => natCall_single hnat) p.shared
  have hedits : ∀ ev ∈ p.run schedule, ev.input = i → ev.after.shared.db ≠ ev.before.shared.db →
      StagesEdit S n ev.before.shared.db ev.after.shared.db := by
    intro ev hev hi hchanged
    cases hlabel : ev.output with
    | none =>
        -- without an action the shared state stays
        have hexec := (history_event hev).2
        have hnone : (Pool.step ev.input ev.before).1 = none := by
          rw [hexec]
          exact hlabel
        have hsame := Pool.step_none hnone
        rw [hexec] at hsame
        exact (hchanged (congrArg World.db hsame)).elim
    | some label =>
        refine Pool.history_meets StoreKept.rfl StoreKept.trans hwell ⟨_, hthread, hcorrect⟩ ?_ ev
          hev hi label hlabel hchanged
        intro ev hev hi label hlabel
        obtain ⟨hcand, hrun⟩ := hreads ev hev hi
        refine ⟨fun c hc => List.mem_filterMap.mpr ⟨ev, hev, hc⟩, ?_, ?_⟩
        · rintro rfl
          exact hcand hlabel
        · rintro rfl
          exact hrun hlabel
  refine ⟨hedits, fun r hr => ?_⟩
  obtain ⟨ev, hev, hi, hchanged⟩ :=
    Pool.history_through hthread (mutateCandidateNat_through S c.env n) hr ⟨r, rfl⟩
  exact ⟨ev, hev, hi, hchanged, hedits ev hev hi hchanged⟩

/-! ### Two runs -/

/-- Two zones. -/
def stagedPolicy : Phragma.Policy where
  zones := [{ name := "lan", interfaces := ["eth0"] }, { name := "wan", interfaces := ["eth1"] }]

/-- The same with a third zone. -/
def widerPolicy : Phragma.Policy :=
  { stagedPolicy with
    zones := stagedPolicy.zones ++ [{ name := "dmz", interfaces := ["eth2"] }] }

/-- A translation of what leaves through `wan`. -/
def egressNat : SourceNat where
  name := "out"
  toZone := "wan"
  masquerade := true
  id := "nat-out"

/-- A policy with that translation. -/
def withEgressNat (p : Phragma.Policy) : Phragma.Policy :=
  { p with nat := some { source := [egressNat] } }

/-- SHA-256 of the encodings of the policies of the two runs. -/
def policyTable : List (Phragma.Policy × String) :=
  [(stagedPolicy, "8a4a3c78cc417db88e4113e7a8531f7384f9a07fe49dab418e0d7c84ee6e01c5"),
    (widerPolicy, "3ddd1321e41dde5192b62540b59a8191c755b76d7e3f88fd133a5944c2a245fb"),
    (withEgressNat stagedPolicy,
      "41409b9d8f07521aa49cea1687c8d5e045148df7bc78211b2dc637f8fcaad026"),
    (withEgressNat widerPolicy,
      "13e51e2e968cab5ae32640b703caf8e269c463977660b157b7ecbf85bc9da440")]

/-- The digest of these policies. That of audit entries, on which nothing here depends, is
constant. -/
def editDigest : Digest where
  hex _ := ['0']
  policy p := ((policyTable.lookup p).getD "").toList
  hex_ne_nil := by simp

/-- A server with this digest. -/
def editServer : Server := { sampleServer with D := editDigest }

theorem distinctRevisions_of_table {run : List AccessEvent}
    (h : ∀ p ∈ candidates run, p ∈ policyTable.map Prod.fst) :
    DistinctRevisions editServer.D run := by
  have htable : ∀ p ∈ policyTable.map Prod.fst, ∀ q ∈ policyTable.map Prod.fst,
      editServer.D.policy p = editServer.D.policy q → p = q := by decide +kernel
  exact fun p hp q hq => htable p (h p hp) q (h q hq)

/-- Stage a policy, whatever is staged. -/
def setCandidateCall (p : Phragma.Policy) : ClientCall := ⟨calmEnv, .setCandidate ⟨some p, ""⟩⟩

/-- Add the translation to `stagedPolicy`. -/
def egressRequest : UpsertNatRequest SourceNat where
  rule := some egressNat
  expectedCandidateRevision :=
    "sha256:8a4a3c78cc417db88e4113e7a8531f7384f9a07fe49dab418e0d7c84ee6e01c5"
  comment := "egress"
  reason := ""
  id := ""

def egressCall : ClientCall := ⟨calmEnv, .upsertCandidateSourceNat egressRequest⟩

/-- The NAT edit of that call. -/
def egressEdit : NatCall := egressRequest.natCall sourceNats upsertSourceNat

/-- One client stages a policy, then another adds the translation. -/
def calmCalls : List ClientCall := [setCandidateCall stagedPolicy, egressCall]

def calmSchedule : List Nat := [0, 0, 0, 1, 1, 1, 1, 1, 1]

/-- The edit reads while the wider policy is staged and stores when it no longer is. -/
def racingCalls : List ClientCall :=
  [setCandidateCall stagedPolicy, setCandidateCall widerPolicy, egressCall,
    setCandidateCall stagedPolicy]

def racingSchedule : List Nat := [0, 0, 0, 1, 1, 1, 2, 2, 3, 3, 3, 2, 2, 2, 2]

/-- A thread that has returned from a successful NAT edit. -/
def isNatOk : Option Handler → Bool
  | some (.ret (.nat (.ok _))) => true
  | _ => false

theorem eq_of_isNatOk {t : Option Handler} (h : isNatOk t = true) :
    ∃ r, t = some (.ret (.nat (.ok r))) := by
  unfold isNatOk at h
  split at h
  · exact ⟨_, rfl⟩
  · cases h

/-- Edits leave the zones alone. -/
theorem StagesEdit.zones {S : Server} {n : NatCall} {before after : DB}
    (h : StagesEdit S n before after) :
    after.candidate.map Policy.zones = (workspace before).map Policy.zones := by
  obtain ⟨edit, content, m, -, -, hwork, -, ⟨nat, hnext, -⟩, hafter⟩ := h
  rw [hafter, hwork, hnext]
  rfl

theorem candidate_nat_edits_of_reads_egress :
    isNatOk (final Pool.step (editServer.serve sampleWorld calmCalls) calmSchedule).threads[1]? =
        true ∧
      ∃ ev ∈ (editServer.serve sampleWorld calmCalls).run calmSchedule, ev.input = 1 ∧
        ev.after.shared.db ≠ ev.before.shared.db ∧ StagesEdit editServer egressEdit ev.before.shared.db ev.after.shared.db := by
  obtain ⟨hok, hknown, hreads⟩ :
      isNatOk (final Pool.step (editServer.serve sampleWorld calmCalls) calmSchedule).threads[1]? =
          true ∧
        (∀ p ∈ candidates ((editServer.serve sampleWorld calmCalls).run calmSchedule),
          p ∈ policyTable.map Prod.fst) ∧
        ReadsExpected editServer.D egressEdit.expected 1
          ((editServer.serve sampleWorld calmCalls).run calmSchedule) := by decide +kernel
  obtain ⟨r, hr⟩ := eq_of_isNatOk hok
  exact ⟨hok, (@candidate_nat_edits_of_reads editServer [] sampleWorld.hold calmCalls calmSchedule 1
    egressCall egressEdit rfl rfl (distinctRevisions_of_table hknown) hreads).2 r hr⟩

/-- **An edit can bring back what another client has replaced.** In the racing run the edit
succeeds, but what it stores is no edit of the policy that is staged: the third zone is back. -/
theorem nat_edit_resurrects :
    ¬ ∀ (calls : List ClientCall) (schedule : List Nat) (i : Nat) (c : ClientCall) (n : NatCall)
      (r : NatResponse), calls[i]? = some c → c.request.natCall = some n →
      DistinctRevisions editServer.D ((editServer.serve sampleWorld calls).run schedule) →
      (final Pool.step (editServer.serve sampleWorld calls) schedule).threads[i]? =
        some (.ret (.nat (.ok r))) →
      ∃ ev ∈ (editServer.serve sampleWorld calls).run schedule, ev.input = i ∧
        ev.after.shared.db ≠ ev.before.shared.db ∧
          StagesEdit editServer n ev.before.shared.db ev.after.shared.db := by
  intro h
  obtain ⟨hok, hknown, hzones⟩ :
      isNatOk (final Pool.step (editServer.serve sampleWorld racingCalls)
          racingSchedule).threads[2]? = true ∧
        (∀ p ∈ candidates ((editServer.serve sampleWorld racingCalls).run racingSchedule),
          p ∈ policyTable.map Prod.fst) ∧
        ∀ ev ∈ (editServer.serve sampleWorld racingCalls).run racingSchedule, ev.input = 2 →
          ev.after.shared.db = ev.before.shared.db ∨
            ev.after.shared.db.candidate.map Policy.zones ≠
              (workspace ev.before.shared.db).map Policy.zones := by decide +kernel
  obtain ⟨r, hr⟩ := eq_of_isNatOk hok
  obtain ⟨ev, hev, hi, hchanged, hedit⟩ := h racingCalls racingSchedule 2 egressCall egressEdit r
    rfl rfl (distinctRevisions_of_table hknown) hr
  rcases hzones ev hev hi with hsame | hother
  · exact hchanged hsame
  · exact hother hedit.zones

end Phragma.Apiserver
