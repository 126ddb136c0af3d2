import Phragma.Store.Versions
import Phragma.Store.AuditChain

/-!
# Phragma.Store.LastKnownGood

Finding the **last-known-good version** in the version listing.

`lastKnownGoodVersionInfo` of the system service lists versions without naming a limit and takes
the one that is marked. `ListVersions` reads a missing limit as 100 and walks from the newest
number down, and a version that was prepared takes a number whether or not it is activated later.
So the version that the pointer names is found exactly as long as fewer than 100 numbers were
handed out after it (`lastKnownGood_found_iff`).
-/

namespace Phragma.Store

open Lib Go Policy

variable {H : IdentityHash} {D : Digest}

/-! ### The listing -/

/-- A version's metadata as it is shown. -/
def VersionInfo.shown (info : VersionInfo) : VersionInfo :=
  { info with state := if info.state = [] then GoString.ofString "unknown" else info.state }

/-- The mark of the last-known-good version. -/
def isLastKnownGood (db : DB) (info : VersionInfo) : Bool :=
  info.id ≠ 0 && info.id = metaVersionID db.lastKnown

/-- `ListVersions`: newest first, at most `limit`, each with its mark. -/
def ListVersions (db : DB) (limit : Int) : List (VersionInfo × Bool) :=
  let limit := if limit ≤ 0 then 100 else limit.toNat
  (db.versionInfo.entries.reverse.take limit).map fun e => (e.2.shown, isLastKnownGood db e.2)

/-- `lastKnownGoodVersionInfo` of `internal/apiserver/system.go`: the listed version that is
marked. -/
def lastKnownGoodVersionInfo (db : DB) : Option VersionInfo :=
  ((ListVersions db 0).find? Prod.snd).map Prod.fst

/-! ### The metadata along a run

Versions are numbered one after the other and their metadata stays, so which are listed can be told
from the counter. -/

/-- Every number that was handed out has its metadata, under that number. -/
structure InfosWell (db : DB) : Prop where
  keys : db.versionInfo.entries.map Prod.fst = List.range' 1 db.versions.seq
  ids : ∀ e ∈ db.versionInfo.entries, e.2.id = e.1

theorem InfosWell.mem_keys {db : DB} (h : InfosWell db) {e : Nat × VersionInfo}
    (he : e ∈ db.versionInfo.entries) : 0 < e.1 ∧ e.1 ≤ db.versions.seq := by
  have hmem : e.1 ∈ List.range' 1 db.versions.seq := h.keys ▸ List.mem_map_of_mem he
  rw [List.mem_range'_1] at hmem
  omega

theorem infosWell_empty : InfosWell {} := ⟨rfl, fun e he => by cases he⟩

/-- A transition leaves the metadata alone, rewrites that of one version, or adds that of the next
number. -/
theorem Effect.infos {clock : Nat → Time} {db db' : DB} {op : Op} {r : Reply}
    (h : Effect H D clock db op r db') :
    (db'.versionInfo = db.versionInfo ∧ db'.versions.seq = db.versions.seq) ∨
      (∃ id old new, db.versionInfo.get id = some old ∧
        db'.versionInfo = db.versionInfo.put id new ∧ new.id = old.id ∧
        db'.versions.seq = db.versions.seq) ∨
      ∃ new, db'.versionInfo = db.versionInfo.put (db.versions.seq + 1) new ∧
        new.id = db.versions.seq + 1 ∧ db'.versions.seq = db.versions.seq + 1 := by
  cases h with
  | recover chain source kept =>
      rcases kept with rfl | ⟨info, hinfo, rfl⟩
      · exact .inl ⟨rfl, rfl⟩
      · exact .inr (.inl ⟨_, info, _, hinfo, rfl, rfl, rfl⟩)
  | commitVersion => exact .inr (.inr ⟨_, rfl, rfl, rfl⟩)
  | prepare => exact .inr (.inr ⟨_, rfl, rfl, rfl⟩)
  | activate version metadata => exact .inr (.inl ⟨_, _, _, metadata, rfl, rfl, rfl⟩)
  | markVersionState metadata => exact .inr (.inl ⟨_, _, _, metadata, rfl, rfl, rfl⟩)
  | _ => exact .inl ⟨rfl, rfl⟩

theorem Effect.infosWell {clock : Nat → Time} {db db' : DB} {op : Op} {r : Reply}
    (h : Effect H D clock db op r db') (hwell : InfosWell db) : InfosWell db' := by
  have hkeys := hwell.keys
  have hids := hwell.ids
  rcases h.infos with ⟨heq, hseq⟩ | ⟨id, old, new, hget, heq, hid, hseq⟩ | ⟨new, heq, hid, hseq⟩
  · exact ⟨by rw [heq, hseq, hkeys], fun e he => hids e (heq ▸ he)⟩
  · obtain ⟨pre, post, hentries⟩ := Bucket.entries_of_get hget
    have hput := Bucket.entries_put_of_mem (v := new) hentries
    have hold := hids (id, old) (hentries ▸ by simp)
    rw [hentries] at hkeys hids
    constructor
    · rw [heq, hput, hseq, ← hkeys]
      simp
    · intro e he
      rw [heq, hput, List.mem_append, List.mem_cons] at he
      rcases he with he | rfl | he
      · exact hids e (by simp [he])
      · exact hid.trans hold
      · exact hids e (by simp [he])
  · have hfresh : ∀ e ∈ db.versionInfo.entries, e.1 < db.versions.seq + 1 := by
      intro e he
      exact Nat.lt_succ_of_le (hwell.mem_keys he).2
    have hput : db'.versionInfo.entries = db.versionInfo.entries ++ [(db.versions.seq + 1, new)] := by
      rw [heq, Bucket.entries_put, Bucket.insert_of_above new hfresh]
    constructor
    · rw [hput, hseq, List.map_append, hkeys, List.range'_1_concat, Nat.add_comm 1]
      rfl
    · intro e he
      rw [hput, List.mem_append, List.mem_singleton] at he
      rcases he with he | rfl
      · exact hids e he
      · exact hid

theorem infosWell_history (calls : List Call) :
    ∀ ev ∈ storeHistory H D calls, InfosWell ev.before ∧ InfosWell ev.after :=
  history_invariant (C := fun _ : Call => True)
    (fun _ _ _ h => exec_invariant (fun _ _ heff hI => heff.infosWell hI) h)
    (fun _ _ => trivial) infosWell_empty

/-! ### What the lookup finds

The marked version is found exactly when it is among those listed. -/

/-- The mark is on the version that the pointer names, and on no other. -/
theorem isLastKnownGood_iff {db : DB} {id : Nat} {info : VersionInfo} (hid : 0 < id)
    (hlast : db.lastKnown = some id) : isLastKnownGood db info = true ↔ info.id = id := by
  simp only [isLastKnownGood, hlast, metaVersionID, Option.getD_some, Bool.and_eq_true,
    decide_eq_true_eq]
  constructor
  · exact fun h => h.2
  · rintro rfl
    exact ⟨by omega, rfl⟩

/-- **The lookup finds the version that the pointer names among the last 100 numbers**, and nothing
when it is not among them. -/
theorem lastKnownGoodVersionInfo_eq {db : DB} (hdb : InfosWell db) {id : Nat} {info : VersionInfo}
    (hlast : db.lastKnown = some id) (hget : db.versionInfo.get id = some info) :
    lastKnownGoodVersionInfo db = if db.versions.seq < id + 100 then some info.shown else none := by
  obtain ⟨pre, post, hentries⟩ := Bucket.entries_of_get hget
  -- the ids are the numbers from one on, so the entries after it are those above it
  obtain ⟨hpos, hlen⟩ : 0 < id ∧ id + post.length = db.versions.seq := by
    have hkeys := hdb.keys
    rw [hentries] at hkeys
    have hlen := congrArg List.length hkeys
    have hat := congrArg (fun l => l[pre.length]?) hkeys
    simp only [List.map_append, List.map_cons, List.length_append, List.length_cons,
      List.length_map, List.length_range'] at hlen
    simp only [List.map_append, List.map_cons, List.getElem?_append_right, List.length_map,
      le_refl, Nat.sub_self, List.getElem?_cons_zero] at hat
    rw [List.getElem?_range' (by omega), Option.some.injEq] at hat
    omega
  -- no newer version carries the mark
  have hpost : ∀ e ∈ post, isLastKnownGood db e.2 = false := by
    intro e he
    have hsorted := db.versionInfo.sorted
    rw [hentries] at hsorted
    have hlt : id < e.1 :=
      (List.pairwise_cons.mp (List.pairwise_append.mp hsorted).2.1).1 e he
    have hkey := hdb.ids e (hentries ▸ by simp [he])
    rw [Bool.eq_false_iff, ne_eq, isLastKnownGood_iff hpos hlast]
    omega
  have hmark : isLastKnownGood db info = true :=
    (isLastKnownGood_iff hpos hlast).mpr (hdb.ids (id, info) (hentries ▸ by simp))
  -- the list is newest first and cut at a hundred
  have hlist : ListVersions db 0 = ((post.reverse ++ (id, info) :: pre.reverse).take 100).map
      fun e => (e.2.shown, isLastKnownGood db e.2) := by
    rw [ListVersions, hentries]
    simp
  have hnone : ∀ n, ((post.reverse.take n).map fun e => (e.2.shown, isLastKnownGood db e.2)).find?
      Prod.snd = none := by
    intro n
    rw [List.find?_eq_none]
    intro x hx
    obtain ⟨e, he, rfl⟩ := List.mem_map.mp hx
    simp [hpost e (List.mem_reverse.mp (List.mem_of_mem_take he))]
  rw [lastKnownGoodVersionInfo, hlist]
  split
  · next hnear =>
      obtain ⟨k, hk⟩ : ∃ k, 100 - post.reverse.length = k + 1 :=
        ⟨99 - post.length, by rw [List.length_reverse]; omega⟩
      rw [List.take_append, hk, List.take_succ_cons, List.map_append, List.find?_append, hnone]
      simp [hmark]
  · next hfar =>
      rw [List.take_append_of_le_length (by rw [List.length_reverse]; omega), hnone]
      rfl

/-- **When the last-known-good version is found.** In every state that a run of the store reaches
and in which the pointer is set, the lookup returns the metadata of the version it names exactly
when fewer than 100 numbers were handed out after that version. -/
theorem lastKnownGood_found_iff (calls : List Call) {ev : CallEvent}
    (hev : ev ∈ storeHistory H D calls) {id : Nat} (hlast : ev.after.lastKnown = some id) :
    (∃ info, GetVersionInfo ev.after id = .ok (info, true) ∧
      lastKnownGoodVersionInfo ev.after = some info) ↔ ev.after.versions.seq < id + 100 := by
  have hdb := (infosWell_history calls ev hev).2
  have hpointers := (versionsWell_history calls ev hev).2.pointers
  obtain ⟨-, info, hget⟩ := hpointers.recorded id (hpointers.agree.trans hlast)
  have hfound := lastKnownGoodVersionInfo_eq hdb hlast hget
  have hmark : isLastKnownGood ev.after info = true :=
    (isLastKnownGood_iff (hdb.mem_keys (Bucket.mem_of_get hget)).1 hlast).mpr (hdb.ids _ (Bucket.mem_of_get hget))
  have hshown : GetVersionInfo ev.after id = .ok (info.shown, true) := by
    rw [GetVersionInfo, hget]
    exact congrArg (fun mark => Except.ok (info.shown, mark)) hmark
  rw [hfound, hshown]
  constructor
  · rintro ⟨i, hi, hsome⟩
    split at hsome
    · assumption
    · cases hsome
  · intro hnear
    exact ⟨info.shown, rfl, if_pos hnear⟩

/-- A commit on a fresh store. -/
def freshCommit : Call := ⟨.commitVersionWithIdentity {} {} [], fun _ => .zero, []⟩

/-- An apply that prepares its version and gets no further. -/
def stalledApply : Call := ⟨.preparePolicyApply {} {} [] [] [] 0 [] [], fun _ => .zero, []⟩

theorem lastKnownGood_found_fresh :
    (∃ info, GetVersionInfo (exec IdentityHash.zero sampleDigest freshCommit {}).2 1 =
        .ok (info, true) ∧
      lastKnownGoodVersionInfo (exec IdentityHash.zero sampleDigest freshCommit {}).2 = some info) ↔
      (exec IdentityHash.zero sampleDigest freshCommit {}).2.versions.seq < 1 + 100 :=
  lastKnownGood_found_iff [freshCommit]
    (List.mem_cons_self : (⟨freshCommit, {}, (exec IdentityHash.zero sampleDigest freshCommit {}).1,
      (exec IdentityHash.zero sampleDigest freshCommit {}).2⟩ : CallEvent) ∈ _) rfl

/-- A stalled apply takes the next number and leaves the pointer. -/
theorem stalledApply_step {db : DB} (h : WellLogged D db.audit) :
    WellLogged D (exec H D stalledApply db).2.audit ∧
      (exec H D stalledApply db).2.lastKnown = db.lastKnown ∧
      (exec H D stalledApply db).2.versions.seq = db.versions.seq + 1 := by
  obtain ⟨db', hruns⟩ : ∃ db', (PreparePolicyApplyWithIdentityAndApproval H D (fun _ => .zero) {} {}
      [] [] [] 0 [] []).Runs db (db.versions.seq + 1) db' := by
    have happend : ∀ {db' : DB} {e : AuditEntry}, db'.audit = db.audit →
        (appendAuditTx D .zero e).Runs db' ()
          { db' with audit := extendLog D (chainTip [] db'.audit.entries) .zero e db'.audit } :=
      fun heq => appendAuditTx_runs D (auditTipHash_ok.mpr ⟨heq ▸ h.chain, rfl⟩)
    exact ⟨_, (Tx.runs_modify Error.bolt _ db).bind ((Tx.runs_get _).bind
      ((Tx.runs_modify Error.bolt _ _).bind ((Tx.runs_modify Error.bolt _ _).bind
        ((Tx.runs_pure () _).bind ((happend (by rfl)).bind (Tx.runs_pure _ _))))))⟩
  have hreturn : (perform H D (fun _ => .zero) stalledApply.op).Runs db
      (.version (db.versions.seq + 1)) db' := hruns.bind (Tx.runs_pure _ _)
  have hexec : exec H D stalledApply db = (.ok (.version (db.versions.seq + 1)), db') :=
    hreturn.update .bolt
  have heff : Effect H D (fun _ => .zero) db stalledApply.op (.version (db.versions.seq + 1)) db' := by
    rcases exec_cases (H := H) (D := D) stalledApply db with ⟨e, he⟩ | ⟨r, db'', hr, heff⟩
    · rw [hexec] at he
      cases he
    · rw [hexec] at hr
      cases hr
      exact heff
  rw [hexec]
  refine ⟨heff.wellLogged ?_ h, (heff.frame (.inl ⟨_, _, _, _, _, _, _, _, rfl⟩)).2.1, ?_⟩
  · exact ⟨⟨by decide, by decide, by decide⟩, by decide, by decide⟩
  · rcases heff.versions with ⟨-, hne⟩ | ⟨p, heq, -⟩
    · exact (hne _ rfl).elim
    · rw [heq]
      rfl

theorem final_stalled (n : Nat) {db : DB} (h : WellLogged D db.audit) :
    WellLogged D (final (exec H D) db (List.replicate n stalledApply)).audit ∧
      (final (exec H D) db (List.replicate n stalledApply)).lastKnown = db.lastKnown ∧
      (final (exec H D) db (List.replicate n stalledApply)).versions.seq = db.versions.seq + n := by
  induction n generalizing db with
  | zero => exact ⟨h, rfl, rfl⟩
  | succ n ih =>
      obtain ⟨hlog, hlast, hseq⟩ := stalledApply_step (H := H) h
      obtain ⟨hlog', hlast', hseq'⟩ := ih hlog
      rw [List.replicate_succ, final]
      exact ⟨hlog', hlast'.trans hlast, by rw [hseq', hseq]; omega⟩

/-- After one commit and 100 stalled applies the committed version is not found. -/
theorem lastKnownGood_lost : ¬ ∀ calls, ∀ ev ∈ storeHistory IdentityHash.zero sampleDigest calls,
    ∀ id, ev.after.lastKnown = some id → ∃ info, GetVersionInfo ev.after id = .ok (info, true) ∧
      lastKnownGoodVersionInfo ev.after = some info := by
  intro h
  obtain ⟨first, hfirst⟩ : ∃ db, db = (exec IdentityHash.zero sampleDigest freshCommit {}).2 :=
    ⟨_, rfl⟩
  have hlog : WellLogged sampleDigest first.audit := hfirst ▸ wellLogged_empty
  have hlast : first.lastKnown = some 1 := hfirst ▸ rfl
  have hseq : first.versions.seq = 1 := hfirst ▸ rfl
  -- the state before the last of the stalled applies
  obtain ⟨before, hbefore⟩ : ∃ db, db = final (exec IdentityHash.zero sampleDigest) first
      (List.replicate 99 stalledApply) := ⟨_, rfl⟩
  obtain ⟨hlog', hlast', hseq'⟩ := final_stalled (H := IdentityHash.zero) 99 hlog
  rw [← hbefore] at hlog' hlast' hseq'
  obtain ⟨-, hlast'', hseq''⟩ := stalledApply_step (H := IdentityHash.zero) hlog'
  have hone := hlast''.trans (hlast'.trans hlast)
  have hev : (⟨stalledApply, before, (exec IdentityHash.zero sampleDigest stalledApply before).1,
      (exec IdentityHash.zero sampleDigest stalledApply before).2⟩ : CallEvent) ∈
        storeHistory IdentityHash.zero sampleDigest
          (freshCommit :: (List.replicate 99 stalledApply ++ [stalledApply])) := by
    rw [storeHistory, history, ← hfirst, history_append, ← hbefore]
    exact List.mem_cons_of_mem _ (List.mem_append_right _ List.mem_cons_self)
  obtain ⟨info, -, hfound⟩ := h _ _ hev 1 hone
  have hpointers := (versionsWell_history _ _ hev).2.pointers
  obtain ⟨-, info', hget⟩ := hpointers.recorded 1 (hpointers.agree.trans hone)
  rw [lastKnownGoodVersionInfo_eq (infosWell_history _ _ hev).2 hone hget,
    if_neg (by rw [hseq'', hseq', hseq]; decide)] at hfound
  cases hfound

end Phragma.Store
