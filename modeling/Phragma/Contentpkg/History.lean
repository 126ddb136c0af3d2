import Phragma.Contentpkg.Promote

/-!
# Phragma.Contentpkg.History

What the calls of `Phragma.Contentpkg.Promote` do to the packages of a kind, over whole histories.

The directory of a kind **represents a shelf** (`Represents`): the active package, and the backups
of earlier ones with the newest first. A call ends in one of five ways on the shelf
(`execCall_outcome`). Everything else is about shelves.

A rollback restores the newest backup, but backs up the package that it leaves first. So one
rollback undoes one install, and the next one undoes the rollback.
-/

namespace Phragma.Contentpkg

open Lib Go

/-! ### Shelves

A shelf is what an operator has in mind: a package in use, and what was in use before. The directory
has it in files, where the order of the backups is that of their names, and a backup counts only if
it verifies. `Represents` says when the two agree. -/

/-- The packages of a kind: the active one, and the backups, newest first. -/
structure Shelf where
  active : Package
  backups : List (String × Package)

/-- The shelf after the active package was backed up. The package stays active. -/
def Shelf.save (sh : Shelf) (name : String) : Shelf :=
  { sh with backups := (name, sh.active) :: sh.backups }

/-- The backups of a shelf, if there is one. -/
def backupsOf : Option Shelf → List (String × Package)
  | none => []
  | some sh => sh.backups

section Represents

variable (S : Std) (keys : TrustedKeyring) (kind : String)

/-- The backup directory holds the package, verifies, and has nothing in it that a copy would leave
out. -/
structure BackupOf (b : String × Tree) (e : String × Package) : Prop where
  name : b.1 = e.1
  verified : Verified S keys kind (some b.2)
  package : packageAt S (some b.2) = some e.2
  clean : b.2.clean = true

/-- The directory of the kind has the packages of the shelf, the backups in the order in which they
were made. -/
inductive Represents : Option Tree → Option Shelf → Prop
  /-- Nothing was ever installed, or what was there could not be restored. -/
  | absent : Represents none none
  | present {es bs : List (String × Tree)} {sh : Shelf}
      (verified : Verified S keys kind (some (.dir es)))
      (active : packageAt S (some (.dir es)) = some sh.active) (backups : Backups es bs)
      (held : List.Forall₂ (BackupOf S keys kind) bs sh.backups)
      (sorted : sh.backups.Pairwise fun a b => b.1 < a.1) :
      Represents (some (.dir es)) (some sh)

end Represents

section Steps

variable {S : Std} {keys : TrustedKeyring} {kind : String}

/-- Verification looks at the package alone, not at what else is in the directory. -/
theorem Verified.congr {dir dir' : Option Tree} (h : SamePackage S dir dir')
    (hv : Verified S keys kind dir) : Verified S keys kind dir' := by
  obtain ⟨st, hst, hstate⟩ := hv
  exact ⟨st, (statusFromDir_congr h keys kind).trans hst, hstate⟩

/-- A verified package is in a directory, with a manifest. -/
theorem Verified.dir {t : Tree} (hv : Verified S keys kind (some t)) :
    t.isDir = true ∧ (t.get ["manifest.json"]).isSome = true := by
  obtain ⟨st, hst, hstate⟩ := hv
  obtain ⟨raw, m, hraw, -⟩ := verified_parts hst hstate
  obtain ⟨es, hes, hmanifest, -⟩ := readManifestRaw_ok hraw
  cases hes
  rw [Tree.get_cons_of_child (t := .dir es) hmanifest]
  exact ⟨rfl, rfl⟩

/-- Every backup is a candidate. -/
theorem candidates_of_held {bs : List (String × Tree)} {backups : List (String × Package)}
    (h : List.Forall₂ (BackupOf S keys kind) bs backups) : candidates bs = backups.map Prod.fst := by
  induction h with
  | nil => rfl
  | cons hb _ ih =>
      obtain ⟨hdir, hmanifest⟩ := hb.verified.dir
      rw [candidates, List.filter_cons_of_pos (by rw [hdir, hmanifest]; rfl), List.map_cons,
        List.map_cons, hb.name, ← ih]
      rfl

/-- Names in decreasing order are sorted by turning them around. -/
theorem insertionSort_of_decreasing {names : List String} (h : names.Pairwise fun a b => b < a) :
    (names.insertionSort fun a b => a ≤ b).reverse = names := by
  have hsorted : (names.insertionSort fun a b => a ≤ b) = names.reverse := by
    refine List.Perm.eq_of_pairwise' (r := fun a b => a ≤ b) (List.pairwise_insertionSort _ _) ?_
      ((List.perm_insertionSort _ _).trans names.reverse_perm.symm)
    rw [List.pairwise_reverse]
    exact h.imp fun hab => le_of_lt hab
  rw [hsorted, List.reverse_reverse]

/-- The **newest backup** is the one that is rolled back to. -/
theorem latestVerifiedRollback_eq {es : List (String × Tree)} {sh : Shelf}
    (h : Represents S keys kind (some (.dir es)) (some sh)) :
    latestVerifiedRollback S keys kind (some (.dir es)) =
      match sh.backups with
      | [] => .error .noRollback
      | e :: _ => .ok e.1 := by
  obtain ⟨p, backups⟩ := sh
  cases h with
  | present verified active hbackups held sorted =>
      rename_i bs
      dsimp only at held sorted ⊢
      rcases hbackups with hbs | ⟨hbs, rfl⟩
      · rw [latestVerifiedRollback, hbs]
        dsimp only
        rw [candidates_of_held held, insertionSort_of_decreasing (List.pairwise_map.mpr sorted)]
        cases held with
        | nil => rfl
        | cons hb hrest =>
            rename_i b e bs' backups'
            obtain ⟨name, t⟩ := b
            have hlookup : List.lookup e.1 ((name, t) :: bs') = some t := by
              rw [← hb.name]
              exact List.lookup_cons_self
            obtain ⟨st, hst, hstate⟩ := hb.verified
            rw [List.map_cons, List.find?_cons_of_pos]
            rw [hlookup, show statusFromDir S keys kind (some t) = .ok st from hst]
            exact decide_eq_true hstate
      · cases held
        rw [latestVerifiedRollback, hbs]

/-! ### Backing up

A backup copies the active package into the directory that it is active in. Its name begins with the
time, so it comes last among the names, which is first on the shelf, as long as the clock moves
on. -/

/-- The shelf before and after the active package was backed up. -/
inductive Saved (kind : String) (now : Time) : Option Shelf → Option Shelf → Prop
  /-- There was nothing to back up. -/
  | absent : Saved kind now none none
  /-- The active package has a copy among the backups. -/
  | present (sh : Shelf) (version : String) :
      Saved kind now (some sh) (some (sh.save (backupName now kind version)))

/-- Backups that are made now are the newest. -/
def Newest (kind : String) (now : Time) (s : Option Shelf) : Prop :=
  ∀ e ∈ backupsOf s, ∀ version, e.1 < backupName now kind version

/-- A name that is newer than those of the backups is free. -/
theorem lookup_of_newest {bs : List (String × Tree)} {backups : List (String × Package)}
    (h : List.Forall₂ (BackupOf S keys kind) bs backups) {name : String}
    (hnew : ∀ e ∈ backups, e.1 < name) : bs.lookup name = none := by
  induction h with
  | nil => rfl
  | cons hb _ ih =>
      obtain ⟨he, hrest⟩ := List.forall_mem_cons.mp hnew
      rw [← hb.name] at he
      rw [List.lookup_cons, beq_eq_false_iff_ne.mpr (ne_of_gt he)]
      exact ih hrest

/-- The entry of a free name comes first. -/
theorem setEntry_of_free {name : String} {bs : List (String × Tree)} (h : bs.lookup name = none)
    (x : Tree) : Tree.setEntry name x bs = (name, x) :: bs := by
  rw [Tree.setEntry]
  congr 1
  refine List.filter_eq_self.mpr fun b hb => ?_
  have hne := List.lookup_eq_none_iff.mp h b hb
  rw [decide_eq_true_eq]
  rintro rfl
  simp at hne

/-- **Backing up** the active package is what it is on the shelf; the package stays active all
the while. -/
theorem backupCurrent_saved {now : Time} {target : Option Tree} {s : Option Shelf}
    (hr : Represents S keys kind target s) (hnew : Newest kind now s) :
    ∃ created moments s', backupCurrent S keys kind now target = (.ok created, moments) ∧
      Represents S keys kind (lastOf target (moments.map some)) s' ∧ Saved kind now s s' ∧
      ∀ t ∈ moments, SamePackage S target (some t) := by
  cases hr with
  | absent => exact ⟨none, [], none, rfl, .absent, .absent, fun t ht => by cases ht⟩
  | present verified active backups held sorted =>
      rename_i es bs sh
      obtain ⟨st, hst, hstate⟩ := verified
      have hnames : ∀ e ∈ sh.backups, e.1 < backupName now kind st.version :=
        fun e he => hnew e he st.version
      have hfree := lookup_of_newest held hnames
      -- the name is new, so nothing stands in the way of the copy
      obtain ⟨copy, moments, hbackup, hlast, hsame, hclean, -, hmoments⟩ :=
        backupCurrent_ok hst hstate backups hfree
      refine ⟨_, moments, _, hbackup, ?_, .present sh st.version, hmoments⟩
      have hrollback := samePackage_rollback S es
        (.dir (Tree.setEntry (backupName now kind st.version) copy bs))
      rw [lastOf, List.getLast?_map, hlast]
      refine .present (Verified.congr hrollback ⟨st, hst, hstate⟩)
        ((packageAt_congr hrollback).trans active) (.inl (Tree.lookup_setEntry_self _ _ _)) ?_ ?_
      -- on the shelf the copy comes first
      · rw [setEntry_of_free hfree]
        exact .cons ⟨rfl, Verified.congr hsame ⟨st, hst, hstate⟩,
          (packageAt_congr hsame).trans active, hclean⟩ held
      · exact List.pairwise_cons.mpr ⟨hnames, sorted⟩

/-! ### Staging

A package is copied next to the active one and verified there once more, before anything is done to
the active one. So a package that is not verified never comes near it. -/

/-- The error reports that the package before could not be restored. -/
def RestoreFailed : Err → Prop
  | .activate _ (some _) => True
  | _ => False

/-- Verifying restores nothing, so it does not fail to. -/
theorem statusFromDir_error {dir : Option Tree} {err : Err}
    (h : statusFromDir S keys kind dir = .error err) : ¬ RestoreFailed err := by
  unfold statusFromDir at h
  cases hexp : expectedForKind kind with
  | none =>
      rw [hexp] at h
      cases h
      exact id
  | some exp =>
      rw [hexp] at h
      dsimp only at h
      unfold loadFromManifest at h
      split at h
      · cases h
      · cases h
      · cases h
        exact id
      · dsimp only at h
        split at h <;> cases h

/-- A verified package is staged as that package. -/
theorem stage_ok {targetAbs : String} {source : Source} (hv : Verified S keys kind source.tree)
    (habs : source.abs ≠ targetAbs) :
    ∃ staging, stage S keys kind targetAbs source = .ok staging ∧
      SamePackage S source.tree (some staging) ∧ staging.isDir = true ∧
      staging.get [".rollback"] = none := by
  obtain ⟨st, hst, hstate⟩ := hv
  have hnot : ¬ st.state ≠ .verified := fun h => h hstate
  obtain ⟨raw, m, hraw, hread, hm, hfiles⟩ := verified_parts hst hstate
  obtain ⟨copies, staging, hcopies, hlast, hsame, -, hdir, hnone⟩ := copyPackageFiles_ok hraw hm hfiles
  refine ⟨staging, ?_, hsame, hdir, hnone⟩
  rw [stage, hst]
  dsimp only
  rw [if_neg hnot, if_neg habs, hread]
  dsimp only
  rw [hcopies]
  dsimp only
  rw [hlast, Option.getD_some, statusFromDir_congr hsame, hst]
  exact if_neg hnot

/-- **Staging** either fails without having touched anything, or has made a copy of a verified
package from another place. -/
theorem stage_cases (S : Std) (keys : TrustedKeyring) (kind targetAbs : String) (source : Source) :
    (∃ err, stage S keys kind targetAbs source = .error err ∧ ¬ RestoreFailed err) ∨
      Verified S keys kind source.tree ∧ ∃ staging,
        stage S keys kind targetAbs source = .ok staging ∧
        SamePackage S source.tree (some staging) ∧ staging.isDir = true ∧
        staging.get [".rollback"] = none := by
  cases hst : statusFromDir S keys kind source.tree with
  | error err =>
      refine .inl ⟨err, ?_, statusFromDir_error hst⟩
      rw [stage, hst]
  | ok st =>
      by_cases hstate : st.state = .verified
      · by_cases habs : source.abs = targetAbs
        · refine .inl ⟨.invalidPackage "source already matches installed package", ?_, id⟩
          rw [stage, hst]
          dsimp only
          rw [if_neg (fun h => h hstate), if_pos habs]
        · exact .inr ⟨⟨st, hst, hstate⟩, stage_ok ⟨st, hst, hstate⟩ habs⟩
      · refine .inl ⟨notVerified (kind ++ " package") st, ?_, id⟩
        rw [stage, hst]
        exact if_pos hstate

/-! ### Putting a package in place

Two renames: the directory is set aside, and the staged one takes its place. If the second fails,
the first is undone; only if that fails as well, the kind is left without a package. -/

/-- The directory shows nothing, or the active package of the shelf. -/
def Shows (S : Std) (keys : TrustedKeyring) (kind : String) (s : Option Shelf)
    (t : Option Tree) : Prop :=
  t = none ∨ Verified S keys kind t ∧ ∃ sh, s = some sh ∧ packageAt S t = some sh.active

/-- A directory that represents the shelf shows its active package. -/
theorem Represents.shows {target : Option Tree} {s : Option Shelf}
    (hr : Represents S keys kind target s) : Shows S keys kind s target := by
  cases hr with
  | absent => exact .inl rfl
  | present verified active _ _ _ => exact .inr ⟨verified, _, rfl, active⟩

/-- What is shown depends on the package alone. -/
theorem Shows.congr {t t' : Option Tree} {s : Option Shelf} (h : SamePackage S t t')
    (ht : t ≠ none) (hs : Shows S keys kind s t) : Shows S keys kind s t' := by
  rcases hs with hnone | ⟨hv, sh, hsh, hp⟩
  · exact absurd hnone ht
  · exact .inr ⟨hv.congr h, sh, hsh, (packageAt_congr h).trans hp⟩

/-- The last of two stretches of moments. -/
theorem lastOf_append (target : Option Tree) (a b : List (Option Tree)) :
    lastOf target (a ++ b) = lastOf (lastOf target a) b := by
  rw [lastOf, lastOf, lastOf, List.getLast?_append]
  cases b.getLast? <;> rfl

/-- The backups of a shelf can be copied, all of them. -/
theorem cleanEntries_of_held {bs : List (String × Tree)} {backups : List (String × Package)}
    (h : List.Forall₂ (BackupOf S keys kind) bs backups) : Tree.cleanEntries bs = true := by
  induction h with
  | nil => rfl
  | cons hb _ ih => rw [Tree.cleanEntries, hb.clean, ih]; rfl

/-- The staged package is given **the backups of the shelf**. -/
theorem copyRollbackBackups_ok {target : Option Tree} {s : Option Shelf}
    (hr : Represents S keys kind target s) {staging : Tree} {p : Package}
    (hv : Verified S keys kind (some staging)) (hp : packageAt S (some staging) = some p)
    (hnone : staging.get [".rollback"] = none) :
    ∃ next, copyRollbackBackups target staging = .ok next ∧
      Represents S keys kind (some next) (some ⟨p, backupsOf s⟩) := by
  obtain ⟨hdir, -⟩ := hv.dir
  cases staging with
  | file b => cases hdir
  | other => cases hdir
  | dir ss =>
      have hfree : ss.lookup ".rollback" = none := by
        cases h : ss.lookup ".rollback" with
        | none => rfl
        | some c =>
            rw [Tree.get_cons_of_child (t := .dir ss) h] at hnone
            cases hnone
      cases hr with
      | absent => exact ⟨.dir ss, rfl, .present hv hp (.inr ⟨hfree, rfl⟩) .nil .nil⟩
      | present verified active backups held sorted =>
          rename_i es bs sh
          rcases backups with hbs | ⟨hbs, rfl⟩
          · have hcopy : copyTree (.dir bs) none = .ok (.dir bs) :=
              copyTree_clean (t := .dir bs) (cleanEntries_of_held held)
            have hsame := samePackage_rollback S ss (.dir bs)
            refine ⟨.dir (Tree.setEntry ".rollback" (.dir bs) ss), ?_, .present (hv.congr hsame)
              ((packageAt_congr hsame).trans hp) (.inl (Tree.lookup_setEntry_self _ _ _)) held
              sorted⟩
            rw [copyRollbackBackups, hbs]
            dsimp only
            rw [hnone, hcopy]
            dsimp only
            rw [Tree.update, hfree]
            rfl
          · refine ⟨.dir ss, ?_, .present hv hp (.inr ⟨hfree, rfl⟩) held sorted⟩
            rw [copyRollbackBackups, hbs]

/-- Both renames that put a package in place succeed. -/
def Renames.Succeed (renames : Renames) : Prop := renames.aside = .ok () ∧ renames.activate = .ok ()

/-- How the shelf ends when a package is put in place. -/
inductive Replaced (s : Option Shelf) (p : Package) : Except Err Unit → Option Shelf → Prop
  /-- The package is active, with the backups of the one before. -/
  | done : Replaced s p (.ok ()) (some ⟨p, backupsOf s⟩)
  /-- It failed, and the one before is active as it was. -/
  | kept {err : Err} (h : ¬ RestoreFailed err) : Replaced s p (.error err) s
  /-- It failed, and nothing is active. -/
  | lost {err : Err} (h : RestoreFailed err) : Replaced s p (.error err) none

/-- **Putting a package in place** is all or nothing, unless what was there cannot be restored. -/
theorem replacePackage_replaced {target : Option Tree} {s : Option Shelf}
    (hr : Represents S keys kind target s) {staging : Tree} {p : Package}
    (hv : Verified S keys kind (some staging)) (hp : packageAt S (some staging) = some p)
    (hnone : staging.get [".rollback"] = none) (renames : Renames) :
    ∃ r moments s', replacePackage renames target staging = (r, moments) ∧
      Represents S keys kind (lastOf target moments) s' ∧ Replaced s p r s' ∧
      (renames.Succeed → r = .ok ()) ∧
      ∀ t ∈ moments, Shows S keys kind s t ∨ Shows S keys kind s' t := by
  obtain ⟨next, hnext, hrnext⟩ := copyRollbackBackups_ok hr hv hp hnone
  obtain ⟨aside, activate, restore⟩ := renames
  rw [replacePackage, hnext]
  dsimp only
  -- with no package at the target there is one rename, else two
  cases hr with
  -- nothing to set aside
  | absent =>
      rw [swapPackageDir]
      dsimp only
      cases activate with
      | error err =>
          exact ⟨_, _, none, rfl, .absent, .kept id, (fun h => by cases h.2), fun t ht => by cases ht⟩
      | ok _ =>
          refine ⟨_, _, _, rfl, hrnext, .done, fun _ => rfl, fun t ht => ?_⟩
          obtain rfl := List.mem_singleton.mp ht
          exact .inr hrnext.shows
  | present verified active backups held sorted =>
      rename_i es bs sh
      have hr : Represents S keys kind (some (.dir es)) (some sh) :=
        .present verified active backups held sorted
      rw [swapPackageDir]
      dsimp only
      -- the old package is set aside, and for a moment nothing stands at the target
      cases aside with
      | error err =>
          exact ⟨_, _, _, rfl, hr, .kept id, (fun h => by cases h.1), fun t ht => by cases ht⟩
      | ok _ =>
          dsimp only
          cases activate with
          | ok _ =>
              refine ⟨_, _, _, rfl, hrnext, .done, fun _ => rfl, fun t ht => ?_⟩
              simp only [List.mem_cons, List.not_mem_nil, or_false] at ht
              rcases ht with rfl | rfl
              · exact .inl (.inl rfl)
              · exact .inr hrnext.shows
          | error err =>
              -- the new one could not be put in its place: the old one comes back, or is lost
              cases restore with
              | ok _ =>
                  refine ⟨_, _, _, rfl, hr, .kept id, (fun h => by cases h.2), fun t ht => ?_⟩
                  simp only [List.mem_cons, List.not_mem_nil, or_false] at ht
                  rcases ht with rfl | rfl
                  · exact .inl (.inl rfl)
                  · exact .inl hr.shows
              | error restoreErr =>
                  refine ⟨_, _, _, rfl, .absent, .lost trivial, (fun h => by cases h.2),
                    fun t ht => ?_⟩
                  obtain rfl := List.mem_singleton.mp ht
                  exact .inl (.inl rfl)

/-- Backing up shows nothing new. -/
theorem Saved.shows {now : Time} {s s' : Option Shelf} (h : Saved kind now s s')
    {t : Option Tree} (ht : Shows S keys kind s' t) : Shows S keys kind s t := by
  cases h with
  | absent => exact ht
  | present sh version =>
      rcases ht with ht | ⟨hv, sh', hsh, hp⟩
      · exact .inl ht
      · cases hsh
        exact .inr ⟨hv, sh, rfl, hp⟩

/-- At no moment of a backup anything else than the active package is shown. -/
theorem shows_of_saving {target : Option Tree} {s : Option Shelf} {moments : List Tree}
    (hr : Represents S keys kind target s) {result : Except Err (Option String)} {now : Time}
    (hbackup : backupCurrent S keys kind now target = (result, moments))
    (hsame : ∀ t ∈ moments, SamePackage S target (some t)) :
    ∀ t ∈ moments.map some, Shows S keys kind s t := by
  intro t ht
  obtain ⟨u, hu, rfl⟩ := List.mem_map.mp ht
  cases target with
  | none =>
      rw [backupCurrent] at hbackup
      cases hbackup
      cases hu
  | some v => exact hr.shows.congr (hsame u hu) (Option.some_ne_none v)

/-- **Promotion** of a package, with the backup of the active one. It is refused before anything is
done (first case), or everything that follows is on the shelf: saved, and then replaced or not.
Every moment shows the package before or the one after. -/
theorem promote_backup {target : Option Tree} {s : Option Shelf} {now : Time}
    (hr : Represents S keys kind target s) (hnew : Newest kind now s) (targetAbs : String)
    (source : Source) (renames : Renames) :
    (∃ err, promote S keys kind targetAbs source true now renames target = (.error err, []) ∧
      ¬ RestoreFailed err ∧ ¬ (Verified S keys kind source.tree ∧ source.abs ≠ targetAbs)) ∨
    ∃ p created moments r s' s'', Verified S keys kind source.tree ∧
      packageAt S source.tree = some p ∧ Saved kind now s s' ∧ Replaced s' p r s'' ∧
      promote S keys kind targetAbs source true now renames target =
        (r.map fun _ => created, moments) ∧
      Represents S keys kind (lastOf target moments) s'' ∧ (renames.Succeed → r = .ok ()) ∧
      ∀ t ∈ moments, Shows S keys kind s t ∨ Shows S keys kind s'' t := by
  rcases stage_cases S keys kind targetAbs source with
    ⟨err, herr, hne⟩ | ⟨hv, staging, hstage, hsame, -, hnone⟩
  · refine .inl ⟨err, by rw [promote, herr], hne, fun ⟨hv, habs⟩ => ?_⟩
    obtain ⟨staging, hstage, -⟩ := stage_ok hv habs
    cases herr.symm.trans hstage
  · obtain ⟨p, hp⟩ := packageAt_of_verified hv
    obtain ⟨created, saving, s', hbackup, hr', hsaved, hsaving⟩ := backupCurrent_saved hr hnew
    obtain ⟨r, moments, s'', hreplace, hr'', hreplaced, hok, hmoments⟩ :=
      replacePackage_replaced hr' (hv.congr hsame) ((packageAt_congr hsame).trans hp) hnone renames
    refine .inr ⟨p, created, saving.map some ++ moments, r, s', s'', hv, hp, hsaved, hreplaced, ?_,
      by rwa [lastOf_append], hok, fun t ht => ?_⟩
    -- the moments of the backup come before those of the replacement
    · rw [promote, hstage]
      dsimp only
      rw [if_pos rfl, hbackup]
      dsimp only
      rw [hreplace]
    · rcases List.mem_append.mp ht with ht | ht
      · exact .inl (shows_of_saving hr hbackup hsaving t ht)
      · exact (hmoments t ht).imp_left hsaved.shows

/-- Promotion of a verified package, where the active one has been backed up already. -/
theorem promote_plain {target : Option Tree} {s : Option Shelf}
    (hr : Represents S keys kind target s) {targetAbs : String} {source : Source}
    (hv : Verified S keys kind source.tree) (habs : source.abs ≠ targetAbs) {p : Package}
    (hp : packageAt S source.tree = some p) (now : Time) (renames : Renames) :
    ∃ r moments s', promote S keys kind targetAbs source false now renames target =
        (r.map fun _ => none, moments) ∧
      Represents S keys kind (lastOf target moments) s' ∧ Replaced s p r s' ∧
      (renames.Succeed → r = .ok ()) ∧
      ∀ t ∈ moments, Shows S keys kind s t ∨ Shows S keys kind s' t := by
  obtain ⟨staging, hstage, hsame, -, hnone⟩ := stage_ok hv habs
  obtain ⟨r, moments, s', hreplace, hr', hreplaced, hok, hmoments⟩ :=
    replacePackage_replaced hr (hv.congr hsame) ((packageAt_congr hsame).trans hp) hnone renames
  refine ⟨r, moments, s', ?_, hr', hreplaced, hok, hmoments⟩
  rw [promote, hstage]
  dsimp only
  rw [if_neg Bool.false_ne_true, hreplace]

/-- No two backups have one name, so each is found under its own. -/
theorem lookup_of_held {bs : List (String × Tree)} {backups : List (String × Package)}
    (h : List.Forall₂ (BackupOf S keys kind) bs backups)
    (hsorted : backups.Pairwise fun a b => b.1 < a.1) {e : String × Package} (he : e ∈ backups) :
    ∃ t, bs.lookup e.1 = some t ∧ BackupOf S keys kind (e.1, t) e := by
  induction h with
  | nil => cases he
  | cons hb _ ih =>
      rename_i b f bs backups _
      obtain ⟨hf, hsorted⟩ := List.pairwise_cons.mp hsorted
      obtain ⟨name, t⟩ := b
      obtain rfl : name = f.1 := hb.name
      rcases List.mem_cons.mp he with rfl | he
      · exact ⟨t, List.lookup_cons_self, hb⟩
      · rw [List.lookup_cons, beq_eq_false_iff_ne.mpr (ne_of_lt (hf e he))]
        exact ih hsorted he

/-- A backup of the shelf stands under its name. -/
theorem Represents.backup {target : Option Tree} {sh : Shelf}
    (hr : Represents S keys kind target (some sh)) {e : String × Package} (he : e ∈ sh.backups) :
    ∃ t, target.bind (Lib.Tree.get [".rollback", e.1]) = some t ∧ Verified S keys kind (some t) ∧
      packageAt S (some t) = some e.2 := by
  cases hr with
  | present verified active backups held sorted =>
      rename_i es bs
      obtain ⟨t, hlookup, hb⟩ := lookup_of_held held sorted he
      refine ⟨t, ?_, hb.verified, hb.package⟩
      rcases backups with hbs | ⟨-, rfl⟩
      · rw [Option.bind_some, Tree.get_cons_of_child (t := .dir es) hbs,
          Tree.get_cons_of_child (t := .dir bs) hlookup]
        rfl
      · cases hlookup

/-! ### Calls

Install and rollback are promotions: of a package from elsewhere, and of the newest backup. -/

/-- The time of a call. -/
def Call.now : Call → Time
  | .install _ now _ => now
  | .rollback now _ => now

/-- How the renames of a call end. -/
def Call.renames : Call → Renames
  | .install _ _ renames => renames
  | .rollback _ renames => renames

/-- The call installs the package from where it is verified. -/
def Call.Installs (S : Std) (keys : TrustedKeyring) (kind : String) (call : Call) (p : Package) :
    Prop :=
  ∃ source now renames, call = .install source now renames ∧
    Verified S keys kind source.tree ∧ packageAt S source.tree = some p

/-- The call is a rollback. -/
def Call.IsRollback (call : Call) : Prop := ∃ now renames, call = .rollback now renames

/-- What a call returns, and how the shelf is before and after. -/
inductive Outcome (S : Std) (keys : TrustedKeyring) (kind : String) (call : Call) :
    Option Shelf → Except Err ActionResult → Option Shelf → Prop
  /-- The call fails before it has done anything to the shelf. -/
  | refused {s : Option Shelf} {err : Err} (h : ¬ RestoreFailed err) :
      Outcome S keys kind call s (.error err) s
  /-- The call fails, but has backed up the active package. -/
  | saved {s s' : Option Shelf} {err : Err} (h : ¬ RestoreFailed err)
      (hs : Saved kind call.now s s') : Outcome S keys kind call s (.error err) s'
  /-- The call fails and could not restore what was there. It says so. -/
  | lost {s : Option Shelf} {err : Err} (h : RestoreFailed err) :
      Outcome S keys kind call s (.error err) none
  /-- The package is installed, and the one before is the newest backup. -/
  | installed {s s' : Option Shelf} {p : Package} {r : ActionResult}
      (h : call.Installs S keys kind p) (hs : Saved kind call.now s s') :
      Outcome S keys kind call s (.ok r) (some ⟨p, backupsOf s'⟩)
  /-- The newest backup is active again, and the package that it replaces is backed up too. -/
  | rolledBack {sh : Shelf} {s' : Option Shelf} {e : String × Package}
      {rest : List (String × Package)} {r : ActionResult} (h : call.IsRollback)
      (hsh : sh.backups = e :: rest) (hs : Saved kind call.now (some sh) s') :
      Outcome S keys kind call (some sh) (.ok r) (some ⟨e.2, backupsOf s'⟩)

/-- The status of what stands there after a package was put in place. -/
theorem Represents.status {target : Option Tree} {sh : Shelf}
    (hr : Represents S keys kind target (some sh)) :
    ∃ st, statusFromDir S keys kind target = .ok st ∧ st.state = .verified := by
  cases hr with
  | present verified _ _ _ _ => exact verified

/-- An install is refused before anything is done, or is a promotion. -/
theorem install_cases (S : Std) (keys : TrustedKeyring) (kind targetAbs : String)
    (source : Source) (now : Time) (renames : Renames) (target : Option Tree) :
    (∃ err, Install S keys kind targetAbs source now renames target = (.error err, []) ∧
      ¬ RestoreFailed err ∧
      ¬ (trimSpace source.dir ≠ "" ∧ Verified S keys kind source.tree)) ∨
    Install S keys kind targetAbs source now renames target =
      match promote S keys kind targetAbs source true now renames target with
      | (.error err, moments) => (.error err, moments)
      | (.ok created, moments) =>
          match statusFromDir S keys kind (lastOf target moments) with
          | .error err => (.error err, moments)
          | .ok current => (.ok ⟨current, created, none⟩, moments) := by
  by_cases hblank : trimSpace source.dir = ""
  · exact .inl ⟨.invalidPackage "source path is required", by rw [Install, if_pos hblank], id,
      fun h => h.1 hblank⟩
  · cases hexp : expectedForKind kind with
    | none =>
        refine .inl ⟨.invalidKind kind, by rw [Install, if_neg hblank, hexp], id, ?_⟩
        rintro ⟨-, st, hst, -⟩
        rw [statusFromDir, hexp] at hst
        cases hst
    | some exp =>
        have hstatus : statusFromDir S keys kind source.tree =
            loadFromManifest S keys exp source.tree := by
          rw [statusFromDir, hexp]
        -- the source is checked before anything is written
        cases hst : loadFromManifest S keys exp source.tree with
        | error err =>
            refine .inl ⟨err, ?_, statusFromDir_error (hstatus.trans hst), ?_⟩
            · rw [Install, if_neg hblank, hexp]
              dsimp only
              rw [hst]
            · rintro ⟨-, st, hok, -⟩
              cases (hstatus.trans hst).symm.trans hok
        | ok st =>
            by_cases hstate : st.state = .verified
            · -- a verified source: what is left is the promotion and a look at the target
              refine .inr ?_
              rw [Install, if_neg hblank, hexp]
              dsimp only
              rw [hst]
              refine (if_neg (not_not_intro hstate)).trans ?_
              obtain ⟨err | created, moments⟩ :=
                promote S keys kind targetAbs source true now renames target
              · rfl
              · cases hlast : statusFromDir S keys kind (lastOf target moments) with
                | error err => simp only [hlast]
                | ok current => simp only [hlast]
            · refine .inl ⟨notVerified (kind ++ " package") st, ?_, id, ?_⟩
              · rw [Install, if_neg hblank, hexp]
                dsimp only
                rw [hst]
                exact if_pos hstate
              · rintro ⟨-, st', hok, hstate'⟩
                cases (hstatus.trans hst).symm.trans hok
                exact hstate hstate'

/-- A call that nothing stands in the way of. -/
def Call.Ready (S : Std) (keys : TrustedKeyring) (kind targetAbs : String) (s : Option Shelf) :
    Call → Prop
  | .install source _ renames => trimSpace source.dir ≠ "" ∧ Verified S keys kind source.tree ∧
      source.abs ≠ targetAbs ∧ renames.Succeed
  | .rollback _ renames => backupsOf s ≠ [] ∧ renames.Succeed

/-- **Install** on the shelf. -/
theorem install_outcome {target : Option Tree} {s : Option Shelf} {now : Time}
    (hr : Represents S keys kind target s) (hnew : Newest kind now s) (targetAbs : String)
    (source : Source) (renames : Renames) :
    ∃ r moments s', Install S keys kind targetAbs source now renames target = (r, moments) ∧
      Represents S keys kind (lastOf target moments) s' ∧
      Outcome S keys kind (.install source now renames) s r s' ∧
      (Call.Ready S keys kind targetAbs s (.install source now renames) → ∃ a, r = .ok a) ∧
      ∀ t ∈ moments, Shows S keys kind s t ∨ Shows S keys kind s' t := by
  rcases install_cases S keys kind targetAbs source now renames target with
    ⟨err, heq, hne, hnot⟩ | heq
  · exact ⟨.error err, [], s, heq, hr, .refused hne, (fun h => absurd ⟨h.1, h.2.1⟩ hnot),
      fun t ht => by cases ht⟩
  · rcases promote_backup hr hnew targetAbs source renames with ⟨err, hpromote, hne, hnot⟩ |
      ⟨p, created, moments, r, s', s'', hv, hp, hsaved, hreplaced, hpromote, hr'', hok, hmoments⟩
    · exact ⟨.error err, [], s, by rw [heq, hpromote], hr, .refused hne,
        (fun h => absurd ⟨h.2.1, h.2.2.1⟩ hnot), fun t ht => by cases ht⟩
    · rw [heq, hpromote]
      cases hreplaced with
      | done =>
          obtain ⟨current, hcurrent, -⟩ := hr''.status
          refine ⟨.ok ⟨current, created, none⟩, moments, _, ?_, hr'',
            .installed ⟨source, now, renames, rfl, hv, hp⟩ hsaved, fun _ => ⟨_, rfl⟩, hmoments⟩
          dsimp only [Except.map]
          rw [hcurrent]
      | kept h =>
          refine ⟨_, moments, _, rfl, hr'', .saved h hsaved, fun hready => ?_, hmoments⟩
          cases hok hready.2.2.2
      | lost h =>
          refine ⟨_, moments, _, rfl, hr'', .lost h, fun hready => ?_, hmoments⟩
          cases hok hready.2.2.2

/-- A backup is no promotion of a directory onto itself: it lies deeper. -/
theorem backupSource_abs (targetAbs selected : String) (target : Option Tree) :
    (backupSource targetAbs selected target).abs ≠ targetAbs := by
  intro h
  have hlen := congrArg (fun s : String => s.toList.length) h
  have hslash : ("/.rollback/" : String).toList.length = 11 := by decide
  simp only [backupSource, String.toList_append, List.length_append, hslash] at hlen
  omega

/-- **A rollback** on the shelf. It succeeds if there is a backup and the renames succeed. -/
theorem rollback_outcome {target : Option Tree} {s : Option Shelf} {now : Time}
    (hr : Represents S keys kind target s) (hnew : Newest kind now s) (targetAbs : String)
    (renames : Renames) :
    ∃ r moments s', RollbackPackage S keys kind targetAbs now renames target = (r, moments) ∧
      Represents S keys kind (lastOf target moments) s' ∧
      Outcome S keys kind (.rollback now renames) s r s' ∧
      (Call.Ready S keys kind targetAbs s (.rollback now renames) → ∃ a, r = .ok a) ∧
      ∀ t ∈ moments, Shows S keys kind s t ∨ Shows S keys kind s' t := by
  cases s with
  | none =>
      cases hr
      rw [RollbackPackage]
      cases expectedForKind kind <;> exact ⟨_, _, none, rfl, .absent, .refused id,
        (fun h => absurd rfl h.1), fun t ht => by cases ht⟩
  | some sh =>
      obtain ⟨st, hst, -⟩ := hr.status
      obtain ⟨exp, hexp, -⟩ := statusFromDir_ok hst
      rw [RollbackPackage, hexp]
      dsimp only
      obtain ⟨p, backups⟩ := sh
      cases backups with
      | nil =>
          have hlatest : latestVerifiedRollback S keys kind target = .error .noRollback := by
            cases hr with
            | present verified active backups held sorted =>
                exact latestVerifiedRollback_eq (.present verified active backups held sorted)
          rw [hlatest]
          exact ⟨_, _, _, rfl, hr, .refused id, (fun h => absurd rfl h.1), fun t ht => by cases ht⟩
      | cons e rest =>
          have hlatest : latestVerifiedRollback S keys kind target = .ok e.1 := by
            cases hr with
            | present verified active backups held sorted =>
                exact latestVerifiedRollback_eq (.present verified active backups held sorted)
          obtain ⟨t, ht, ⟨st, hst, hstate⟩, -⟩ := hr.backup (e := e) List.mem_cons_self
          obtain ⟨created, saving, s', hbackup, hr', hsaved, hsaving⟩ := backupCurrent_saved hr hnew
          -- the backup is still there
          obtain ⟨u, hu, huv, hup⟩ : ∃ u,
              (lastOf target (saving.map some)).bind (Lib.Tree.get [".rollback", e.1]) = some u ∧
              Verified S keys kind (some u) ∧ packageAt S (some u) = some e.2 := by
            cases hsaved with
            | present sh version =>
                exact hr'.backup (List.mem_cons_of_mem _ List.mem_cons_self)
          have hsource : (backupSource targetAbs e.1 (lastOf target (saving.map some))).tree =
              some u := hu
          obtain ⟨r, moments, s'', hpromote, hr'', hreplaced, hok, hmoments⟩ :=
            promote_plain hr' (by rw [hsource]; exact huv)
              (backupSource_abs targetAbs e.1 (lastOf target (saving.map some)))
              (p := e.2) (by rw [hsource]; exact hup) now renames
          have hshows : ∀ t ∈ saving.map some ++ moments,
              Shows S keys kind (some ⟨p, e :: rest⟩) t ∨ Shows S keys kind s'' t := by
            intro t ht
            rcases List.mem_append.mp ht with ht | ht
            · exact .inl (shows_of_saving hr hbackup hsaving t ht)
            · exact (hmoments t ht).imp_left hsaved.shows
          have hselected : (backupSource targetAbs e.1 target).tree = some t := ht
          rw [hlatest]
          dsimp only
          rw [hselected, hst]
          dsimp only
          rw [if_neg (fun h => h hstate), hbackup]
          dsimp only
          rw [hpromote]
          have hlast : lastOf target (saving.map some ++ moments) =
              lastOf (lastOf target (saving.map some)) moments := lastOf_append _ _ _
          cases hreplaced with
          | done =>
              obtain ⟨current, hcurrent, -⟩ := hr''.status
              refine ⟨.ok ⟨current, created, some e.1⟩, saving.map some ++ moments, _, ?_,
                by rwa [hlast], .rolledBack ⟨now, renames, rfl⟩ rfl hsaved,
                fun _ => ⟨_, rfl⟩, hshows⟩
              dsimp only [Except.map]
              rw [hcurrent]
          | kept h =>
              refine ⟨_, saving.map some ++ moments, _, rfl, by rwa [hlast], .saved h hsaved,
                fun hready => ?_, hshows⟩
              cases hok hready.2
          | lost h =>
              refine ⟨_, saving.map some ++ moments, _, rfl, by rwa [hlast], .lost h,
                fun hready => ?_, hshows⟩
              cases hok hready.2

/-- **A call** on the shelf. -/
theorem execCall_outcome {target : Option Tree} {s : Option Shelf} {call : Call}
    (hr : Represents S keys kind target s) (hnew : Newest kind call.now s) (targetAbs : String) :
    ∃ s', Represents S keys kind (execCall S keys kind targetAbs call target).2 s' ∧
      Outcome S keys kind call s (execCall S keys kind targetAbs call target).1.1 s' ∧
      (call.Ready S keys kind targetAbs s →
        ∃ a, (execCall S keys kind targetAbs call target).1.1 = .ok a) ∧
      ∀ t ∈ (execCall S keys kind targetAbs call target).1.2,
        Shows S keys kind s t ∨ Shows S keys kind s' t := by
  cases call with
  | install source now renames =>
      have hnew : Newest kind now s := hnew
      obtain ⟨r, moments, s', heq, hr', hout, hok, hmoments⟩ :=
        install_outcome hr hnew targetAbs source renames
      have hexec : execCall S keys kind targetAbs (.install source now renames) target =
          ((r, moments), lastOf target moments) := by
        rw [execCall, heq]
      rw [hexec]
      exact ⟨s', hr', hout, hok, hmoments⟩
  | rollback now renames =>
      have hnew : Newest kind now s := hnew
      obtain ⟨r, moments, s', heq, hr', hout, hok, hmoments⟩ :=
        rollback_outcome hr hnew targetAbs renames
      have hexec : execCall S keys kind targetAbs (.rollback now renames) target =
          ((r, moments), lastOf target moments) := by
        rw [execCall, heq]
      rw [hexec]
      exact ⟨s', hr', hout, hok, hmoments⟩

end Steps

/-! ### Histories

A history starts without a package. By induction over its calls the directory represents a shelf
throughout, and whatever is on the shelf was installed by one of the calls (`Reached`,
`reached_run`). The names of new backups come last because the clock moves on (`Increasing`), which
is what `Newest` asks of each call. -/

/-- Of two times with stamps in order, the backups are in order. -/
theorem append_lt_append {l m : List Char} (h : l < m) (hlen : l.length = m.length)
    (x y : List Char) : l ++ x < m ++ y := by
  induction l generalizing m with
  | nil =>
      cases m with
      | nil => exact absurd h (lt_irrefl _)
      | cons b m => cases hlen
  | cons a l ih =>
      cases m with
      | nil => cases hlen
      | cons b m =>
          rw [List.cons_append, List.cons_append, List.cons_lt_cons_iff]
          rcases List.cons_lt_cons_iff.mp h with hab | ⟨rfl, hlm⟩
          · exact .inl hab
          · exact .inr ⟨rfl, ih hlm (Nat.succ.inj hlen)⟩

/-- All stamps have one length, so they compare as the times do. -/
theorem length_stamp (t : Time) : (stamp t).length = 26 := by
  simp [stamp]

/-- Later backups have greater names, whatever their kind and version. -/
theorem backupName_lt {a b : Time} (h : stamp a < stamp b) (kind v w : String) :
    backupName a kind v < backupName b kind w := by
  rw [String.lt_iff_toList_lt, backupName, backupName, String.toList_ofList, String.toList_ofList]
  exact append_lt_append h ((length_stamp a).trans (length_stamp b).symm) _ _

/-- The clock moves on from call to call. -/
def Increasing (calls : List Call) : Prop :=
  calls.Pairwise fun a b => stamp a.now < stamp b.now

section Runs

variable {S : Std} {keys : TrustedKeyring} {kind targetAbs : String}

/-- Where everything on the shelf comes from. -/
structure Accounted (S : Std) (keys : TrustedKeyring) (kind : String) (done : List Call)
    (sh : Shelf) : Prop where
  active : ∃ c ∈ done, c.Installs S keys kind sh.active
  backups : ∀ e ∈ sh.backups, ∃ c ∈ done, c.Installs S keys kind e.2
  named : ∀ e ∈ sh.backups, ∃ c ∈ done, ∃ version, e.1 = backupName c.now kind version

/-- More calls do not take anything away. -/
theorem Accounted.mono {done : List Call} {sh : Shelf} (h : Accounted S keys kind done sh)
    (later : List Call) : Accounted S keys kind (done ++ later) sh := by
  refine ⟨?_, fun e he => ?_, fun e he => ?_⟩
  · obtain ⟨c, hc, hp⟩ := h.active
    exact ⟨c, List.mem_append_left _ hc, hp⟩
  · obtain ⟨c, hc, hp⟩ := h.backups e he
    exact ⟨c, List.mem_append_left _ hc, hp⟩
  · obtain ⟨c, hc, hn⟩ := h.named e he
    exact ⟨c, List.mem_append_left _ hc, hn⟩

/-- What is saved is accounted for. -/
theorem Accounted.saved {done : List Call} {call : Call} {s s' : Option Shelf}
    (h : ∀ sh, s = some sh → Accounted S keys kind done sh) (hs : Saved kind call.now s s') :
    ∀ sh, s' = some sh → Accounted S keys kind (done ++ [call]) sh := by
  cases hs with
  | absent => exact fun sh hsh => by cases hsh
  | present sh version =>
      intro sh' hsh'
      cases hsh'
      have hold := (h sh rfl).mono [call]
      refine ⟨hold.active, List.forall_mem_cons.mpr ⟨hold.active, hold.backups⟩,
        List.forall_mem_cons.mpr ⟨⟨call, ?_, version, rfl⟩, hold.named⟩⟩
      exact List.mem_append_right _ List.mem_cons_self

/-- A call keeps the shelf accounted for. -/
theorem Accounted.outcome {done : List Call} {call : Call} {s s' : Option Shelf}
    {r : Except Err ActionResult} (h : ∀ sh, s = some sh → Accounted S keys kind done sh)
    (hout : Outcome S keys kind call s r s') :
    ∀ sh, s' = some sh → Accounted S keys kind (done ++ [call]) sh := by
  have hnow : call ∈ done ++ [call] := List.mem_append_right _ List.mem_cons_self
  -- another package in front of the saved shelf
  have hfront : ∀ {t t' : Option Shelf} {p : Package}, t = s → Saved kind call.now t t' →
      (∃ c ∈ done ++ [call], c.Installs S keys kind p) →
      Accounted S keys kind (done ++ [call]) ⟨p, backupsOf t'⟩ := by
    rintro t t' p rfl hs hp
    have hsaved := Accounted.saved h hs
    cases t' with
    | none => exact ⟨hp, (fun e he => by cases he), fun e he => by cases he⟩
    | some sh => exact ⟨hp, (hsaved sh rfl).backups, (hsaved sh rfl).named⟩
  cases hout with
  | refused _ => exact fun sh hsh => (h sh hsh).mono [call]
  | saved _ hs => exact Accounted.saved h hs
  | lost _ => exact fun sh hsh => by cases hsh
  | installed hp hs =>
      intro sh hsh
      cases hsh
      exact hfront rfl hs ⟨call, hnow, hp⟩
  | rolledBack _ hsh hs =>
      intro sh' hsh'
      cases hsh'
      obtain ⟨c, hc, hp⟩ := (h _ rfl).backups _ (hsh ▸ List.mem_cons_self)
      exact hfront rfl hs ⟨c, List.mem_append_left _ hc, hp⟩

theorem newest_of_accounted {done : List Call} {now : Time} {s : Option Shelf}
    (h : ∀ sh, s = some sh → Accounted S keys kind done sh)
    (hlater : ∀ c ∈ done, stamp c.now < stamp now) : Newest kind now s := by
  intro e he version
  cases s with
  | none => cases he
  | some sh =>
      obtain ⟨c, hc, v, hname⟩ := (h sh rfl).named e he
      rw [hname]
      exact backupName_lt (hlater c hc) kind v version

/-- After the calls the directory represents the shelf, all of which comes from installs. -/
structure Reached (S : Std) (keys : TrustedKeyring) (kind : String) (done : List Call)
    (target : Option Tree) (s : Option Shelf) : Prop where
  represents : Represents S keys kind target s
  accounted : ∀ sh, s = some sh → Accounted S keys kind done sh

/-- One more call. -/
theorem Reached.step {done : List Call} {target : Option Tree} {s : Option Shelf} {call : Call}
    (h : Reached S keys kind done target s)
    (hlater : ∀ c ∈ done, stamp c.now < stamp call.now) (targetAbs : String) :
    ∃ s', Reached S keys kind (done ++ [call]) (execCall S keys kind targetAbs call target).2 s' ∧
      Outcome S keys kind call s (execCall S keys kind targetAbs call target).1.1 s' ∧
      (call.Ready S keys kind targetAbs s →
        ∃ a, (execCall S keys kind targetAbs call target).1.1 = .ok a) ∧
      ∀ t ∈ (execCall S keys kind targetAbs call target).1.2,
        Shows S keys kind s t ∨ Shows S keys kind s' t := by
  obtain ⟨s', hr', hout, hsuccess, hmoments⟩ :=
    execCall_outcome h.represents (newest_of_accounted h.accounted hlater) targetAbs
  exact ⟨s', ⟨hr', Accounted.outcome h.accounted hout⟩, hout, hsuccess, hmoments⟩

theorem reached_run (S : Std) (keys : TrustedKeyring) (kind targetAbs : String)
    {calls : List Call} (hinc : Increasing calls) :
    ∃ s, Reached S keys kind calls (final (execCall S keys kind targetAbs) none calls) s := by
  induction calls using List.reverseRecOn with
  | nil => exact ⟨none, .absent, fun sh hsh => by cases hsh⟩
  | append_singleton done call ih =>
      obtain ⟨hdone, -, hlater⟩ := List.pairwise_append.mp hinc
      obtain ⟨s, hs⟩ := ih hdone
      obtain ⟨s', hs', -⟩ := hs.step (fun c hc => hlater c hc call List.mem_cons_self) targetAbs
      rw [final_append]
      exact ⟨s', hs'⟩

abbrev ContentEvent := Event Call (Option Tree) (Except Err ActionResult × List (Option Tree))

/-- A call of a history, on the shelf. -/
theorem event_outcome {calls : List Call} (hinc : Increasing calls) {pre post : List ContentEvent}
    {ev : ContentEvent}
    (hes : history (execCall S keys kind targetAbs) none calls = pre ++ ev :: post) :
    ∃ s s', Reached S keys kind (pre.map Event.input) ev.before s ∧
      Reached S keys kind (pre.map Event.input ++ [ev.input]) ev.after s' ∧
      Outcome S keys kind ev.input s ev.output.1 s' ∧
      ∀ t ∈ ev.output.2, Shows S keys kind s t ∨ Shows S keys kind s' t := by
  obtain ⟨xs, ys, rfl, rfl, hrest⟩ := history_split hes
  cases ys with
  | nil => cases hrest
  | cons call ys =>
      obtain ⟨rfl, -⟩ := List.cons.inj hrest
      obtain ⟨hxs, -, hlater⟩ := List.pairwise_append.mp hinc
      obtain ⟨s, hs⟩ := reached_run S keys kind targetAbs hxs
      obtain ⟨s', hs', hout, -, hmoments⟩ :=
        hs.step (fun c hc => hlater c hc call List.mem_cons_self) targetAbs
      rw [history_map_input]
      exact ⟨s, s', hs, hs', hout, hmoments⟩

/-- **The packages of a kind are kept.** At any moment nothing is active, or a verified package
that some call has installed; a call that fails leaves it active, unless it reports that it could
not restore it; and a rollback undoes the install before it. -/
structure PackagesKept (S : Std) (keys : TrustedKeyring) (kind : String)
    (es : List ContentEvent) : Prop where
  active : ∀ pre ev post, es = pre ++ ev :: post → ∀ t ∈ ev.after :: ev.output.2, t = none ∨
    Verified S keys kind t ∧ ∃ p, packageAt S t = some p ∧
      ∃ a ∈ pre ++ [ev], a.input.Installs S keys kind p
  failed : ∀ ev ∈ es, ∀ err, ev.output.1 = .error err → ¬ RestoreFailed err →
    packageAt S ev.after = packageAt S ev.before
  restored : ∀ pre a b post, es = pre ++ a :: b :: post → Verified S keys kind a.before →
    ¬ a.input.IsRollback → (∃ r, a.output.1 = .ok r) → b.input.IsRollback →
    b.input.renames.Succeed → (∃ r, b.output.1 = .ok r) ∧ Verified S keys kind b.after ∧
      packageAt S b.after = packageAt S a.before

/-- The package of the directory is the active one of the shelf. -/
theorem Represents.packageAt {target : Option Tree} {s : Option Shelf}
    (hr : Represents S keys kind target s) : packageAt S target = s.map Shelf.active := by
  cases hr with
  | absent => rfl
  | present _ active _ _ _ => exact active

/-- A successful install puts the package that it replaces before all backups. -/
theorem Reached.install {done : List Call} {target : Option Tree} {s : Option Shelf} {call : Call}
    (h : Reached S keys kind done target s)
    (hlater : ∀ c ∈ done, stamp c.now < stamp call.now) (hinstall : ¬ call.IsRollback)
    (hok : ∃ r, (execCall S keys kind targetAbs call target).1.1 = .ok r) :
    ∃ p backups, Reached S keys kind (done ++ [call])
        (execCall S keys kind targetAbs call target).2 (some ⟨p, backups⟩) ∧
      ∀ sh, s = some sh → ∃ name, backups = (name, sh.active) :: sh.backups := by
  obtain ⟨s', hs', hout, -, -⟩ := h.step hlater targetAbs
  obtain ⟨r, hok⟩ := hok
  rw [hok] at hout
  cases hout with
  | installed _ hs =>
      refine ⟨_, _, hs', fun sh hsh => ?_⟩
      cases hs with
      | absent => cases hsh
      | present sh version =>
          cases hsh
          exact ⟨_, rfl⟩
  | rolledBack hrollback _ _ => exact absurd hrollback hinstall

/-- A verified package **can be installed** from another place. -/
theorem Reached.installs {done : List Call} {target : Option Tree} {s : Option Shelf}
    (source : Source) {now : Time} (renames : Renames) {p : Package}
    (h : Reached S keys kind done target s) (hlater : ∀ c ∈ done, stamp c.now < stamp now)
    (hdir : trimSpace source.dir ≠ "") (hv : Verified S keys kind source.tree)
    (habs : source.abs ≠ targetAbs) (hrenames : renames.Succeed)
    (hp : packageAt S source.tree = some p) :
    (∃ r, (execCall S keys kind targetAbs (.install source now renames) target).1.1 = .ok r) ∧
      ∃ backups, Reached S keys kind (done ++ [.install source now renames])
          (execCall S keys kind targetAbs (.install source now renames) target).2
          (some ⟨p, backups⟩) ∧
        ∀ sh, s = some sh → ∃ name, backups = (name, sh.active) :: sh.backups := by
  have hlater : ∀ c ∈ done, stamp c.now < stamp (Call.install source now renames).now := hlater
  obtain ⟨s', hs', hout, hsuccess, -⟩ := h.step hlater targetAbs
  obtain ⟨r, hok⟩ := hsuccess ⟨hdir, hv, habs, hrenames⟩
  refine ⟨⟨r, hok⟩, ?_⟩
  rw [hok] at hout
  cases hout with
  | installed hinstalls hs =>
      obtain ⟨source', now', renames', hcall, -, hp'⟩ := hinstalls
      cases hcall
      cases hp.symm.trans hp'
      refine ⟨_, hs', fun sh hsh => ?_⟩
      cases hs with
      | absent => cases hsh
      | present sh version =>
          cases hsh
          exact ⟨_, rfl⟩
  | rolledBack hrollback _ _ =>
      obtain ⟨_, _, hcall⟩ := hrollback
      cases hcall

/-- **A rollback changes places** with the newest backup. -/
theorem Reached.rollback {done : List Call} {target : Option Tree} {x y : Package} {name : String}
    {rest : List (String × Package)} {call : Call}
    (h : Reached S keys kind done target (some ⟨x, (name, y) :: rest⟩))
    (hlater : ∀ c ∈ done, stamp c.now < stamp call.now) (hrollback : call.IsRollback)
    (hrenames : call.renames.Succeed) (targetAbs : String) :
    (∃ r, (execCall S keys kind targetAbs call target).1.1 = .ok r) ∧
      ∃ name' rest', Reached S keys kind (done ++ [call])
        (execCall S keys kind targetAbs call target).2 (some ⟨y, (name', x) :: rest'⟩) := by
  obtain ⟨s', hs', hout, hsuccess, -⟩ := h.step hlater targetAbs
  obtain ⟨now, renames, rfl⟩ := hrollback
  obtain ⟨r, hok⟩ := hsuccess ⟨List.cons_ne_nil _ _, hrenames⟩
  refine ⟨⟨r, hok⟩, ?_⟩
  rw [hok] at hout
  cases hout with
  | installed h _ =>
      obtain ⟨_, _, _, h, -⟩ := h
      cases h
  | rolledBack _ hsh hs =>
      cases hsh
      cases hs with
      | present sh version => exact ⟨_, _, hs'⟩

/-- A call that fails keeps the active package. -/
theorem active_of_error {call : Call} {s s' : Option Shelf} {err : Err}
    (h : Outcome S keys kind call s (.error err) s') (hne : ¬ RestoreFailed err) :
    s'.map Shelf.active = s.map Shelf.active := by
  cases h with
  | refused _ => rfl
  | saved _ hs => cases hs <;> rfl
  | lost h => exact absurd h hne

/-- In every history with a clock that moves on, **the packages are kept**. -/
theorem packages_kept (S : Std) (keys : TrustedKeyring) (kind targetAbs : String)
    {calls : List Call} (hinc : Increasing calls) :
    PackagesKept S keys kind (history (execCall S keys kind targetAbs) none calls) := by
  constructor
  · intro pre ev post hes t ht
    obtain ⟨s, s', hs, hs', -, hmoments⟩ := event_outcome hinc hes
    have hshows : Shows S keys kind s t ∨ Shows S keys kind s' t := by
      rcases List.mem_cons.mp ht with rfl | ht
      · exact .inr hs'.represents.shows
      · exact hmoments t ht
    have hfrom : ∀ {u : Option Shelf}, (∀ sh, u = some sh →
        Accounted S keys kind (pre.map Event.input ++ [ev.input]) sh) → Shows S keys kind u t →
        t = none ∨ Verified S keys kind t ∧ ∃ p, Contentpkg.packageAt S t = some p ∧
          ∃ a ∈ pre ++ [ev], a.input.Installs S keys kind p := by
      intro u hu hshow
      rcases hshow with hnone | ⟨hv, sh, hsh, hp⟩
      · exact .inl hnone
      · obtain ⟨c, hc, hinstalls⟩ := (hu sh hsh).active
        rw [← List.map_singleton (f := Event.input), ← List.map_append] at hc
        obtain ⟨a, ha, rfl⟩ := List.mem_map.mp hc
        exact .inr ⟨hv, sh.active, hp, a, ha, hinstalls⟩
    rcases hshows with hshow | hshow
    · exact hfrom (fun sh hsh => (hs.accounted sh hsh).mono [ev.input]) hshow
    · exact hfrom hs'.accounted hshow
  · intro ev hev err herr hne
    obtain ⟨pre, post, hes⟩ := List.append_of_mem hev
    obtain ⟨s, s', hs, hs', hout, -⟩ := event_outcome hinc hes
    rw [herr] at hout
    rw [hs'.represents.packageAt, hs.represents.packageAt, active_of_error hout hne]
  · intro pre a b post hes hv hinstall hok hrollback hrenames
    obtain ⟨xs, ys, rfl, rfl, hrest⟩ := history_split hes
    match ys, hrest with
    | [], hcalls => cases hcalls
    | [_], hcalls => cases hcalls
    | first :: second :: ys, hcalls =>
        obtain ⟨rfl, htail⟩ := List.cons.inj hcalls
        obtain ⟨rfl, -⟩ := List.cons.inj htail
        obtain ⟨hxs, hys, hlater⟩ := List.pairwise_append.mp hinc
        obtain ⟨s, hs⟩ := reached_run S keys kind targetAbs hxs
        -- there is a package before
        obtain ⟨sh, rfl⟩ : ∃ sh, s = some sh := by
          cases s with
          | some sh => exact ⟨sh, rfl⟩
          | none =>
              obtain ⟨p, hp⟩ := packageAt_of_verified hv
              cases hs.represents.packageAt.symm.trans hp
        obtain ⟨p, backups, hs', hbackups⟩ :=
          hs.install (fun c hc => hlater c hc first List.mem_cons_self) hinstall hok
        obtain ⟨name, rfl⟩ := hbackups sh rfl
        have hlater' : ∀ c ∈ xs ++ [first], stamp c.now < stamp second.now := by
          intro c hc
          rcases List.mem_append.mp hc with hc | hc
          · exact hlater c hc second (List.mem_cons_of_mem _ List.mem_cons_self)
          · obtain rfl := List.mem_singleton.mp hc
            exact (List.pairwise_cons.mp hys).1 second List.mem_cons_self
        obtain ⟨hsuccess, name', rest', hs''⟩ := hs'.rollback hlater' hrollback hrenames targetAbs
        refine ⟨hsuccess, hs''.represents.status, ?_⟩
        rw [hs''.represents.packageAt, hs.represents.packageAt]
        rfl

/-! ### Several rollbacks

A rollback saves the package it leaves before it takes the newest backup, so that package is now the
newest. Two packages change places, and what lies deeper is never reached. -/

/-- Rollbacks in a row change places with each other. -/
theorem rollbacks_swap {done rollbacks : List Call} {target : Option Tree} {x y : Package}
    {name : String} {rest : List (String × Package)}
    (h : Reached S keys kind done target (some ⟨x, (name, y) :: rest⟩))
    (hinc : Increasing (done ++ rollbacks))
    (hrollbacks : ∀ c ∈ rollbacks, c.IsRollback ∧ c.renames.Succeed) {k : Nat} {b : ContentEvent}
    (hk : (history (execCall S keys kind targetAbs) target rollbacks)[k]? = some b) :
    (∃ r, b.output.1 = .ok r) ∧ packageAt S b.after = some (if k % 2 = 0 then y else x) := by
  induction rollbacks generalizing done target x y name rest k with
  | nil => cases hk
  | cons call rollbacks ih =>
      obtain ⟨⟨hrollback, hrenames⟩, hrest⟩ := List.forall_mem_cons.mp hrollbacks
      have hlater : ∀ c ∈ done, stamp c.now < stamp call.now := fun c hc =>
        (List.pairwise_append.mp hinc).2.2 c hc call List.mem_cons_self
      obtain ⟨hok, name', rest', hnext⟩ := h.rollback hlater hrollback hrenames targetAbs
      cases k with
      | zero =>
          cases hk
          exact ⟨hok, hnext.represents.packageAt⟩
      | succ k =>
          have hinc' : Increasing ((done ++ [call]) ++ rollbacks) := by
            rwa [List.append_assoc]
          obtain ⟨hok', hactive⟩ := ih hnext hinc' hrest hk
          refine ⟨hok', hactive.trans (congrArg some ?_)⟩
          by_cases heven : k % 2 = 0
          · rw [if_pos heven, if_neg (by omega)]
          · rw [if_neg heven, if_pos (by omega)]

/-- Each rollback goes one install further back. -/
def RollbacksGoBack (S : Std) (installs rollbacks : List ContentEvent) : Prop :=
  ∀ (k : Nat) (a b : ContentEvent), rollbacks[k]? = some b → installs.reverse[k + 1]? = some a →
    packageAt S b.after = packageAt S a.after

/-- The first rollback goes back to the install before the last one, and every further one returns
to what the rollback before it left. -/
def RollbacksAlternate (S : Std) (installs rollbacks : List ContentEvent) : Prop :=
  ∀ (k : Nat) (a b : ContentEvent), rollbacks[k]? = some b →
    installs.reverse[(k + 1) % 2]? = some a →
    (∃ r, b.output.1 = .ok r) ∧ packageAt S b.after = packageAt S a.after

/-- Rollbacks after two successful installs or more **alternate between the last two packages**. -/
theorem rollbacks_alternate (S : Std) (keys : TrustedKeyring) (kind targetAbs : String)
    {before installs rollbacks : List Call} (hinc : Increasing (before ++ installs ++ rollbacks))
    (hinstalls : ∀ a ∈ history (execCall S keys kind targetAbs)
      (final (execCall S keys kind targetAbs) none before) installs,
      ¬ a.input.IsRollback ∧ ∃ r, a.output.1 = .ok r)
    (htwo : 2 ≤ installs.length)
    (hrollbacks : ∀ c ∈ rollbacks, c.IsRollback ∧ c.renames.Succeed) :
    RollbacksAlternate S
      (history (execCall S keys kind targetAbs)
        (final (execCall S keys kind targetAbs) none before) installs)
      (history (execCall S keys kind targetAbs)
        (final (execCall S keys kind targetAbs) none (before ++ installs)) rollbacks) := by
  -- the last two installs
  obtain ⟨earlier, c, d, rfl⟩ : ∃ earlier c d, installs = earlier ++ [c, d] := by
    match h : installs.reverse with
    | [] => simp_all
    | [_] => simp_all
    | d :: c :: earlier =>
        refine ⟨earlier.reverse, c, d, ?_⟩
        rw [← List.reverse_reverse installs, h]
        simp
  obtain ⟨hdone, -, -⟩ := List.pairwise_append.mp hinc
  rw [← List.append_assoc] at hdone
  obtain ⟨hxs, hcd, hlater⟩ := List.pairwise_append.mp hdone
  obtain ⟨s, hs⟩ := reached_run S keys kind targetAbs hxs
  rw [history_append, history_pair, ← final_append] at hinstalls ⊢
  obtain ⟨hc, hcok⟩ := hinstalls _ (List.mem_append_right _ List.mem_cons_self)
  obtain ⟨hd, hdok⟩ := hinstalls _ (List.mem_append_right _ (List.mem_cons_of_mem _
    List.mem_cons_self))
  obtain ⟨pc, backups, hsc, -⟩ := hs.install
    (fun x hx => hlater x hx c List.mem_cons_self) hc hcok
  have hlaterd : ∀ x ∈ before ++ earlier ++ [c], stamp x.now < stamp d.now := by
    intro x hx
    rcases List.mem_append.mp hx with hx | hx
    · exact hlater x hx d (List.mem_cons_of_mem _ List.mem_cons_self)
    · obtain rfl := List.mem_singleton.mp hx
      exact (List.pairwise_cons.mp hcd).1 d List.mem_cons_self
  obtain ⟨pd, backups', hsd, hbackups⟩ := hsc.install hlaterd hd hdok
  obtain ⟨name, rfl⟩ := hbackups _ rfl
  -- from there on the two change places
  intro k a b hb ha
  have hcalls : before ++ earlier ++ [c] ++ [d] = before ++ (earlier ++ [c, d]) := by simp
  have hfinal : final (execCall S keys kind targetAbs) none (before ++ (earlier ++ [c, d])) =
      (execCall S keys kind targetAbs d (execCall S keys kind targetAbs c
        (final (execCall S keys kind targetAbs) none (before ++ earlier))).2).2 := by
    rw [← List.append_assoc, final_append]
    rfl
  rw [hfinal] at hb
  rw [hcalls] at hsd
  obtain ⟨hok, hactive⟩ := rollbacks_swap hsd hinc hrollbacks hb
  refine ⟨hok, hactive.trans ?_⟩
  rw [List.reverse_append, List.reverse_cons, List.reverse_cons, List.reverse_nil,
    List.nil_append, List.singleton_append] at ha
  by_cases heven : k % 2 = 0
  · rw [if_pos heven]
    rw [show (k + 1) % 2 = 1 by omega] at ha
    cases ha
    exact hsc.represents.packageAt.symm
  · rw [if_neg heven]
    rw [show (k + 1) % 2 = 0 by omega] at ha
    cases ha
    exact hsd.represents.packageAt.symm

end Runs

/-! ### An example

Three versions of one package with one file each. Manifests are given by their texts, and what the
library makes of these texts (digest, signature, parse) is evaluated once for each version. -/

/-- Three versions of a package, with the same file. -/
inductive Sample
  | v1
  | v2
  | v3
  deriving DecidableEq

/-- The version's last digit, by which the texts differ. -/
def Sample.digit : Sample → Char
  | .v1 => '1'
  | .v2 => '2'
  | .v3 => '3'

/-- The signature of the manifest of the version. -/
def Sample.signature : Sample → String
  | .v1 => "qVTa1FzEa9qWG5u5l/dlMvSKePMihIOHW/bW3e+XAlAvmiU/WkUtBB+jqG6T+9SUaC1/rMiQxhZg+K/Dx4PZBQ=="
  | .v2 => "uYfztmPw+rLALkzfIS5UQ2C2Bt14vZDg1LjOaIkyBRK5PWLmDOCo0An0O4YlKKoNHcqbz+akXoU4yXeoXnwfBQ=="
  | .v3 => "e7bMtHpc3HxMlyRtAm7RzFvVXoXaKiZdmVQw0DUvTAPYVzLtQsb+WkF1RCGnEmEZhcbRAF3oCkbTFJHFjUQ4BA=="

/-- The digests of the signed manifests. -/
def Sample.digest : Sample → List UInt8
  | .v1 =>
      [39, 62, 219, 241, 249, 135, 62, 49, 248, 33, 144, 24, 213, 114, 58, 208, 101, 66, 118,
      32, 252, 239, 181, 170, 199, 195, 201, 223, 59, 251, 234, 12]
  | .v2 =>
      [81, 62, 163, 242, 152, 208, 74, 74, 112, 123, 222, 147, 223, 154, 133, 23, 84, 138, 50,
      133, 243, 182, 83, 191, 239, 188, 210, 186, 100, 114, 20, 234]
  | .v3 =>
      [200, 132, 255, 17, 16, 4, 111, 130, 96, 71, 178, 150, 251, 244, 95, 112, 151, 16, 125,
      33, 151, 20, 205, 56, 201, 146, 39, 197, 93, 171, 28, 160]

/-- The key that signs them all. -/
def sampleKey : List UInt8 :=
    [168, 215, 5, 252, 114, 124, 203, 147, 62, 206, 102, 227, 19, 186, 40, 234, 14, 241, 52,
      39, 209, 118, 137, 44, 150, 158, 1, 247, 169, 52, 2, 163]

/-- The bytes of a text that is put together from parts. -/
def ascii (parts : List String) : List UInt8 :=
  parts.flatMap fun s => s.toList.map fun c => UInt8.ofNat c.toNat

/-- The one file of each package. -/
def sampleFile : List UInt8 := ascii ["\x7b\"apps\":[\"v1\"]\x7d"]

/-- The manifest up to the version, -/
def sampleHead : List UInt8 :=
  ascii ["\x7b\"schema_version\":\"", "phragma.content.package.v1", "\",\"kind\":\"app-id\",",
    "\"name\":\"App-ID\",", "\"version\":\""]

/-- from there to the signature, -/
def sampleFiles : List UInt8 :=
  ascii [".0.0\",\"source\":\"phragma\",", "\"files\":[\x7b\"path\":", "\"apps.json\",\"sha256\":\"",
    "65435924227b9a488d2fff04e8984cd4", "d07d8ade6197d4e048d2ed9b9a91194b", "\"\x7d],"]

/-- the signature, -/
def sampleSignature (signature : String) : List UInt8 :=
  ascii ["\"signature\":\x7b", "\"algorithm\":\"ed25519\",", "\"key_id\":\"test-key\",",
    "\"public_key\":\"\",", "\"signature\":\""] ++ ascii [signature] ++ ascii ["\"\x7d,"]

/-- and the rest. -/
def sampleTail : List UInt8 :=
  ascii ["\"regression\":\x7b", "\"status\":\"passed\",", "\"corpus\":\"pcap-regression\",",
    "\"passed\":1,", "\"run_at\":\"2026-06-17T12:04:00Z\"\x7d,", "\"rollout\":\x7b\"state\":\"stable\"\x7d,",
    "\"rollback\":\x7b\"available\":true\x7d,", "\"provenance\":[\x7b", "\"name\":\"Phragma test\",",
    "\"url\":\"https://example.test/content\",", "\"license\":\"Apache-2.0\",",
    "\"allows_commercial_use\":true,", "\"allows_redistribution\":true\x7d]\x7d"]

/-- The manifest as it is written, with its signature or without. -/
def Sample.text (v : Sample) (signed : Bool) : List UInt8 :=
  sampleHead ++ UInt8.ofNat v.digit.toNat :: (sampleFiles ++
    ((if signed then sampleSignature v.signature else []) ++ sampleTail))

def Sample.manifest (v : Sample) : Manifest where
  schemaVersion := SchemaVersion
  kind := "app-id"
  name := "App-ID"
  version := String.ofList [v.digit, '.', '0', '.', '0']
  source := "phragma"
  createdAt := ""
  installedAt := ""
  files := [⟨"apps.json", "65435924227b9a488d2fff04e8984cd4d07d8ade6197d4e048d2ed9b9a91194b"⟩]
  signature := some ⟨"ed25519", "test-key", "", v.signature⟩
  regression := some ⟨"passed", "pcap-regression", 1, 0, "2026-06-17T12:04:00Z"⟩
  rollout := some ⟨"stable", ""⟩
  rollback := some ⟨true, ""⟩
  provenance :=
    [⟨"Phragma test", "https://example.test/content", "Apache-2.0", some true, some true⟩]
  contentReadiness := none

/-- The version that a manifest is of. -/
def sampleOf (m : Manifest) : Sample :=
  if m.version = "1.0.0" then .v1 else if m.version = "2.0.0" then .v2 else .v3

/-- The standard library on these packages. -/
def sampleStd : Std where
  unmarshal := fun raw =>
    if raw = Sample.v1.text true then .ok Sample.v1.manifest
    else if raw = Sample.v2.text true then .ok Sample.v2.manifest
    else if raw = Sample.v3.text true then .ok Sample.v3.manifest
    else .error "unexpected end of JSON input"
  marshal := fun m => some ((sampleOf m).text m.signature.isSome)
  sha256 := fun raw =>
    if raw = sampleFile then
      [101, 67, 89, 36, 34, 123, 154, 72, 141, 47, 255, 4, 232, 152, 76, 212, 208, 125, 138,
      222, 97, 151, 212, 224, 72, 210, 237, 155, 154, 145, 25, 75]
    else if raw = Sample.v1.text true then Sample.v1.digest
    else if raw = Sample.v2.text true then Sample.v2.digest
    else if raw = Sample.v3.text true then Sample.v3.digest
    else []
  verify := fun pub payload sig =>
    decide (pub = sampleKey ∧ ∃ v ∈ [Sample.v1, Sample.v2, Sample.v3],
      payload = trimBytes (v.text false) ∧ some sig = decodeBase64 v.signature)
  parseTime := fun value =>
    if value = "2026-06-17T12:04:00Z" then
      some ⟨2026, 6, 17, 12, 4, 0, 0, by decide, by decide⟩
    else none

/-- The keyring has the one key. -/
def sampleKeyring : TrustedKeyring := fun id => if id = "test-key" then some sampleKey else none

/-- The package as it lies on disk. -/
def Sample.tree (v : Sample) : Tree :=
  .dir [("manifest.json", .file (v.text true)), ("apps.json", .file sampleFile)]

/-- Versions have different manifests. -/
theorem text_injective {v w : Sample} (h : v.text true = w.text true) : v = w := by
  have hrest := List.append_cancel_left h
  have hdigit : UInt8.ofNat v.digit.toNat = UInt8.ofNat w.digit.toNat := (List.cons.inj hrest).1
  cases v <;> cases w <;> first | rfl | exact absurd hdigit (by decide)

/-- The manifest's text is parsed as the manifest. -/
theorem unmarshal_text (v : Sample) : sampleStd.unmarshal (v.text true) = .ok v.manifest := by
  have hne : ∀ {w : Sample}, v ≠ w → ¬ v.text true = w.text true :=
    fun hvw h => hvw (text_injective h)
  cases v with
  | v1 => simp only [sampleStd, if_true]
  | v2 =>
      have h1 : (.v2 : Sample) ≠ .v1 := by decide
      simp only [sampleStd, hne h1, if_false, if_true]
  | v3 =>
      have h1 : (.v3 : Sample) ≠ .v1 := by decide
      have h2 : (.v3 : Sample) ≠ .v2 := by decide
      simp only [sampleStd, hne h1, hne h2, if_false, if_true]

/-- Texts of at most a hundred characters. -/
def Short (parts : List String) : Prop := ∀ part ∈ parts, part.toList.length ≤ 100

/-- Such texts can be taken together. -/
theorem short_nil : Short [] := nofun

/-- One more of them. -/
theorem Short.cons {parts : List String} (h : Short parts) (cs : List Char)
    (hcs : cs.length ≤ 100) : Short (String.ofList cs :: parts) :=
  List.forall_mem_cons.mpr ⟨by rwa [String.toList_ofList], h⟩

/-- So many parts give so many bytes at most. -/
theorem length_ascii_le {parts : List String} (h : Short parts) :
    (ascii parts).length ≤ parts.length * 100 := by
  induction parts with
  | nil => exact le_rfl
  | cons part parts ih =>
      obtain ⟨hpart, hparts⟩ := List.forall_mem_cons.mp h
      have hrest := ih hparts
      simp only [ascii, List.flatMap_cons, List.length_append, List.length_map,
        List.length_cons] at hrest ⊢
      omega

/-- The parts of the manifest are small, so it is within the limit of a manifest. -/
theorem length_sampleHead : sampleHead.length ≤ 500 := by
  refine length_ascii_le ?_
  iterate 5 refine Short.cons ?_ _ (by decide)
  exact short_nil

theorem length_sampleFiles : sampleFiles.length ≤ 600 := by
  refine length_ascii_le ?_
  iterate 6 refine Short.cons ?_ _ (by decide)
  exact short_nil

theorem length_sampleTail : sampleTail.length ≤ 1300 := by
  refine length_ascii_le ?_
  iterate 13 refine Short.cons ?_ _ (by decide)
  exact short_nil

theorem length_sampleSignature (v : Sample) : (sampleSignature v.signature).length ≤ 700 := by
  have hlead : (ascii ["\"signature\":\x7b", "\"algorithm\":\"ed25519\",",
      "\"key_id\":\"test-key\",", "\"public_key\":\"\",", "\"signature\":\""]).length ≤ 500 := by
    refine length_ascii_le ?_
    iterate 5 refine Short.cons ?_ _ (by decide)
    exact short_nil
  have hsignature : (ascii [v.signature]).length ≤ 100 := by
    cases v <;> exact length_ascii_le (short_nil.cons _ (by decide))
  have hclose : (ascii ["\"\x7d,"]).length ≤ 100 := length_ascii_le (short_nil.cons _ (by decide))
  rw [sampleSignature, List.length_append, List.length_append]
  omega

theorem length_text (v : Sample) : (v.text true).length ≤ maxManifestBytes := by
  have hhead := length_sampleHead
  have hfiles := length_sampleFiles
  have hsignature := length_sampleSignature v
  have htail := length_sampleTail
  simp only [Sample.text, List.length_append, List.length_cons, if_true]
  rw [maxManifestBytes]
  omega

/-- A text without space around it is not changed by trimming. -/
theorem trimSpace_ofList {cs : List Char} (h : trimList isSpace cs = cs) :
    trimSpace (String.ofList cs) = String.ofList cs := by
  rw [trimSpace, String.toList_ofList, h]

/-- A text without space around it is decoded as it is. -/
theorem decodeBase64_ofList {cs : List Char} {raw : List Nat}
    (htrim : trimList isSpace cs = cs) (hne : String.ofList cs ≠ "")
    (hraw : base64Groups (cs.filter fun c => !isLineBreak c) = some raw) :
    decodeBase64 (String.ofList cs) = some (raw.map UInt8.ofNat) := by
  have hdecode : base64Decode (String.ofList cs) = some raw := by
    rw [base64Decode, String.toList_ofList, hraw]
  rw [decodeBase64, trimSpace_ofList htrim]
  dsimp only
  rw [if_neg hne, hdecode]

/-- The signature of each version verifies. -/
theorem sample_signature (v : Sample) :
    verifySignatureStatus sampleStd v.manifest sampleKeyring = .verified := by
  obtain ⟨sig, hsig, hlength⟩ : ∃ sig, decodeBase64 v.signature = some sig ∧ sig.length = 64 := by
    cases v <;>
      exact ⟨_, decodeBase64_ofList (by decide +kernel) (by decide +kernel) (by rfl), rfl⟩
  have halgorithm : ¬ toLower "ed25519" ≠ "ed25519" := by decide
  have hkey : sampleKeyring (trimSpace "test-key") = some sampleKey := by
    have hid : trimSpace "test-key" = "test-key" := by decide
    rw [hid]
    exact if_pos rfl
  have hname : trimSpace "test-key" ≠ "" := by decide
  have hpublic : ¬ (trimSpace "" ≠ "" ∧ decodeBase64 "" ≠ some sampleKey) :=
    fun h => h.1 (by decide)
  have hpayload : signaturePayload sampleStd v.manifest = some (trimBytes (v.text false)) := by
    have hof : sampleOf { v.manifest with signature := none } = v := by
      cases v <;> decide +kernel
    simp only [signaturePayload, sampleStd, Option.map_some, Option.isSome_none, hof]
  have hverify : sampleStd.verify sampleKey (trimBytes (v.text false)) sig = true := by
    have hmem : v ∈ [Sample.v1, Sample.v2, Sample.v3] := by
      cases v <;> decide
    rw [sampleStd]
    dsimp only
    rw [decide_eq_true_iff]
    exact ⟨rfl, v, hmem, rfl, hsig.symm⟩
  have hkeyLength : ¬ sampleKey.length ≠ 32 := by decide
  have hsigLength : ¬ sig.length ≠ 64 := fun h => h hlength
  have hsignature : v.manifest.signature =
      some ⟨"ed25519", "test-key", "", v.signature⟩ := rfl
  unfold verifySignatureStatus
  rw [hsignature]
  simp only [halgorithm, hkey, hname, hpublic, hsig, Option.getD_some, if_false, hkeyLength,
    hsigLength, hpayload, hverify, if_true]

/-- Its file has the digest that the manifest gives. -/
theorem sample_file (v : Sample) :
    verifyFileHashes sampleStd (some v.tree) v.manifest.files = [] := by
  have hpath : safePackagePath "apps.json" = some ["apps.json"] := by decide +kernel
  have hfile : safeExistingPackageFilePath (some v.tree) "apps.json" = some (.file sampleFile) := by
    rw [safeExistingPackageFilePath, hpath]
    rfl
  have hsum : toLower (shaHex sampleStd sampleFile) = toLower (trimSpace
      "65435924227b9a488d2fff04e8984cd4d07d8ade6197d4e048d2ed9b9a91194b") := by
    refine congrArg toLower (Eq.trans ?_ (trimSpace_ofList (by decide +kernel)).symm)
    rw [shaHex]
    simp only [sampleStd, if_true]
    exact congrArg String.ofList (by decide +kernel)
  have hblocker : fileBlocker sampleStd (some v.tree) ⟨"apps.json",
      "65435924227b9a488d2fff04e8984cd4d07d8ade6197d4e048d2ed9b9a91194b"⟩ = none := by
    rw [fileBlocker, hfile]
    dsimp only
    rw [if_neg (by decide), if_pos hsum]
  have hfiles : v.manifest.files = [⟨"apps.json",
      "65435924227b9a488d2fff04e8984cd4d07d8ade6197d4e048d2ed9b9a91194b"⟩] := rfl
  rw [verifyFileHashes, hfiles, if_neg (List.cons_ne_nil _ _), List.filterMap_cons, hblocker]
  rfl

/-- So each version is verified, -/
theorem sample_verified (v : Sample) :
    Verified sampleStd sampleKeyring "app-id" (some v.tree) := by
  have hexp : expectedForKind "app-id" = some "app-id" := by decide
  have hraw : readManifestRaw (some v.tree) = .ok (v.text true) :=
    readManifestRaw_of_get rfl (length_text v)
  have hblockers : packageBlockers sampleStd sampleKeyring "app-id" (some v.tree) v.manifest = [] := by
    have hmanifest : manifestBlockers "app-id" v.manifest = [] := by
      cases v <;> decide +kernel
    have hcontrol : controlBlockers sampleStd v.manifest = [] := by
      cases v <;> decide +kernel
    rw [packageBlockers, hmanifest, hcontrol, sample_signature, sample_file]
    rfl
  rw [Verified, statusFromDir, hexp]
  dsimp only
  rw [loadFromManifest, hraw]
  dsimp only
  rw [unmarshal_text]
  dsimp only
  rw [hblockers]
  exact ⟨_, rfl, rfl⟩

/-- and is the package that it says it is. -/
theorem sample_package (v : Sample) : ∃ files, packageAt sampleStd (some v.tree) =
    some ⟨v.text true, files⟩ := by
  rw [packageAt, readManifestRaw_of_get (t := v.tree) rfl (length_text v)]
  dsimp only
  rw [unmarshal_text]
  exact ⟨_, rfl⟩

/-- One instant for each call. -/
def sampleNow (second : Fin 60) : Time :=
  ⟨2026, 6, 17, 12, 5, second, 0, by decide, ⟨by decide, by decide, second.isLt, by decide⟩⟩

/-- Nothing fails. -/
def sampleRenames : Renames := ⟨.ok (), .ok (), .ok ()⟩

/-- Install a version at a second, -/
def installAt (v : Sample) (second : Fin 60) : Call :=
  .install ⟨"/import/app-id", "/import/app-id", some v.tree⟩ (sampleNow second) sampleRenames

/-- or roll back. -/
def rollbackAt (second : Fin 60) : Call := .rollback (sampleNow second) sampleRenames

/-- The calls on the packages of the example. -/
abbrev execSample := execCall sampleStd sampleKeyring "app-id" "/content/app-id"

/-- Any version can be installed at any point. -/
theorem sample_install {done : List Call} {target : Option Tree} {s : Option Shelf}
    (h : Reached sampleStd sampleKeyring "app-id" done target s) (v : Sample) (second : Fin 60)
    (hlater : ∀ c ∈ done, stamp c.now < stamp (sampleNow second)) :
    (∃ r, (execSample (installAt v second) target).1.1 = .ok r) ∧ ∃ files backups,
      Reached sampleStd sampleKeyring "app-id" (done ++ [installAt v second])
        (execSample (installAt v second) target).2 (some ⟨⟨v.text true, files⟩, backups⟩) ∧
      ∀ sh, s = some sh → ∃ name, backups = (name, sh.active) :: sh.backups := by
  obtain ⟨files, hp⟩ := sample_package v
  have hdir : trimSpace "/import/app-id" ≠ "" := by decide
  have habs : ("/import/app-id" : String) ≠ "/content/app-id" := by decide
  obtain ⟨hok, backups, hnext, hbackups⟩ :=
    Reached.installs ⟨"/import/app-id", "/import/app-id", some v.tree⟩ sampleRenames h hlater hdir
      (sample_verified v) habs ⟨rfl, rfl⟩ hp
  exact ⟨hok, files, backups, hnext, hbackups⟩

theorem installAt_not_rollback (v : Sample) (second : Fin 60) :
    ¬ (installAt v second).IsRollback := by
  rintro ⟨now, renames, h⟩
  cases h

theorem packages_kept_sample : PackagesKept sampleStd sampleKeyring "app-id"
    (history execSample none [installAt .v1 1, installAt .v2 2, rollbackAt 3]) :=
  packages_kept sampleStd sampleKeyring "app-id" "/content/app-id" (by unfold Increasing; decide)

theorem rollbacks_alternate_sample : RollbacksAlternate sampleStd
    (history execSample (final execSample none []) [installAt .v1 1, installAt .v2 2])
    (history execSample (final execSample none ([] ++ [installAt .v1 1, installAt .v2 2]))
      [rollbackAt 3, rollbackAt 4]) := by
  have h0 : Reached sampleStd sampleKeyring "app-id" [] none none :=
    ⟨.absent, fun sh hsh => by cases hsh⟩
  obtain ⟨hok1, files, backups, h1, -⟩ := sample_install h0 .v1 1 (by decide)
  obtain ⟨hok2, -⟩ := sample_install h1 .v2 2 (by decide)
  refine rollbacks_alternate sampleStd sampleKeyring "app-id" "/content/app-id"
    (by unfold Increasing; decide) ?_ (by decide) ?_
  · intro a ha
    simp only [history, final, List.mem_cons, List.not_mem_nil, or_false] at ha
    rcases ha with rfl | rfl
    · exact ⟨installAt_not_rollback .v1 1, hok1⟩
    · exact ⟨installAt_not_rollback .v2 2, hok2⟩
  · intro c hc
    simp only [List.mem_cons, List.not_mem_nil, or_false] at hc
    rcases hc with rfl | rfl <;> exact ⟨⟨_, _, rfl⟩, rfl, rfl⟩

/-- The calls of the example. -/
def sampleHistory : List ContentEvent :=
  history execSample none
    [installAt .v1 1, installAt .v2 2, installAt .v3 3, rollbackAt 4, rollbackAt 5]

/-- After three installs **the second rollback returns** to the third package. -/
theorem secondRollback_returns : (∀ a ∈ sampleHistory, ∃ r, a.output.1 = .ok r) ∧
    ¬ RollbacksGoBack sampleStd (sampleHistory.take 3) (sampleHistory.drop 3) := by
  have h0 : Reached sampleStd sampleKeyring "app-id" [] none none :=
    ⟨.absent, fun sh hsh => by cases hsh⟩
  obtain ⟨hok1, files1, backups1, h1, -⟩ := sample_install h0 .v1 1 (by decide)
  obtain ⟨hok2, files2, backups2, h2, -⟩ := sample_install h1 .v2 2 (by decide)
  obtain ⟨hok3, files3, backups3, h3, hbackups⟩ := sample_install h2 .v3 3 (by decide)
  obtain ⟨name, rfl⟩ := hbackups _ rfl
  have hrollback : ∀ second, (rollbackAt second).IsRollback ∧ (rollbackAt second).renames.Succeed :=
    fun second => ⟨⟨_, _, rfl⟩, rfl, rfl⟩
  obtain ⟨hok4, name', rest, h4⟩ :=
    h3.rollback (by decide) (hrollback 4).1 (hrollback 4).2 "/content/app-id"
  obtain ⟨hok5, name'', rest', h5⟩ :=
    h4.rollback (by decide) (hrollback 5).1 (hrollback 5).2 "/content/app-id"
  rw [sampleHistory]
  simp only [history]
  refine ⟨?_, fun hback => ?_⟩
  · intro a ha
    simp only [List.mem_cons, List.not_mem_nil, or_false] at ha
    rcases ha with rfl | rfl | rfl | rfl | rfl
    · exact hok1
    · exact hok2
    · exact hok3
    · exact hok4
    · exact hok5
  · have hfirst : ∀ a b c d e : ContentEvent, ([a, b, c, d, e].take 3).reverse[1 + 1]? = some a :=
      fun _ _ _ _ _ => rfl
    have hsecond : ∀ a b c d e : ContentEvent, ([a, b, c, d, e].drop 3)[1]? = some e :=
      fun _ _ _ _ _ => rfl
    have hsame := hback 1 _ _ (hsecond _ _ _ _ _) (hfirst _ _ _ _ _)
    dsimp only at hsame
    rw [h5.represents.packageAt, h1.represents.packageAt] at hsame
    simp only [Option.map_some, Option.some.injEq, Package.mk.injEq] at hsame
    exact absurd (text_injective hsame.1) (by decide)

end Phragma.Contentpkg
