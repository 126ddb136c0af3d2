import Phragma.Contentpkg.Manifest
import Phragma.Lib.Machine
import Mathlib.Data.String.Basic
import Mathlib.Data.List.Sort

/-!
# Phragma.Contentpkg.Promote

Installing content packages and rolling them back, `internal/contentpkg/status.go`.

The state is the directory of one kind of package, if there is one; a call also returns all
values that the directory has gone through. Renames are atomic and may fail, everything else
fails only where the trees say so. Staged packages and packages that are moved aside have names
of their own, so they are values and not parts of the state.
-/

namespace Phragma.Contentpkg

open Lib Go

/-! ### Copying

What is copied is what the manifest lists. Each path is checked again, against the directory it is
read from and the one it is written to. -/

/-- `readManifest`: the manifest of a directory, with its bytes, which are copied as they are. -/
def readManifest (S : Std) (dir : Option Tree) : Except Err (Manifest × List UInt8) :=
  match readManifestRaw dir with
  | .error err => .error (.invalidPackage ("read manifest: " ++ err.text))
  | .ok raw =>
      match S.unmarshal raw with
      | .error err => .error (.invalidPackage ("parse manifest: " ++ err))
      | .ok m => .ok (m, raw)

/-- `os.MkdirAll` on a directory of packages. -/
def makeDir : Option Tree → Except Err Tree
  | none => .ok (.dir [])
  | some (.dir es) => .ok (.dir es)
  | some _ => .error (.failed "create package directory: not a directory")

/-- Write a regular file over what is there. -/
def writeFile (what : String) (bytes : List UInt8) : Option Tree → Except Err Tree
  | none | some (.file _) => .ok (.file bytes)
  | some _ => .error (.failed (what ++ ": is a directory"))

/-- `pathHasSymlinkComponent`, without the last component. -/
def hasLinkOnTheWay : List String → Tree → Bool
  | n :: m :: path, .dir es =>
      match es.lookup n with
      | none => false
      | some .other => true
      | some c => hasLinkOnTheWay (m :: path) c
  | _ :: _ :: _, _ => true
  | _, _ => false

/-- `safeNewPackageFilePath`: where a listed file goes below a directory, unless the path leads out
of it or over a link. -/
def safeNewPackageFilePath (base : Tree) (rel : String) : Option (List String) :=
  (safePackagePath rel).bind fun path => if hasLinkOnTheWay path base then none else some path

/-- One file that the manifest lists: the body of the loop in `copyPackageFiles`, with
`copyRegularFile`. -/
def copyListed (source : Option Tree) (f : File) (target : Tree) : Except Err Tree :=
  match safeExistingPackageFilePath source f.path with
  | none => .error (.invalidPackage ("unsafe package path " ++ quote f.path))
  | some node =>
      if f.path = "" then .error (.invalidPackage ("unsafe package path " ++ quote f.path))
      else
        match safeNewPackageFilePath target f.path with
        | none => .error (.invalidPackage ("unsafe target path " ++ quote f.path))
        | some path =>
            match node with
            | .file raw =>
                Tree.update (.failed "create package file directory: not a directory")
                  (writeFile "write package file" raw) path (some target)
            | _ => .error (.invalidPackage "package file is not a regular file")

/-- The loop of `copyPackageFiles`, with the values that the target goes through. -/
def copyFiles (source : Option Tree) : List File → Tree → Except Err Unit × List Tree
  | [], _ => (.ok (), [])
  | f :: fs, target =>
      match copyListed source f target with
      | .error err => (.error err, [])
      | .ok next => ((copyFiles source fs next).1, next :: (copyFiles source fs next).2)

/-- `copyPackageFiles`, with the values that the target goes through. -/
def copyPackageFiles (source target : Option Tree) (raw : List UInt8) (m : Manifest) :
    Except Err Unit × List Tree :=
  match makeDir target with
  | .error err => (.error err, [])
  | .ok made =>
      match Tree.update (.failed "write package manifest: not a directory")
          (writeFile "write package manifest" raw) ["manifest.json"] (some made) with
      | .error err => (.error err, [made])
      | .ok written =>
          ((copyFiles source m.files written).1,
            made :: written :: (copyFiles source m.files written).2)

mutual

/-- `copyTreeNoSymlinks`, over what is there. -/
def copyTree : Tree → Option Tree → Except Err Tree
  | .file bytes, none | .file bytes, some (.file _) => .ok (.file bytes)
  | .file _, some _ => .error (.failed "write package file: is a directory")
  | .dir es, none => (copyEntries es).map .dir
  | .dir es, some (.dir ts) => (mergeEntries es ts).map .dir
  | .dir _, some _ => .error (.failed "not a directory")
  | .other, _ => .error (.invalidPackage "package tree entry is not a regular file")

/-- Into an empty directory. -/
def copyEntries : List (String × Tree) → Except Err (List (String × Tree))
  | [] => .ok []
  | (name, t) :: es =>
      match copyTree t none, copyEntries es with
      | .error err, _ => .error err
      | .ok _, .error err => .error err
      | .ok c, .ok cs => .ok ((name, c) :: cs)

/-- Over the entries of a directory. -/
def mergeEntries : List (String × Tree) → List (String × Tree) →
    Except Err (List (String × Tree))
  | [], ts => .ok ts
  | (name, t) :: es, ts =>
      match copyTree t (ts.lookup name) with
      | .error err => .error err
      | .ok c => mergeEntries es (Tree.setEntry name c ts)

end

/-- `copyRollbackBackups`: the backups of the directory that is replaced, for the staged one, which
has none. -/
def copyRollbackBackups (source : Option Tree) (staging : Tree) : Except Err Tree :=
  match source with
  | none => .ok staging
  | some (.dir es) =>
      match es.lookup ".rollback" with
      | none => .ok staging
      | some (.dir bs) =>
          match copyTree (.dir bs) (staging.get [".rollback"]) with
          | .error err => .error err
          | .ok backups =>
              Tree.update (.failed "not a directory") (fun _ => .ok backups) [".rollback"]
                (some staging)
      | some _ => .error (.invalidPackage "package tree is not a directory")
  | some _ => .error (.failed "stat rollback backups: not a directory")

/-! ### Backups

The backup directory is inside the package's own, under a name that no package may use. -/

/-- A time in the form `20060102T150405.000000000Z`. -/
def stamp (t : Time) : List Char :=
  pad 4 t.year ++ (pad 2 t.month ++ (pad 2 t.day ++ 'T' :: (pad 2 t.hour ++ (pad 2 t.minute ++
    (pad 2 t.second ++ '.' :: (pad 9 t.nanosecond ++ ['Z']))))))

/-- `backupName`: the time, the kind and the version, the latter without characters that mean
something in a path. -/
def backupName (now : Time) (kind version : String) : String :=
  let version := replaceAll [("/", "_"), ("\\", "_"), (":", "_")] (trimSpace version)
  let version := if version = "" then "unknown" else version
  String.ofList (stamp now ++ '-' :: (kind.toList ++ '-' :: version.toList))

/-- What the rollback directory of a package has a backup with a manifest under. -/
def candidates (bs : List (String × Tree)) : List String :=
  (bs.filter fun b => b.2.isDir && (b.2.get ["manifest.json"]).isSome).map Prod.fst

/-- `latestVerifiedRollback`: the name of the backup. -/
def latestVerifiedRollback (S : Std) (keys : TrustedKeyring) (kind : String)
    (target : Option Tree) : Except Err String :=
  match target with
  | none => .error .noRollback
  | some (.dir es) =>
      match es.lookup ".rollback" with
      | none => .error .noRollback
      | some (.dir bs) =>
          let sorted := (candidates bs).insertionSort fun a b => a ≤ b
          match sorted.reverse.find? fun name =>
              match statusFromDir S keys kind (bs.lookup name) with
              | .ok st => decide (st.state = .verified)
              | .error _ => false with
          | some name => .ok name
          | none => .error .noRollback
      | some _ => .error (.failed "read rollback directory: not a directory")
  | some _ => .error (.failed "read rollback directory: not a directory")

/-- The package is not in the state that is asked for. -/
def notVerified (what : String) (st : Status) : Err :=
  .invalidPackage (what ++ " is " ++ st.state.text ++ ": " ++ join st.blockers ", ")

/-- Put the values of a backup into the directory of the package. -/
def placeCopies (path : List String) (target : Option Tree) : List Tree → Except Err (List Tree)
  | [] => .ok []
  | copy :: copies =>
      match Tree.update (.failed "create package directory: not a directory") (fun _ => .ok copy)
          path target with
      | .error err => .error err
      | .ok placed => (placeCopies path target copies).map (placed :: ·)

/-- `backupCurrent`: the name of the backup, if one was made, with the values that the directory
goes through. -/
def backupCurrent (S : Std) (keys : TrustedKeyring) (kind : String) (now : Time)
    (target : Option Tree) : Except Err (Option String) × List Tree :=
  match target with
  | none => (.ok none, [])
  | some (.dir es) =>
      if es.lookup "manifest.json" = none then (.ok none, [])
      else
        match statusFromDir S keys kind target with
        | .error err => (.error err, [])
        | .ok st =>
            if st.state ≠ .verified then (.ok none, [])
            else
              match readManifest S target with
              | .error err => (.error err, [])
              | .ok (m, raw) =>
                  let name := backupName now kind st.version
                  let path := [".rollback", name]
                  let copied := copyPackageFiles target (target.bind (Lib.Tree.get path)) raw m
                  match placeCopies path target copied.2 with
                  | .error err => (.error err, [])
                  | .ok moments =>
                      match copied.1 with
                      | .error err => (.error err, moments)
                      | .ok () =>
                          match statusFromDir S keys kind copied.2.getLast? with
                          | .error err => (.error err, moments)
                          | .ok st =>
                              if st.state ≠ .verified then
                                (.error (notVerified "rollback backup" st), moments)
                              else (.ok (some name), moments)
  | some _ => (.error (.failed "stat current manifest: not a directory"), [])

/-! ### Promotion

A promotion is given what the file system makes of its renames. Its moments are the trees that
somebody who looks at the directory meanwhile can see. -/

/-- How the renames of a call end. -/
structure Renames where
  aside : Except String Unit
  activate : Except String Unit
  restore : Except String Unit

/-- `swapPackageDir`, with the values that the directory goes through. -/
def swapPackageDir (renames : Renames) (target : Option Tree) (staging : Tree) :
    Except Err Unit × List (Option Tree) :=
  match target with
  | none =>
      match renames.activate with
      | .error err => (.error (.activate err none), [])
      | .ok () => (.ok (), [some staging])
  | some (.dir es) =>
      match renames.aside with
      | .error err => (.error (.failed ("move previous package aside: " ++ err)), [])
      | .ok () =>
          match renames.activate, renames.restore with
          | .ok (), _ => (.ok (), [none, some staging])
          | .error err, .ok () => (.error (.activate err none), [none, some (.dir es)])
          | .error err, .error restoreErr =>
              (.error (.activate err (some restoreErr)), [none])
  | some _ => (.error (.invalidPackage "installed package path is not a directory"), [])

/-- A directory that a package is promoted from. -/
structure Source where
  dir : String
  abs : String
  tree : Option Tree

/-- The last value of the directory. -/
def lastOf (target : Option Tree) (moments : List (Option Tree)) : Option Tree :=
  moments.getLast?.getD target

/-- The first half of `promote`: the package is checked, staged and checked again. -/
def stage (S : Std) (keys : TrustedKeyring) (kind targetAbs : String) (source : Source) :
    Except Err Tree :=
  match statusFromDir S keys kind source.tree with
  | .error err => .error err
  | .ok st =>
      if st.state ≠ .verified then .error (notVerified (kind ++ " package") st)
      else if source.abs = targetAbs then
        .error (.invalidPackage "source already matches installed package")
      else
        match readManifest S source.tree with
        | .error err => .error err
        | .ok (m, raw) =>
            match copyPackageFiles source.tree none raw m with
            | (.error err, _) => .error err
            | (.ok (), copies) =>
                let staging := copies.getLast?.getD (.dir [])
                match statusFromDir S keys kind (some staging) with
                | .error err => .error err
                | .ok st =>
                    if st.state ≠ .verified then .error (notVerified "staged package" st)
                    else .ok staging

/-- The end of `promote`: the backups are copied to the staged package, which is then put in
place. -/
def replacePackage (renames : Renames) (target : Option Tree) (staging : Tree) :
    Except Err Unit × List (Option Tree) :=
  match copyRollbackBackups target staging with
  | .error err => (.error err, [])
  | .ok staging => swapPackageDir renames target staging

/-- `promote`, with the values that the directory goes through. -/
def promote (S : Std) (keys : TrustedKeyring) (kind targetAbs : String) (source : Source)
    (createBackup : Bool) (now : Time) (renames : Renames) (target : Option Tree) :
    Except Err (Option String) × List (Option Tree) :=
  match stage S keys kind targetAbs source with
  | .error err => (.error err, [])
  | .ok staging =>
      if createBackup then
        match backupCurrent S keys kind now target with
        | (.error err, moments) => (.error err, moments.map some)
        | (.ok created, moments) =>
            let moments := moments.map some
            let swapped := replacePackage renames (lastOf target moments) staging
            (swapped.1.map fun _ => created, moments ++ swapped.2)
      else
        let swapped := replacePackage renames target staging
        (swapped.1.map fun _ => none, swapped.2)

/-- `ActionResult`, as far as it says what was done. -/
structure ActionResult where
  status : Status
  rollbackPath : Option String
  restoredRollbackPath : Option String

/-- `Install`, with the values that the directory goes through. -/
def Install (S : Std) (keys : TrustedKeyring) (kind targetAbs : String) (source : Source)
    (now : Time) (renames : Renames) (target : Option Tree) :
    Except Err ActionResult × List (Option Tree) :=
  if trimSpace source.dir = "" then (.error (.invalidPackage "source path is required"), [])
  else
    match expectedForKind kind with
    | none => (.error (.invalidKind kind), [])
    | some exp =>
        match loadFromManifest S keys exp source.tree with
        | .error err => (.error err, [])
        | .ok st =>
            if st.state ≠ .verified then (.error (notVerified (kind ++ " package") st), [])
            else
              match promote S keys kind targetAbs source true now renames target with
              | (.error err, moments) => (.error err, moments)
              | (.ok created, moments) =>
                  match statusFromDir S keys kind (lastOf target moments) with
                  | .error err => (.error err, moments)
                  | .ok current => (.ok ⟨current, created, none⟩, moments)

/-- The directory of a backup. -/
def backupSource (targetAbs selected : String) (target : Option Tree) : Source where
  dir := targetAbs ++ "/.rollback/" ++ selected
  abs := targetAbs ++ "/.rollback/" ++ selected
  tree := target.bind (Lib.Tree.get [".rollback", selected])

/-- `RollbackPackage`, with the values that the directory goes through. -/
def RollbackPackage (S : Std) (keys : TrustedKeyring) (kind targetAbs : String) (now : Time)
    (renames : Renames) (target : Option Tree) : Except Err ActionResult × List (Option Tree) :=
  match expectedForKind kind with
  | none => (.error (.invalidKind kind), [])
  | some _ =>
      match latestVerifiedRollback S keys kind target with
      | .error err => (.error err, [])
      | .ok selected =>
          match statusFromDir S keys kind (backupSource targetAbs selected target).tree with
          | .error err => (.error err, [])
          | .ok st =>
              if st.state ≠ .verified then (.error (notVerified "rollback package" st), [])
              else
                match backupCurrent S keys kind now target with
                | (.error err, moments) => (.error err, moments.map some)
                | (.ok created, saved) =>
                    let saved := saved.map some
                    let target := lastOf target saved
                    match promote S keys kind targetAbs (backupSource targetAbs selected target)
                        false now renames target with
                    | (.error err, moments) => (.error err, saved ++ moments)
                    | (.ok _, moments) =>
                        match statusFromDir S keys kind (lastOf target moments) with
                        | .error err => (.error err, saved ++ moments)
                        | .ok current => (.ok ⟨current, created, some selected⟩, saved ++ moments)

/-- A call. -/
inductive Call
  | install (source : Source) (now : Time) (renames : Renames)
  | rollback (now : Time) (renames : Renames)

/-- Run a call on the directory of the kind. -/
def execCall (S : Std) (keys : TrustedKeyring) (kind targetAbs : String) (call : Call)
    (target : Option Tree) : (Except Err ActionResult × List (Option Tree)) × Option Tree :=
  let result := match call with
    | .install source now renames => Install S keys kind targetAbs source now renames target
    | .rollback now renames => RollbackPackage S keys kind targetAbs now renames target
  (result, lastOf target result.2)

/-! ### Copies are packages

A copy of a verified package has the same manifest and the same listed files, and that is all
verification looks at. -/

theorem reserved_manifest : reservedName "manifest.json" = true := by decide

theorem reserved_rollback : reservedName ".rollback" = true := by decide

/-- A listed file is not under a reserved name. -/
theorem safePackagePath_apart {rel name : String} {path : List String}
    (h : safePackagePath rel = some path) (hname : reservedName name = true) :
    Tree.Apart path [name] ∧ Tree.Apart [name] path := by
  unfold safePackagePath at h
  split_ifs at h
  dsimp only at h
  split_ifs at h
  split at h
  · cases h
  · rename_i first rest hsplit
    split_ifs at h with hreserved
    cases h
    have hne : first ≠ name := by
      rintro rfl
      exact hreserved (.inl hname)
    exact ⟨.inl hne, .inl hne.symm⟩

theorem hasLinkOnTheWay_part {t whole : Tree} (ht : Tree.Part t whole) {path : List String}
    {bytes : List UInt8} (h : whole.get path = some (.file bytes)) :
    hasLinkOnTheWay path t = false := by
  induction path generalizing t whole with
  | nil => rfl
  | cons n path ih =>
      cases path with
      | nil => rfl
      | cons m path =>
          cases whole with
          | file b => cases h
          | other => cases h
          | dir ws =>
              rcases ht [] t rfl with ⟨hdir, -⟩ | ⟨b, -, hb⟩
              · cases t with
                | file b => cases hdir
                | other => cases hdir
                | dir es =>
                    rw [hasLinkOnTheWay]
                    cases hc : es.lookup n with
                    | none => rfl
                    | some c =>
                        obtain ⟨w, hw, hcw⟩ := ht.child hc
                        rw [Tree.get_cons_of_child (t := .dir ws) hw] at h
                        have hnext := ih hcw h
                        cases c with
                        | other =>
                            rcases hcw [] _ rfl with ⟨hdir, -⟩ | ⟨b, hb, -⟩
                            · cases hdir
                            · cases hb
                        | file b => exact hnext
                        | dir cs => exact hnext
              · cases hb

/-- What the copies of a directory's listed files leave behind. -/
structure Copied (source target : Tree) (fs : List File) (last : Tree) : Prop where
  part : last.Part source
  clean : last.clean = true
  files : ∀ f ∈ fs, safeExistingPackageFilePath (some last) f.path =
    safeExistingPackageFilePath (some source) f.path
  kept : ∀ path bytes, target.get path = some (.file bytes) → last.get path = some (.file bytes)
  reserved : ∀ name, reservedName name = true → last.get [name] = target.get [name]

theorem writeFile_ok {what : String} {bytes : List UInt8} (t : Option Tree)
    (h : t.isNone ∨ ∃ b, t = some (.file b)) : writeFile what bytes t = .ok (.file bytes) := by
  rcases h with h | ⟨b, rfl⟩
  · rw [Option.isNone_iff_eq_none.mp h]
    rfl
  · rfl

theorem writeFile_eq {what : String} {bytes : List UInt8} {t : Option Tree} {x : Tree}
    (h : writeFile what bytes t = .ok x) : x = .file bytes := by
  unfold writeFile at h
  split at h <;> cases h <;> rfl

/-- A file of the source can be written to a part of it. -/
theorem write_part (blocked : Err) (what : String) {source target : Tree} {path : List String}
    {bytes : List UInt8} (hpart : target.Part source) (hclean : target.clean = true)
    (hsource : source.get path = some (.file bytes)) :
    ∃ next, Tree.update blocked (writeFile what bytes) path (some target) = .ok next ∧
      next.Part source ∧ next.clean = true ∧ next.get path = some (.file bytes) ∧
      (∀ q b, target.get q = some (.file b) → next.get q = some (.file b)) ∧
      ∀ q, Tree.Apart path q → next.get q = target.get q := by
  obtain ⟨next, hnext, hnextPart⟩ := Tree.update_part (f := writeFile what bytes) (t := some target)
    writeFile_ok (fun u hu => Option.some.inj hu ▸ hpart) hsource
  obtain ⟨x, hx, hget⟩ := Tree.get_update_self hnext
  obtain rfl := writeFile_eq hx
  have hnextClean : next.clean = true :=
    Tree.clean_update (fun t x hx => by rw [writeFile_eq hx]; rfl)
      (fun u hu => Option.some.inj hu ▸ hclean) hnext
  have hapart : ∀ q, Tree.Apart path q → next.get q = target.get q :=
    fun q hq => Tree.get_update_of_apart hq hnext
  refine ⟨next, hnext, hnextPart, hnextClean, hget, fun q b hq => ?_, hapart⟩
  -- both are files of the source
  have hsourceq : source.get q = some (.file b) := by
    rcases hpart q _ hq with ⟨hdir, -⟩ | ⟨c, hc, hsq⟩
    · cases hdir
    · cases hc
      exact hsq
  rcases Tree.apart_of_files hsource hsourceq with rfl | hap
  · rw [hget, ← hsource, hsourceq]
  · rw [hapart q hap, hq]

/-- The loop of `copyPackageFiles`, into a part of the source. -/
theorem copyFiles_ok {source target : Tree} {fs : List File} (hpart : target.Part source)
    (hclean : target.clean = true)
    (hfs : ∀ f ∈ fs, f.path ≠ "" ∧
      ∃ raw, safeExistingPackageFilePath (some source) f.path = some (.file raw)) :
    ∃ copies last, copyFiles (some source) fs target = (.ok (), copies) ∧
      (target :: copies).getLast? = some last ∧ Copied source target fs last := by
  induction fs generalizing target with
  | nil =>
      exact ⟨[], target, rfl, rfl, hpart, hclean, (fun f hf => by cases hf), fun _ _ h => h,
        fun _ _ => rfl⟩
  | cons f fs ih =>
      obtain ⟨⟨hpath, raw, hraw⟩, hrest⟩ := List.forall_mem_cons.mp hfs
      obtain ⟨path, hsafe, hget⟩ := Option.bind_eq_some_iff.mp hraw
      obtain ⟨next, hnext, hnextPart, hnextClean, hself, hkept, hapart⟩ :=
        write_part (.failed "create package file directory: not a directory")
          "write package file" hpart hclean hget
      have hcopy : copyListed (some source) f target = .ok next := by
        have hlink : hasLinkOnTheWay path target = false := hasLinkOnTheWay_part hpart hget
        have hnew : safeNewPackageFilePath target f.path = some path := by
          rw [safeNewPackageFilePath, hsafe, Option.bind_some, hlink]
          rfl
        rw [copyListed, hraw]
        dsimp only
        rw [if_neg hpath, hnew]
        exact hnext
      obtain ⟨copies, last, hcopies, hlast, hcopied⟩ := ih hnextPart hnextClean hrest
      refine ⟨next :: copies, last, ?_, ?_, hcopied.part, hcopied.clean, ?_, ?_, ?_⟩
      · rw [copyFiles, hcopy]
        dsimp only
        rw [hcopies]
      · rw [List.getLast?_cons_cons]
        exact hlast
      · refine List.forall_mem_cons.mpr ⟨?_, hcopied.files⟩
        rw [safeExistingPackageFilePath, safeExistingPackageFilePath, hsafe, Option.bind_some,
          Option.bind_some, Option.bind_some, Option.bind_some, hcopied.kept path raw hself]
        exact hget.symm
      · exact fun q b hq => hcopied.kept q b (hkept q b hq)
      · intro name hname
        rw [hcopied.reserved name hname, hapart _ (safePackagePath_apart hsafe hname).1]

/-- A directory with a package whose files are as listed is **copied as that package**. -/
theorem copyPackageFiles_ok {S : Std} {source : Option Tree} {raw : List UInt8} {m : Manifest}
    (hraw : readManifestRaw source = .ok raw) (hm : S.unmarshal raw = .ok m)
    (hfiles : ∀ f ∈ m.files, fileBlocker S source f = none) :
    ∃ copies last, copyPackageFiles source none raw m = (.ok (), copies) ∧
      copies.getLast? = some last ∧ SamePackage S source (some last) ∧ last.clean = true ∧
      last.isDir = true ∧ last.get [".rollback"] = none := by
  obtain ⟨es, rfl, hmanifest, hsize⟩ := readManifestRaw_ok hraw
  have hsource : (Tree.dir es).get ["manifest.json"] = some (.file raw) :=
    Tree.get_cons_of_child (t := .dir es) hmanifest
  obtain ⟨written, hwritten, hpart, hclean, hself, -, hapart⟩ :=
    write_part (.failed "write package manifest: not a directory") "write package manifest"
      (Tree.part_empty rfl) rfl hsource
  have hlisted : ∀ f ∈ m.files, f.path ≠ "" ∧
      ∃ raw, safeExistingPackageFilePath (some (.dir es)) f.path = some (.file raw) := by
    intro f hf
    obtain ⟨raw, hfile, hpath, -⟩ := fileBlocker_eq_none (hfiles f hf)
    exact ⟨hpath, raw, hfile⟩
  obtain ⟨copies, last, hcopies, hlast, hcopied⟩ := copyFiles_ok hpart hclean hlisted
  have hmanifest' : last.get ["manifest.json"] = some (.file raw) := by
    rw [hcopied.reserved _ reserved_manifest, hself]
  refine ⟨.dir [] :: written :: copies, last, ?_, ?_, ⟨?_, ?_⟩, hcopied.clean, ?_, ?_⟩
  · rw [copyPackageFiles, makeDir]
    dsimp only
    rw [hwritten]
    dsimp only
    rw [hcopies]
  · rw [List.getLast?_cons_cons]
    exact hlast
  · rw [hraw]
    exact readManifestRaw_of_get hmanifest' hsize
  · intro raw' m' hraw' hm' f hf
    cases hraw.symm.trans hraw'
    cases hm.symm.trans hm'
    exact hcopied.files f hf
  · cases last with
    | dir ls => rfl
    | file b => cases hmanifest'
    | other => cases hmanifest'
  · have hap : Tree.Apart ["manifest.json"] [".rollback"] := Or.inl (by decide)
    rw [hcopied.reserved _ reserved_rollback, hapart _ hap]
    rfl

/-- The backups of a package's directory. -/
def Backups (es bs : List (String × Tree)) : Prop :=
  es.lookup ".rollback" = some (.dir bs) ∨ es.lookup ".rollback" = none ∧ bs = []

/-- The directory with other backups has the same package. -/
theorem samePackage_rollback (S : Std) (es : List (String × Tree)) (x : Tree) :
    SamePackage S (some (.dir es)) (some (.dir (Tree.setEntry ".rollback" x es))) := by
  constructor
  · have hlookup : (Tree.setEntry ".rollback" x es).lookup "manifest.json" =
        es.lookup "manifest.json" := Tree.lookup_setEntry_of_ne (by decide) x es
    rw [readManifestRaw, readManifestRaw, hlookup]
  · intro raw m _ _ f _
    cases hsafe : safePackagePath f.path with
    | none => rw [safeExistingPackageFilePath, safeExistingPackageFilePath, hsafe]; rfl
    | some path =>
        rw [safeExistingPackageFilePath, safeExistingPackageFilePath, hsafe]
        have hap := (safePackagePath_apart hsafe reserved_rollback).2
        cases path with
        | nil => exact hap.elim
        | cons n path =>
            have hne : n ≠ ".rollback" := by
              rintro rfl
              rcases hap with hne | hap
              · exact hne rfl
              · cases path <;> exact hap
            exact Tree.get_setEntry_of_ne hne path x es

/-- A backup is put into the directory. -/
theorem update_backup {es bs : List (String × Tree)} (h : Backups es bs) (blocked : Err)
    (name : String) (copy : Tree) :
    Tree.update blocked (fun _ => .ok copy) [".rollback", name] (some (.dir es)) =
      .ok (.dir (Tree.setEntry ".rollback" (.dir (Tree.setEntry name copy bs)) es)) := by
  rcases h with h | ⟨h, rfl⟩
  · rw [Tree.update, h]
    rfl
  · rw [Tree.update, h]
    rfl

theorem placeCopies_ok {es bs : List (String × Tree)} (h : Backups es bs) (name : String)
    (copies : List Tree) :
    placeCopies [".rollback", name] (some (.dir es)) copies = .ok (copies.map fun copy =>
      .dir (Tree.setEntry ".rollback" (.dir (Tree.setEntry name copy bs)) es)) := by
  induction copies with
  | nil => rfl
  | cons copy copies ih =>
      rw [placeCopies, update_backup h]
      dsimp only
      rw [ih]
      rfl

/-- The status of a directory with a verified package, and what it was read from. -/
theorem verified_parts {S : Std} {keys : TrustedKeyring} {kind : String} {dir : Option Tree}
    {st : Status} (hst : statusFromDir S keys kind dir = .ok st) (hv : st.state = .verified) :
    ∃ raw m, readManifestRaw dir = .ok raw ∧ readManifest S dir = .ok (m, raw) ∧
      S.unmarshal raw = .ok m ∧ ∀ f ∈ m.files, fileBlocker S dir f = none := by
  obtain ⟨exp, -, hload⟩ := statusFromDir_ok hst
  obtain ⟨raw, m, hraw, hm, hblockers, -⟩ := loadFromManifest_verified hload hv
  refine ⟨raw, m, hraw, ?_, hm, files_of_packageBlockers hblockers⟩
  rw [readManifest, hraw]
  dsimp only
  rw [hm]

/-- **A verified package is backed up** under the name of the call. -/
theorem backupCurrent_ok {S : Std} {keys : TrustedKeyring} {kind : String} {now : Time}
    {es bs : List (String × Tree)} {st : Status}
    (hst : statusFromDir S keys kind (some (.dir es)) = .ok st) (hv : st.state = .verified)
    (hbs : Backups es bs) (hfresh : bs.lookup (backupName now kind st.version) = none) :
    ∃ copy moments, backupCurrent S keys kind now (some (.dir es)) =
        (.ok (some (backupName now kind st.version)), moments) ∧
      moments.getLast? = some (.dir (Tree.setEntry ".rollback"
        (.dir (Tree.setEntry (backupName now kind st.version) copy bs)) es)) ∧
      SamePackage S (some (.dir es)) (some copy) ∧ copy.clean = true ∧ copy.isDir = true ∧
      ∀ t ∈ moments, SamePackage S (some (.dir es)) (some t) := by
  obtain ⟨raw, m, hraw, hread, hm, hfiles⟩ := verified_parts hst hv
  obtain ⟨copies, copy, hcopies, hlast, hsame, hclean, hdir, -⟩ := copyPackageFiles_ok hraw hm hfiles
  have hmanifest : es.lookup "manifest.json" ≠ none := by
    obtain ⟨es', hes, hmanifest, -⟩ := readManifestRaw_ok hraw
    cases hes
    rw [hmanifest]
    exact Option.some_ne_none _
  -- the name of the backup is free, so the copy starts from nothing
  have hnone : (some (Tree.dir es)).bind
      (Lib.Tree.get [".rollback", backupName now kind st.version]) = none := by
    rcases hbs with hbs | ⟨hbs, rfl⟩
    · rw [Option.bind_some, Tree.get_cons_of_child (t := .dir es) hbs, Lib.Tree.get]
      exact Option.bind_eq_none_iff.mpr fun c hc => by cases hfresh.symm.trans hc
    · rw [Option.bind_some, Lib.Tree.get]
      exact Option.bind_eq_none_iff.mpr fun c hc => by cases hbs.symm.trans hc
  refine ⟨copy, copies.map fun copy => .dir (Tree.setEntry ".rollback"
      (.dir (Tree.setEntry (backupName now kind st.version) copy bs)) es), ?_, ?_, hsame, hclean,
    hdir, ?_⟩
  · have hnot : ¬ st.state ≠ .verified := fun h => h hv
    rw [backupCurrent, if_neg hmanifest, hst]
    dsimp only
    rw [if_neg hnot, hread]
    dsimp only
    rw [hnone, hcopies, placeCopies_ok hbs]
    dsimp only
    rw [hlast, statusFromDir_congr hsame, hst]
    dsimp only
    rw [if_neg hnot]
  · rw [List.getLast?_map, hlast]
    rfl
  · -- a backup is no file of the package, at any moment
    intro t ht
    obtain ⟨c, -, rfl⟩ := List.mem_map.mp ht
    exact samePackage_rollback S es _

mutual

/-- A clean tree is copied as it is. -/
theorem copyTree_clean : ∀ {t : Tree}, t.clean = true → copyTree t none = .ok t
  | .file _, _ => rfl
  | .dir es, h => by
      rw [copyTree, copyEntries_clean h]
      rfl
  | .other, h => by cases h

/-- A clean tree is copied entry by entry. -/
theorem copyEntries_clean : ∀ {es : List (String × Tree)}, Tree.cleanEntries es = true →
    copyEntries es = .ok es
  | [], _ => rfl
  | (name, t) :: es, h => by
      rw [Tree.cleanEntries, Bool.and_eq_true] at h
      rw [copyEntries, copyTree_clean h.1, copyEntries_clean h.2]

end

end Phragma.Contentpkg
