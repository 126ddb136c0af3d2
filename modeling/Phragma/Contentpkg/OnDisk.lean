import Phragma.Contentpkg.Promote
import Phragma.Go.Filepath
import Phragma.Go.Scan
import Phragma.Lib.Grown

/-!
# Phragma.Contentpkg.OnDisk

**Where the files of a package are written**, `copyPackageFiles` of
`internal/contentpkg/status.go` with its paths as strings, on the whole file system.

What a listed path may be is decided on several forms of it: the path as given, cleaned, joined
to the base and made relative again. All of them lead to the names of the cleaned path
(`Listed.resolve_eq`), so whatever is made lies on the way to the target directory or below it
(`copyPackageFiles_grown`).

The ways to the two directories have no symbolic links. Below them a link is `Tree.other`, as a
device is; every path through one is refused. Permissions and read or write errors are left out.
-/

namespace Phragma.Contentpkg.OnDisk

open Lib Go

/-! ### Paths of the system

The file system resolves paths link by link. The functions of `os` and `filepath` that the package
code calls are written out on a tree with links. -/

/-- What the system says of a path that leads nowhere. -/
inductive PathErr
  | missing
  | blocked

def PathErr.text : PathErr → String
  | .missing => "no such file or directory"
  | .blocked => "not a directory"

/-- Look up the elements of a path, each of them in a directory. -/
def walkTo (fs : Tree) : List (List Char) → List String → Except PathErr Tree
  | [], here =>
      match fs.get here with
      | some t => .ok t
      | none => .error .missing
  | e :: es, here =>
      match fs.get here with
      | some (.dir _) => walkTo fs es (walk here [e])
      | some _ => .error .blocked
      | none => .error .missing

/-- Where a path begins. -/
def origin (cwd : List String) (path : String) : List String := if isAbs path then [] else cwd

/-- `os.Lstat`: the node at a path, where the last component is not followed. -/
def lstat (cwd : List String) (path : String) (fs : Tree) : Except PathErr Tree :=
  if path = "" then .error .missing else walkTo fs (splitOn '/' path.toList) (origin cwd path)

/-- `filepath.EvalSymlinks`, where there are none. -/
def evalSymlinks (cwd : List String) (path : String) (fs : Tree) : Option String :=
  if path = "" then some "."
  else
    match lstat cwd path fs with
    | .ok _ => some (cleanPath path)
    | .error _ => none

/-- Walk the elements of a path and make the directories that are missing. -/
def mkdirWalk (failed : Err) : List (List Char) → List String → Tree → Except Err Unit × Tree
  | [], here, fs => (if fs.kindAt here = some .dir then .ok () else .error failed, fs)
  | e :: es, here, fs =>
      if fs.kindAt here ≠ some .dir then (.error failed, fs)
      else if fs.kindAt (walk here [e]) ≠ none then mkdirWalk failed es (walk here [e]) fs
      else
        match Tree.update failed makeDir (walk here [e]) (some fs) with
        | .error err => (.error err, fs)
        | .ok fs => mkdirWalk failed es (walk here [e]) fs

/-- `os.MkdirAll`, with what is returned when it fails. -/
def mkdirAll (failed : Err) (cwd : List String) (path : String) (fs : Tree) :
    Except Err Unit × Tree :=
  if path = "" then (.error failed, fs)
  else mkdirWalk failed (splitOn '/' path.toList) (origin cwd path) fs

/-- `os.OpenFile` to write, empty or new, and all that is then written. -/
def putFile (what : String) (cwd : List String) (path : String) (bytes : List UInt8) (fs : Tree) :
    Except Err Tree :=
  let elems := splitOn '/' path.toList
  match walkTo fs elems.dropLast (origin cwd path) with
  | .ok (.dir _) =>
      if elems.getLast?.getD [] ∈ [[], ['.'], ['.', '.']] then
        .error (.failed (what ++ ": is a directory"))
      else
        Tree.update (.failed (what ++ ": not a directory")) (writeFile what bytes)
          (resolve cwd path) (some fs)
  | .ok _ => .error (.failed (what ++ ": " ++ PathErr.blocked.text))
  | .error err => .error (.failed (what ++ ": " ++ err.text))

/-! ### Paths of a package

The checks on a listed path, first on the text alone and then on the tree. -/

/-- `reservedPackageRelPath`: the manifest and hidden names are not files of a package. -/
def reservedPackageRelPath (clean : String) : Bool :=
  reservedName ((components clean).headD "")

/-- `safePackagePath`: the listed path below the base, unless the text of it leads out. -/
def safePackagePath (base rel : String) : Option String :=
  if isAbs rel then none
  else
    let clean := cleanPath rel
    if clean = "." ∨ hasPrefixList clean.toList "../".toList ∨ clean = ".." then none
    else if reservedPackageRelPath clean then none
    else
      let path := joinPath [base, clean]
      match relPath base path with
      | none => none
      | some relToBase => if hasPrefixList relToBase.toList "..".toList then none else some path

/-- `pathWithinDir`: is a path below a directory, by their texts? -/
def pathWithinDir (base path : String) : Bool :=
  match relPath (cleanPath base) (cleanPath path) with
  | none => false
  | some rel => rel ≠ ".." && !hasPrefixList rel.toList "../".toList

/-- The loop of `pathHasSymlinkComponent`. -/
def symlinkLoop (cwd : List String) (includeFinal : Bool) (fs : Tree) :
    List String → String → Bool
  | [], _ => false
  | part :: parts, current =>
      let current := joinPath [current, part]
      match lstat cwd current fs with
      | .error .missing => includeFinal
      | .error .blocked => true
      | .ok .other => true
      | .ok _ => symlinkLoop cwd includeFinal fs parts current

/-- `pathHasSymlinkComponent`: is there a link on the way to a listed path, or something that cannot
be looked at? -/
def pathHasSymlinkComponent (cwd : List String) (base rel : String) (includeFinal : Bool)
    (fs : Tree) : Bool :=
  let clean := cleanPath rel
  if clean = "." ∨ clean = ".." then true
  else
    let parts := components clean
    symlinkLoop cwd includeFinal fs (if includeFinal then parts else parts.dropLast) base

/-- `safeExistingPackageFilePath`: the place of a listed file to read from, with base and path
resolved before they are compared. -/
def safeExistingPackageFilePath (cwd : List String) (base rel : String) (fs : Tree) :
    Option String :=
  match safePackagePath base rel with
  | none => none
  | some path =>
      match evalSymlinks cwd base fs, evalSymlinks cwd path fs with
      | some baseReal, some pathReal =>
          if !pathWithinDir baseReal pathReal || pathHasSymlinkComponent cwd base rel true fs then
            none
          else some path
      | _, _ => none

/-- `safeNewPackageFilePath`: the place of a listed file to write to. It need not exist, so only the
base is resolved. -/
def safeNewPackageFilePath (cwd : List String) (base rel : String) (fs : Tree) : Option String :=
  match safePackagePath base rel with
  | none => none
  | some _ =>
      match evalSymlinks cwd base fs with
      | none => none
      | some baseReal =>
          let path := joinPath [baseReal, cleanPath rel]
          if !pathWithinDir baseReal path || pathHasSymlinkComponent cwd baseReal rel false fs then
            none
          else some path

/-! ### Copying

Read, make the directory, write to a temporary file, rename: the calls of `copyRegularFile` one
after another, each on the tree that the one before has left. -/

/-- `copyRegularFile`: copy one regular file. Anything else at the source is refused. -/
def copyRegularFile (cwd : List String) (src dst : String) (fs : Tree) : Except Err Unit × Tree :=
  match lstat cwd src fs with
  | .error err => (.error (.invalidPackage ("read package file " ++ src ++ ": " ++ err.text)), fs)
  | .ok (.file raw) =>
      match mkdirAll (.failed "create package file directory: not a directory") cwd (dirPath dst)
          fs with
      | (.error err, fs) => (.error err, fs)
      | (.ok (), fs) =>
          -- the destination is emptied before the source is read
          let copied := if resolve cwd src = resolve cwd dst then [] else raw
          match putFile ("write package file " ++ dst) cwd dst copied fs with
          | .error err => (.error err, fs)
          | .ok fs => (.ok (), fs)
  | .ok _ =>
      (.error (.invalidPackage ("package file " ++ src ++ " is not a regular file")), fs)

/-- The body of the loop in `copyPackageFiles`. -/
def copyListed (cwd : List String) (sourceDir targetDir : String) (f : File) (fs : Tree) :
    Except Err Unit × Tree :=
  match safeExistingPackageFilePath cwd sourceDir f.path fs with
  | none => (.error (.invalidPackage ("unsafe package path " ++ quote f.path)), fs)
  | some src =>
      if f.path = "" then (.error (.invalidPackage ("unsafe package path " ++ quote f.path)), fs)
      else
        match safeNewPackageFilePath cwd targetDir f.path fs with
        | none => (.error (.invalidPackage ("unsafe target path " ++ quote f.path)), fs)
        | some dst => copyRegularFile cwd src dst fs

/-- The loop of `copyPackageFiles`. -/
def copyFiles (cwd : List String) (sourceDir targetDir : String) :
    List File → Tree → Except Err Unit × Tree
  | [], fs => (.ok (), fs)
  | f :: files, fs =>
      match copyListed cwd sourceDir targetDir f fs with
      | (.error err, fs) => (.error err, fs)
      | (.ok (), fs) => copyFiles cwd sourceDir targetDir files fs

/-- `copyPackageFiles`: what it returns and the file system it leaves. -/
def copyPackageFiles (cwd : List String) (sourceDir targetDir : String) (manifestRaw : List UInt8)
    (m : Manifest) (fs : Tree) : Except Err Unit × Tree :=
  match mkdirAll (.failed "create package directory: not a directory") cwd targetDir fs with
  | (.error err, fs) => (.error err, fs)
  | (.ok (), fs) =>
      match putFile "write package manifest" cwd (joinPath [targetDir, "manifest.json"])
          manifestRaw fs with
      | .error err => (.error err, fs)
      | .ok fs => copyFiles cwd sourceDir targetDir m.files fs

/-! ### What the system's calls find and make

How each call relates the tree before to the tree after, for paths whose components are plain
names. -/

theorem walkTo_ok {fs t : Tree} {es : List (List Char)} {here : List String}
    (h : walkTo fs es here = .ok t) : fs.get (walk here es) = some t := by
  induction es generalizing here with
  | nil =>
      rw [walkTo] at h
      rw [walk_nil]
      split at h
      · next heq => cases h; exact heq
      · cases h
  | cons e es ih =>
      rw [walkTo] at h
      split at h
      · rw [← List.singleton_append, walk_append]
        exact ih h
      · cases h
      · cases h

/-- What is walked from is there. -/
theorem kindAt_of_walkTo {fs t : Tree} {es : List (List Char)} {here : List String}
    (h : walkTo fs es here = .ok t) : fs.kindAt here ≠ none := by
  intro hnone
  have hget : fs.get here = none := Option.map_eq_none_iff.mp hnone
  cases es with
  | nil => rw [walkTo, hget] at h; cases h
  | cons e es => rw [walkTo, hget] at h; cases h

theorem lstat_ok {cwd : List String} {path : String} {fs t : Tree}
    (h : lstat cwd path fs = .ok t) : fs.get (resolve cwd path) = some t := by
  unfold lstat at h
  split at h
  · cases h
  · exact walkTo_ok h

/-- A name leads from a directory to an entry, everything else to a directory above. -/
theorem walk_cases (here : List String) (e : List Char) :
    (IsName e ∧ walk here [e] = here ++ [String.ofList e]) ∨
      (¬ IsName e ∧ walk here [e] <+: here) := by
  by_cases hname : IsName e
  · exact .inl ⟨hname, walk_names (by simpa using hname) here⟩
  · refine .inr ⟨hname, ?_⟩
    by_cases hskip : e = [] ∨ e = ['.']
    · simp [walk, walkStep, hskip]
    · have hup : e = ['.', '.'] := by
        by_contra hup
        exact hname ⟨fun h => hskip (.inl h), fun h => hskip (.inr h), hup⟩
      subst hup
      simp [walk, walkStep, List.dropLast_prefix]

/-- The directories that a call makes. -/
def OnTheWay (path : List String) (p : List String) (k : Tree.Kind) : Prop :=
  p <+: path ∧ k = .dir

/-- One directory is made in another. -/
theorem grown_makeDir {failed : Err} {fs fs' : Tree} {here : List String} {name : String}
    (hhere : fs.kindAt here = some .dir) (hnone : fs.kindAt (here ++ [name]) = none)
    (h : Tree.update failed makeDir (here ++ [name]) (some fs) = .ok fs') :
    fs.Grown (OnTheWay (here ++ [name])) fs' := by
  have hget : fs.get (here ++ [name]) = none := Option.map_eq_none_iff.mp hnone
  refine Tree.grown_update hhere (fun x hx => ?_) (fun x hx => ?_) h
  · cases hget.symm.trans hx
  · rw [hget] at hx
    cases hx
    exact ⟨Tree.leaf_dir, .inr ⟨hnone, List.prefix_rfl, rfl⟩⟩

/-- Along names, what is made is on the way to the last of them. -/
theorem grown_mkdirWalk_names {failed : Err} {names : List (List Char)}
    (hnames : ∀ e ∈ names, IsName e) (here : List String) (fs : Tree) :
    fs.Grown (OnTheWay (walk here names)) (mkdirWalk failed names here fs).2 := by
  induction names generalizing here fs with
  | nil => exact Tree.Grown.refl _ fs
  | cons e names ih =>
      obtain ⟨he, hrest⟩ := List.forall_mem_cons.mp hnames
      have hstep : walk here [e] = here ++ [String.ofList e] := walk_names (by simpa using he) here
      rw [← List.singleton_append, walk_append, List.singleton_append, mkdirWalk]
      split
      · exact Tree.Grown.refl _ fs
      · next hdir =>
          split
          · exact ih hrest _ fs
          · next hnone =>
              split
              · exact Tree.Grown.refl _ fs
              · next made hmade =>
                  rw [hstep] at hmade hnone
                  have hgrown := grown_makeDir (not_not.mp hdir) (not_not.mp hnone) hmade
                  refine (hgrown.mono fun p k hp => ⟨hp.1.trans ?_, hp.2⟩).trans (ih hrest _ made)
                  rw [walk_names hrest, hstep]
                  exact List.prefix_append _ _

/-- Before the names nothing is made. -/
theorem grown_mkdirWalk {failed : Err} {ups names : List (List Char)}
    (hups : ∀ e ∈ ups, ¬ IsName e) (hnames : ∀ e ∈ names, IsName e) (here : List String)
    (fs : Tree) :
    fs.Grown (OnTheWay (walk here (ups ++ names))) (mkdirWalk failed (ups ++ names) here fs).2 := by
  induction ups generalizing here with
  | nil => exact grown_mkdirWalk_names hnames here fs
  | cons e ups ih =>
      obtain ⟨he, hrest⟩ := List.forall_mem_cons.mp hups
      have habove : walk here [e] <+: here :=
        (walk_cases here e).elim (fun h => absurd h.1 he) And.right
      rw [List.cons_append, ← List.singleton_append, walk_append, List.singleton_append, mkdirWalk]
      split
      · exact Tree.Grown.refl _ fs
      · next hdir =>
          rw [if_pos]
          · exact ih hrest _
          · refine Tree.kindAt_of_isPrefix habove ?_
            rw [not_not.mp hdir]
            exact Option.some_ne_none _

/-- **What `MkdirAll` makes** of a cleaned path is on the way there. -/
theorem grown_mkdirAll (failed : Err) (cwd : List String) (s : String) (fs : Tree) :
    fs.Grown (OnTheWay (resolve cwd (cleanPath s))) (mkdirAll failed cwd (cleanPath s) fs).2 := by
  unfold mkdirAll
  split
  · exact Tree.Grown.refl _ fs
  · obtain ⟨ups, names, hsplit, hups, hnames⟩ := splitOn_cleanPath s
    rw [hsplit, resolve, hsplit]
    exact grown_mkdirWalk hups hnames _ fs

/-- A directory that is there is not made. -/
theorem mkdirAll_of_lstat {failed : Err} {cwd : List String} {path : String} {fs : Tree}
    {es : List (String × Tree)} (h : lstat cwd path fs = .ok (.dir es)) :
    mkdirAll failed cwd path fs = (.ok (), fs) := by
  have hwalk : ∀ (elems : List (List Char)) (here : List String),
      walkTo fs elems here = .ok (.dir es) → mkdirWalk failed elems here fs = (.ok (), fs) := by
    intro elems
    induction elems with
    | nil =>
        intro here h
        have hget := walkTo_ok h
        rw [walk_nil] at hget
        have hdir : fs.kindAt here = some .dir := Tree.kindAt_of_get hget
        rw [mkdirWalk, if_pos hdir]
    | cons e elems ih =>
        intro here h
        rw [walkTo] at h
        split at h
        · next ds hget =>
            have hdir : fs.kindAt here = some .dir := Tree.kindAt_of_get hget
            rw [mkdirWalk, if_neg (not_not.mpr hdir), if_pos (kindAt_of_walkTo h)]
            exact ih _ h
        · cases h
        · cases h
  unfold lstat at h
  unfold mkdirAll
  split
  · next hempty => rw [if_pos hempty] at h; cases h
  · next hempty =>
      rw [if_neg hempty] at h
      exact hwalk _ _ h

/-! ### Writing

A write changes the tree at one path, and the directories above it at most. -/

/-- **What is written**: one file in a directory that exists. -/
theorem putFile_ok {what : String} {cwd : List String} {path : String} {bytes : List UInt8}
    {fs fs' : Tree} (h : putFile what cwd path bytes fs = .ok fs') :
    ∃ way name, resolve cwd path = way ++ [name] ∧ fs.kindAt way = some .dir ∧
      Tree.update (.failed (what ++ ": not a directory")) (writeFile what bytes) (way ++ [name])
        (some fs) = .ok fs' := by
  unfold putFile at h
  dsimp only at h
  split at h
  · next es hwalk =>
      split_ifs at h with hlast
      obtain ⟨elems, e, hsplit⟩ : ∃ elems e, splitOn '/' path.toList = elems ++ [e] :=
        ⟨_, _, (List.dropLast_append_getLast (splitOn_ne_nil '/' path.toList)).symm⟩
      rw [hsplit, List.dropLast_concat] at hwalk
      rw [hsplit, List.getLast?_concat, Option.getD_some] at hlast
      have hname : IsName e := by simpa [IsName] using hlast
      have hres : resolve cwd path = walk (origin cwd path) elems ++ [String.ofList e] := by
        rw [resolve, hsplit, walk_append, walk_names (by simpa using hname)]
        rfl
      refine ⟨_, _, hres, Tree.kindAt_of_get (walkTo_ok hwalk), ?_⟩
      rw [← hres]
      exact h
  · cases h
  · cases h

theorem grown_putFile {may : List String → Tree.Kind → Prop} {what : String} {cwd : List String}
    {path : String} {bytes : List UInt8} {fs fs' : Tree}
    (h : putFile what cwd path bytes fs = .ok fs')
    (hold : ∀ b, fs.kindAt (resolve cwd path) = some (.file b) → b = bytes)
    (hmay : may (resolve cwd path) (.file bytes)) :
    fs.Grown may fs' ∧ fs'.kindAt (resolve cwd path) = some (.file bytes) := by
  obtain ⟨way, name, hres, hway, hupdate⟩ := putFile_ok h
  rw [hres] at hold hmay ⊢
  obtain ⟨x, hx, hget⟩ := Tree.get_update_self hupdate
  rw [Option.bind_some] at hx
  obtain rfl := writeFile_eq hx
  refine ⟨?_, Tree.kindAt_of_get hget⟩
  cases hwas : fs.get (way ++ [name]) with
  | none =>
      refine Tree.grown_update hway (fun x hx => ?_) (fun x hx => ?_) hupdate
      · cases hwas.symm.trans hx
      · rw [writeFile_eq hx]
        exact ⟨Tree.leaf_file bytes, .inr ⟨Option.map_eq_none_iff.mpr hwas, hmay⟩⟩
  | some old =>
      rw [hwas] at hx
      cases old with
      | file b =>
          refine Tree.grown_update hway (fun x hx => ?_) (fun x hx => ?_) hupdate
          · cases hwas.symm.trans hx
            exact Tree.leaf_file b
          · rw [writeFile_eq hx]
            have hb := hold b (Tree.kindAt_of_get hwas)
            exact ⟨Tree.leaf_file bytes, .inl (hb ▸ Tree.kindAt_of_get hwas)⟩
      | dir es => cases hx
      | other => cases hx

/-! ### Where a listed path leads

The two checks together: a path that passes them is the base with plain components after it, none of
which is a link. -/

/-- The names of a listed path. -/
def packageNames (rel : String) : List String := components (cleanPath rel)

/-- A listed path that may be used: below the base, under a name that is not reserved. -/
structure Listed (rel : String) : Prop where
  relative : isAbs (cleanPath rel) = false
  names : ∀ e ∈ splitOn '/' (cleanPath rel).toList, IsName e
  free : reservedName ((packageNames rel).headD "") = false

theorem safePackagePath_ok {base rel path : String} (h : safePackagePath base rel = some path) :
    path = joinPath [base, cleanPath rel] ∧ Listed rel := by
  unfold safePackagePath at h
  split at h
  · cases h
  · next habs =>
      dsimp only at h
      split at h
      · cases h
      · next hdots =>
          rw [not_or, not_or] at hdots
          obtain ⟨hrel, hsplit, -, hnames⟩ := names_of_cleanPath (by simpa using habs) hdots.1
            (by simpa using hdots.2.1) hdots.2.2
          split at h
          · cases h
          · next hfree =>
              split at h
              · cases h
              · split at h
                · cases h
                · refine ⟨(Option.some.inj h).symm, hrel, ?_, Bool.eq_false_iff.mpr hfree⟩
                  rw [hsplit]
                  exact hnames

/-- **A listed path leads below its base**, by the names of the cleaned path. -/
theorem Listed.resolve_eq {rel : String} (h : Listed rel) (cwd : List String) (base : String) :
    resolve cwd (joinPath [base, cleanPath rel]) = resolve cwd base ++ packageNames rel := by
  rw [resolve_joinPath cwd base h.relative, walk_names h.names]
  rfl

/-- The directory of a listed path is on the way there. -/
theorem Listed.dirPath_isPrefix {rel : String} (h : Listed rel) (cwd : List String) {base : String}
    (hbase : base ≠ "") : resolve cwd (dirPath (joinPath [base, cleanPath rel])) <+:
      resolve cwd base ++ packageNames rel := by
  obtain ⟨last, hlast, hres⟩ := resolve_dirPath cwd (joinPath [base, cleanPath rel])
  obtain ⟨ups, hsplit⟩ := splitOn_joinPath hbase h.names
  have hname : IsName last := by
    rw [hsplit, List.getLast?_append_of_ne_nil _ (splitOn_ne_nil '/' _)] at hlast
    exact h.names last (List.mem_of_getLast? hlast)
  rw [← h.resolve_eq cwd base, hres, walk_names (by simpa using hname)]
  exact List.prefix_append _ _

theorem safeExistingPackageFilePath_ok {cwd : List String} {base rel path : String} {fs : Tree}
    (h : safeExistingPackageFilePath cwd base rel fs = some path) :
    path = joinPath [base, cleanPath rel] ∧ Listed rel := by
  unfold safeExistingPackageFilePath at h
  split at h
  · cases h
  · next hsafe =>
      split at h
      · split at h
        · cases h
        · cases h
          exact safePackagePath_ok hsafe
      · cases h

theorem cleanPath_empty : cleanPath "" = "." := by decide +kernel

theorem cleanPath_ne_empty (s : String) : cleanPath s ≠ "" := by
  rw [cleanPath_eq]
  split
  · intro h
    have htext := congrArg String.toList h
    rw [String.toList_append] at htext
    cases htext
  · split
    · exact (by decide : "." ≠ "")
    · next hne => exact hne

theorem safeNewPackageFilePath_ok {cwd : List String} {base rel path : String} {fs : Tree}
    (h : safeNewPackageFilePath cwd base rel fs = some path) :
    path = joinPath [cleanPath base, cleanPath rel] ∧ Listed rel := by
  unfold safeNewPackageFilePath at h
  split at h
  · cases h
  · next hsafe =>
      split at h
      · cases h
      · next baseReal hreal =>
          have hbase : baseReal = cleanPath base := by
            unfold evalSymlinks at hreal
            split at hreal
            · next hempty =>
                rw [hempty, ← Option.some.inj hreal, cleanPath_empty]
            · split at hreal
              · exact (Option.some.inj hreal).symm
              · cases hreal
          dsimp only at h
          split at h
          · cases h
          · cases h
            rw [hbase]
            exact ⟨rfl, (safePackagePath_ok hsafe).2⟩

/-- A listed path has names, and the first of them is not reserved. -/
theorem Listed.packageNames_ne {rel : String} (h : Listed rel) {name : String}
    (hname : reservedName name = true) {rest : List String} : packageNames rel ≠ name :: rest := by
  intro heq
  have hfree := h.free
  rw [heq, List.headD_cons, hname] at hfree
  cases hfree

/-! ### Copying

A copy of a package is copies of its files, each of which writes where the check of its path has
allowed it. What a run may have made is an invariant of the loop over the list. -/

/-- What a run may make: the directories on the way to the target directory, the manifest, and
listed files below, with the directories that lead to them. -/
def May (target : List String) (manifestRaw : List UInt8) (files : List File) (path : List String)
    (k : Tree.Kind) : Prop :=
  OnTheWay target path k ∨
    (path = target ++ ["manifest.json"] ∧ k = .file manifestRaw) ∨
    ∃ f ∈ files, Listed f.path ∧ (OnTheWay (target ++ packageNames f.path) path k ∨
      path = target ++ packageNames f.path ∧ ∃ bytes, k = .file bytes)

/-- What holds of the file system when the files `done` are copied. -/
structure Copied (source target : List String) (manifestRaw : List UInt8) (fs : Tree)
    (done : List File) : Prop where
  /-- The files in the target directory are the manifest and those that are copied. -/
  files : ∀ path bytes, fs.kindAt (target ++ path) = some (.file bytes) →
    (path = ["manifest.json"] ∧ bytes = manifestRaw) ∨ ∃ f ∈ done, path = packageNames f.path
  /-- They are as in the source. -/
  copies : ∀ f ∈ done, Listed f.path ∧ ∃ bytes,
    fs.kindAt (source ++ packageNames f.path) = some (.file bytes) ∧
      fs.kindAt (target ++ packageNames f.path) = some (.file bytes)
  manifest : fs.kindAt (target ++ ["manifest.json"]) = some (.file manifestRaw)
  /-- Nothing is copied from a directory to itself. -/
  apart : done ≠ [] → source ≠ target

section Copy

variable {cwd : List String} {sourceDir targetDir : String} {source target : List String}
  {manifestRaw : List UInt8} {files done : List File} {fs fs' : Tree}

/-- New directories change nothing about the copies. -/
theorem Copied.of_dirs (h : Copied source target manifestRaw fs done)
    (hgrown : fs.Grown (fun _ k => k = .dir) fs') : Copied source target manifestRaw fs' done where
  files path bytes hpath := by
    rcases hgrown.new hpath with hold | hdir
    · exact h.files path bytes hold
    · cases hdir
  copies f hf := by
    obtain ⟨hlisted, bytes, hsource, htarget⟩ := h.copies f hf
    exact ⟨hlisted, bytes, hgrown.kept hsource, hgrown.kept htarget⟩
  manifest := hgrown.kept h.manifest
  apart := h.apart

/-- A source file is in another place than its copy. -/
theorem Copied.ne (h : Copied source target manifestRaw fs done) {rel : String} (hrel : Listed rel)
    {bytes : List UInt8} (hsource : fs.kindAt (source ++ packageNames rel) = some (.file bytes)) :
    source ≠ target := by
  rintro rfl
  rcases h.files _ _ hsource with ⟨hmanifest, -⟩ | ⟨f, hf, -⟩
  · exact hrel.packageNames_ne reserved_manifest hmanifest
  · exact h.apart (List.ne_nil_of_mem hf) rfl

/-- A file that is copied already is as in the source. -/
theorem Copied.same (h : Copied source target manifestRaw fs done) {rel : String}
    (hrel : Listed rel) {bytes b : List UInt8} (hsource : fs.kindAt (source ++ packageNames rel) = some (.file bytes))
    (htarget : fs.kindAt (target ++ packageNames rel) = some (.file b)) : b = bytes := by
  rcases h.files _ _ htarget with ⟨hmanifest, -⟩ | ⟨f, hf, hnames⟩
  · exact absurd hmanifest (hrel.packageNames_ne reserved_manifest)
  · obtain ⟨-, c, hc, hc'⟩ := h.copies f hf
    rw [hnames] at hsource htarget
    cases hsource.symm.trans hc
    cases htarget.symm.trans hc'
    rfl

/-- The file system after one more copy. -/
theorem Copied.cons (h : Copied source target manifestRaw fs done) {f : File}
    (hf : Listed f.path) {bytes : List UInt8}
    (hsource : fs.kindAt (source ++ packageNames f.path) = some (.file bytes))
    (hgrown : fs.Grown (fun path k => path = target ++ packageNames f.path ∧ k = .file bytes) fs')
    (htarget : fs'.kindAt (target ++ packageNames f.path) = some (.file bytes)) :
    Copied source target manifestRaw fs' (f :: done) where
  files path b hpath := by
    rcases hgrown.new hpath with hold | ⟨hnew, -⟩
    · rcases h.files path b hold with hmanifest | ⟨g, hg, hnames⟩
      · exact .inl hmanifest
      · exact .inr ⟨g, List.mem_cons_of_mem _ hg, hnames⟩
    · exact .inr ⟨f, List.mem_cons_self, List.append_cancel_left hnew⟩
  copies := by
    refine List.forall_mem_cons.mpr ⟨⟨hf, bytes, hgrown.kept hsource, htarget⟩, fun g hg => ?_⟩
    obtain ⟨hlisted, b, hb, hb'⟩ := h.copies g hg
    exact ⟨hlisted, b, hgrown.kept hb, hgrown.kept hb'⟩
  manifest := hgrown.kept h.manifest
  apart _ := h.ne hf hsource

/-- **A file is copied** to where a listed path leads. What is made is allowed, and where the copy
fails no file is made. -/
theorem copyRegularFile_grown {f : File} (hf : f ∈ files) (hlisted : Listed f.path)
    (h : Copied source target manifestRaw fs done) {src dst : String}
    (hsrc : resolve cwd src = source ++ packageNames f.path)
    (hdst : resolve cwd dst = target ++ packageNames f.path)
    (hdir : resolve cwd (dirPath dst) <+: target ++ packageNames f.path) {r : Except Err Unit}
    (hrun : copyRegularFile cwd src dst fs = (r, fs')) :
    fs.Grown (May target manifestRaw files) fs' ∧
      Copied source target manifestRaw fs' (if r = .ok () then f :: done else done) := by
  unfold copyRegularFile at hrun
  split at hrun
  · cases hrun
    exact ⟨Tree.Grown.refl _ _, h⟩
  · next raw hraw =>
      have hsource : fs.kindAt (source ++ packageNames f.path) = some (.file raw) := by
        rw [← hsrc]
        exact Tree.kindAt_of_get (lstat_ok hraw)
      have hmade := grown_mkdirAll (.failed "create package file directory: not a directory") cwd
        (String.ofList (dst.toList.reverse.dropWhile fun c => c ≠ '/').reverse) fs
      have hdirs : ∀ path k, OnTheWay (resolve cwd (dirPath dst)) path k →
          May target manifestRaw files path k := fun path k hway =>
        .inr (.inr ⟨f, hf, hlisted, .inl ⟨hway.1.trans hdir, hway.2⟩⟩)
      change fs.Grown (OnTheWay (resolve cwd (dirPath dst)))
        (mkdirAll _ cwd (dirPath dst) fs).2 at hmade
      split at hrun
      · next err made hmkdir =>
          cases hrun
          rw [hmkdir] at hmade
          exact ⟨hmade.mono hdirs, h.of_dirs (hmade.mono fun _ _ hway => hway.2)⟩
      · next made hmkdir =>
          rw [hmkdir] at hmade
          -- making the directories on the way leaves every file where it is
          have hcopied := h.of_dirs (hmade.mono fun _ _ hway => hway.2)
          have hsource' := hmade.kept hsource
          have hne : resolve cwd src ≠ resolve cwd dst := by
            rw [hsrc, hdst]
            exact fun heq => hcopied.ne hlisted hsource' (List.append_cancel_right heq)
          dsimp only at hrun
          rw [if_neg hne] at hrun
          split at hrun
          · cases hrun
            exact ⟨hmade.mono hdirs, hcopied⟩
          · next hput =>
              cases hrun
              -- a second entry for the same file finds the bytes it would write
              have hold : ∀ b, made.kindAt (resolve cwd dst) = some (.file b) → b = raw := by
                rw [hdst]
                exact fun b => hcopied.same hlisted hsource'
              have hwritten : made.Grown (fun path k => path = resolve cwd dst ∧ k = .file raw)
                  fs' ∧ fs'.kindAt (resolve cwd dst) = some (.file raw) :=
                grown_putFile hput hold ⟨rfl, rfl⟩
              obtain ⟨hgrown, htarget⟩ := hwritten
              rw [hdst] at hgrown htarget
              refine ⟨(hmade.mono hdirs).trans (hgrown.mono fun path k hk => ?_), ?_⟩
              · exact .inr (.inr ⟨f, hf, hlisted, .inr ⟨hk.1, raw, hk.2⟩⟩)
              · rw [if_pos rfl]
                exact hcopied.cons hlisted hsource' hgrown htarget
  · cases hrun
    exact ⟨Tree.Grown.refl _ _, h⟩

/-- **One listed file**: what is made is allowed, and where the copy fails no file is. -/
theorem copyListed_grown {f : File} (hf : f ∈ files)
    (h : Copied (resolve cwd sourceDir) (resolve cwd targetDir) manifestRaw fs done)
    {r : Except Err Unit} (hrun : copyListed cwd sourceDir targetDir f fs = (r, fs')) :
    fs.Grown (May (resolve cwd targetDir) manifestRaw files) fs' ∧
      Copied (resolve cwd sourceDir) (resolve cwd targetDir) manifestRaw fs'
        (if r = .ok () then f :: done else done) := by
  have hstay : ∀ err : Err, (Except.error err, fs) = (r, fs') →
      fs.Grown (May (resolve cwd targetDir) manifestRaw files) fs' ∧
        Copied (resolve cwd sourceDir) (resolve cwd targetDir) manifestRaw fs'
          (if r = .ok () then f :: done else done) := by
    rintro err heq
    cases heq
    exact ⟨Tree.Grown.refl _ _, h⟩
  unfold copyListed at hrun
  split at hrun
  · exact hstay _ hrun
  · next src hsrc =>
      split at hrun
      · exact hstay _ hrun
      · split at hrun
        · exact hstay _ hrun
        · next dst hdst =>
            obtain ⟨hsrc, hlisted⟩ := safeExistingPackageFilePath_ok hsrc
            obtain ⟨hdst, -⟩ := safeNewPackageFilePath_ok hdst
            refine copyRegularFile_grown hf hlisted h (hsrc ▸ hlisted.resolve_eq cwd sourceDir)
              ?_ ?_ hrun
            · rw [hdst, hlisted.resolve_eq, resolve_cleanPath]
            · rw [hdst, ← resolve_cleanPath cwd targetDir]
              exact hlisted.dirPath_isPrefix cwd (cleanPath_ne_empty targetDir)

/-- **The loop**: what is made is allowed, and the files that were copied are as in the source. -/
theorem copyFiles_grown {rest : List File} (hrest : ∀ f ∈ rest, f ∈ files)
    (h : Copied (resolve cwd sourceDir) (resolve cwd targetDir) manifestRaw fs done)
    {r : Except Err Unit} (hrun : copyFiles cwd sourceDir targetDir rest fs = (r, fs')) :
    fs.Grown (May (resolve cwd targetDir) manifestRaw files) fs' ∧
      ∃ copied, Copied (resolve cwd sourceDir) (resolve cwd targetDir) manifestRaw fs' copied ∧
        (∀ f ∈ copied, f ∈ done ∨ f ∈ rest) ∧
        (r = .ok () → ∀ f, f ∈ done ∨ f ∈ rest → f ∈ copied) := by
  induction rest generalizing fs done with
  | nil =>
      cases hrun
      exact ⟨Tree.Grown.refl _ _, done, h, fun f hf => .inl hf,
        fun _ f hf => hf.resolve_right List.not_mem_nil⟩
  | cons f rest ih =>
      obtain ⟨hf, hrest⟩ := List.forall_mem_cons.mp hrest
      rw [copyFiles] at hrun
      split at hrun
      · next err failed hcopy =>
          cases hrun
          obtain ⟨hgrown, hcopied⟩ := copyListed_grown hf h hcopy
          exact ⟨hgrown, done, hcopied, fun f hf => .inl hf, nofun⟩
      · next next hcopy =>
          obtain ⟨hgrown, hcopied⟩ := copyListed_grown hf h hcopy
          obtain ⟨hgrown', copied, hlast, hsub, hall⟩ := ih hrest hcopied hrun
          refine ⟨hgrown.trans hgrown', copied, hlast, fun g hg => ?_, fun hr g hg => hall hr g ?_⟩
          · rcases hsub g hg with hg | hg
            · exact (List.mem_cons.mp hg).elim (fun heq => .inr (heq ▸ List.mem_cons_self)) .inl
            · exact .inr (List.mem_cons_of_mem _ hg)
          · rcases hg with hg | hg
            · exact .inl (List.mem_cons_of_mem _ hg)
            · rcases List.mem_cons.mp hg with rfl | hg
              · exact .inl List.mem_cons_self
              · exact .inr hg

end Copy

/-- A target directory that nothing is in: an empty one, or none yet at a cleaned path. -/
def Fresh (cwd : List String) (dir : String) (fs : Tree) : Prop :=
  lstat cwd dir fs = .ok (.dir []) ∨ cleanPath dir = dir ∧ fs.get (resolve cwd dir) = none

/-- Nothing is below a fresh directory. -/
theorem Fresh.kindAt_eq_none {cwd : List String} {dir : String} {fs : Tree} (h : Fresh cwd dir fs)
    {path : List String} (hpath : path ≠ []) : fs.kindAt (resolve cwd dir ++ path) = none := by
  rw [Tree.kindAt, Option.map_eq_none_iff, Tree.get_append]
  rcases h with h | ⟨-, h⟩
  · rw [lstat_ok h]
    exact Tree.get_of_leaf Tree.leaf_dir hpath
  · rw [h]
    rfl

/-- No file is in a fresh directory. -/
theorem Fresh.not_file {cwd : List String} {dir : String} {fs : Tree} (h : Fresh cwd dir fs)
    (path : List String) (bytes : List UInt8) :
    fs.kindAt (resolve cwd dir ++ path) ≠ some (.file bytes) := by
  by_cases hpath : path = []
  · rw [hpath, List.append_nil, Tree.kindAt]
    rcases h with h | ⟨-, h⟩
    · rw [lstat_ok h]
      intro hfile
      cases hfile
    · rw [h]
      intro hfile
      cases hfile
  · rw [h.kindAt_eq_none hpath]
    intro hfile
    cases hfile

/-- A fresh directory is made, if it is not there. -/
theorem Fresh.mkdirAll {cwd : List String} {dir : String} {fs : Tree} (h : Fresh cwd dir fs)
    (failed : Err) : fs.Grown (OnTheWay (resolve cwd dir)) (mkdirAll failed cwd dir fs).2 := by
  rcases h with h | ⟨hclean, -⟩
  · rw [mkdirAll_of_lstat h]
    exact Tree.Grown.refl _ _
  · have hmade := grown_mkdirAll failed cwd dir fs
    rwa [hclean] at hmade

theorem resolve_manifest (cwd : List String) (dir : String) :
    resolve cwd (joinPath [dir, "manifest.json"]) = resolve cwd dir ++ ["manifest.json"] := by
  have hsplit : splitOn '/' "manifest.json".toList = ["manifest.json".toList] := by decide +kernel
  have hname : ∀ e ∈ ["manifest.json".toList], IsName e := by
    intro e he
    rw [List.mem_singleton.mp he]
    exact ⟨by decide +kernel, by decide +kernel, by decide +kernel⟩
  rw [resolve_joinPath cwd dir (by decide +kernel), hsplit, walk_names hname, List.map_singleton,
    String.ofList_toList]

/-- A name that begins with a dot is reserved. -/
theorem reservedName_of_dot {name : String} (h : hasPrefixList name.toList ['.'] = true) :
    reservedName name = true := by
  obtain ⟨rest, hrest⟩ : ∃ rest, name.toList = ['.'] ++ rest := by
    cases hname : name.toList with
    | nil => rw [hname] at h; cases h
    | cons c rest =>
        rw [hname] at h
        have hc : '.' = c := by simpa [hasPrefixList] using h
        exact ⟨rest, by rw [← hc]; rfl⟩
  obtain ⟨tail, htrim⟩ : ['.'] <+: trimList isSpace (['.'] ++ rest) :=
    prefix_trimList (by simp [isSpace]) (by simp [isSpace])
  have hdot : hasPrefixList (trimSpace name).toList ['.'] = true := by
    rw [trimSpace_toList, hrest, ← htrim]
    rfl
  simp [reservedName, hdot]

/-- What a run leaves of the file system that it began with. -/
structure Within (source target : List String) (manifestRaw : List UInt8) (m : Manifest)
    (fs : Tree) (run : Except Err Unit × Tree) : Prop where
  /-- Whatever was there is there, as it was. -/
  kept : ∀ path k, fs.kindAt path = some k → run.2.kindAt path = some k
  /-- Outside of the target directory nothing is made, except for the way to it if it was not
  there. -/
  outside : ∀ path, ¬ target <+: path → run.2.kindAt path = fs.kindAt path ∨
    fs.kindAt target = none ∧ path <+: target ∧ run.2.kindAt path = some .dir
  /-- The names that begin with a dot stay free. -/
  hidden : ∀ name, hasPrefixList name.toList ['.'] = true → run.2.kindAt (target ++ [name]) = none
  /-- The manifest is the one that is given. -/
  manifest : ∀ k, run.2.kindAt (target ++ ["manifest.json"]) = some k → k = .file manifestRaw
  /-- Every other file is at a listed path. -/
  listed : ∀ path bytes, run.2.kindAt (target ++ path) = some (.file bytes) →
    path = ["manifest.json"] ∨ ∃ f ∈ m.files, path = packageNames f.path
  /-- A run that succeeds has written the manifest and copied every listed file. -/
  copied : run.1 = .ok () →
    run.2.get (target ++ ["manifest.json"]) = some (.file manifestRaw) ∧
      ∀ f ∈ m.files, ∃ bytes, run.2.get (source ++ packageNames f.path) = some (.file bytes) ∧
        run.2.get (target ++ packageNames f.path) = some (.file bytes)

/-- A run on a fresh target directory makes what it may, and copies what is listed. -/
theorem copyPackageFiles_grown {cwd : List String} {sourceDir targetDir : String}
    {manifestRaw : List UInt8} {m : Manifest} {fs fs' : Tree} (hfresh : Fresh cwd targetDir fs)
    {r : Except Err Unit}
    (hrun : copyPackageFiles cwd sourceDir targetDir manifestRaw m fs = (r, fs')) :
    fs.Grown (May (resolve cwd targetDir) manifestRaw m.files) fs' ∧
      (r = .ok () → ∃ copied, (∀ f ∈ m.files, f ∈ copied) ∧
        Copied (resolve cwd sourceDir) (resolve cwd targetDir) manifestRaw fs' copied) := by
  have hmade := hfresh.mkdirAll (.failed "create package directory: not a directory")
  unfold copyPackageFiles at hrun
  split at hrun
  · next hmkdir =>
      cases hrun
      rw [hmkdir] at hmade
      exact ⟨hmade.mono fun _ _ => .inl, nofun⟩
  · next made hmkdir =>
      rw [hmkdir] at hmade
      -- so far there are directories only
      have hnone : ∀ path bytes,
          made.kindAt (resolve cwd targetDir ++ path) ≠ some (.file bytes) := by
        intro path bytes hfile
        rcases hmade.new hfile with hold | hway
        · exact hfresh.not_file path bytes hold
        · cases hway.2
      split at hrun
      · cases hrun
        exact ⟨hmade.mono fun _ _ => .inl, nofun⟩
      · next written hput =>
          have hold : ∀ b, made.kindAt (resolve cwd (joinPath [targetDir, "manifest.json"])) =
              some (.file b) → b = manifestRaw := by
            rw [resolve_manifest]
            exact fun b hb => absurd hb (hnone _ b)
          have hwritten : made.Grown
              (fun path k => path = resolve cwd (joinPath [targetDir, "manifest.json"]) ∧
                k = .file manifestRaw) written ∧ _ := grown_putFile hput hold ⟨rfl, rfl⟩
          rw [resolve_manifest] at hwritten
          obtain ⟨hgrown, hmanifest⟩ := hwritten
          have hstart : Copied (resolve cwd sourceDir) (resolve cwd targetDir) manifestRaw written
              [] := by
            refine ⟨fun path bytes hfile => ?_, nofun, hmanifest, fun h => absurd rfl h⟩
            rcases hgrown.new hfile with hold | ⟨hpath, hbytes⟩
            · exact absurd hold (hnone path bytes)
            · cases hbytes
              exact .inl ⟨List.append_cancel_left hpath, rfl⟩
          obtain ⟨hrest, copied, hcopied, -, hall⟩ := copyFiles_grown (fun _ => id) hstart hrun
          refine ⟨?_, fun hr => ⟨copied, fun f hf => hall hr f (.inr hf), hcopied⟩⟩
          have hbefore : fs.Grown (May (resolve cwd targetDir) manifestRaw m.files) written :=
            (hmade.mono fun _ _ => .inl).trans (hgrown.mono fun _ _ h => .inr (.inl h))
          exact hbefore.trans hrest

/-- **The files of a package stay in its directory**: whatever paths a manifest lists, in every
source tree. -/
theorem copyPackageFiles_within {cwd : List String} {sourceDir targetDir : String}
    {manifestRaw : List UInt8} {m : Manifest} {fs : Tree} (hfresh : Fresh cwd targetDir fs) :
    Within (resolve cwd sourceDir) (resolve cwd targetDir) manifestRaw m fs
      (copyPackageFiles cwd sourceDir targetDir manifestRaw m fs) := by
  obtain ⟨hgrown, hcopied⟩ := @copyPackageFiles_grown cwd sourceDir targetDir manifestRaw m fs _
    hfresh _ rfl
  -- what is new at the top of the target is the manifest or on the way to a listed file
  have hnew : ∀ name k,
      (copyPackageFiles cwd sourceDir targetDir manifestRaw m fs).2.kindAt
        (resolve cwd targetDir ++ [name]) = some k →
      (name = "manifest.json" ∧ k = .file manifestRaw) ∨
        ∃ f : File, Listed f.path ∧ [name] <+: packageNames f.path := by
    intro name k hk
    rcases hgrown.new hk with hold | hway | ⟨hmanifest, hk⟩ | ⟨f, -, hlisted, hway | ⟨hnames, -⟩⟩
    · cases (hfresh.kindAt_eq_none (List.cons_ne_nil _ _)).symm.trans hold
    · have hlen := hway.1.length_le
      rw [List.length_append, List.length_singleton] at hlen
      omega
    · exact .inl ⟨List.singleton_injective (List.append_cancel_left hmanifest), hk⟩
    · exact .inr ⟨f, hlisted, (List.prefix_append_right_inj _).mp hway.1⟩
    · exact .inr ⟨f, hlisted, List.append_cancel_left hnames ▸ List.prefix_rfl⟩
  refine ⟨fun path k => hgrown.kept, fun path hpath => ?_, fun name hname => ?_, fun k hk => ?_,
    fun path bytes hfile => ?_, fun hok => ?_⟩
  · -- outside the target only directories on the way to it are made
    rcases hgrown path with hsame | ⟨hnone, k, hk, hmay⟩
    · exact .inl hsame
    · have hway : path <+: resolve cwd targetDir ∧ k = .dir := by
        rcases hmay with hway | ⟨rfl, -⟩ | ⟨f, -, -, hway | ⟨rfl, -⟩⟩
        · exact hway
        · exact absurd (List.prefix_append _ _) hpath
        · have hcases := List.prefix_or_prefix_of_prefix (List.prefix_append _ _) hway.1
          exact ⟨hcases.resolve_left hpath, hway.2⟩
        · exact absurd (List.prefix_append _ _) hpath
      refine .inr ⟨?_, hway.1, hway.2 ▸ hk⟩
      by_contra hthere
      exact Tree.kindAt_of_isPrefix hway.1 hthere hnone
  · -- no listed file may have a reserved name
    rw [← Option.not_isSome_iff_eq_none]
    intro hsome
    obtain ⟨k, hk⟩ := Option.isSome_iff_exists.mp hsome
    rcases hnew name k hk with ⟨rfl, -⟩ | ⟨f, hlisted, rest, hrest⟩
    · exact absurd hname (by decide +kernel)
    · exact hlisted.packageNames_ne (reservedName_of_dot hname) hrest.symm
  · -- the manifest is what was read, since no listed file may take its name
    rcases hnew "manifest.json" k hk with ⟨-, hk⟩ | ⟨f, hlisted, rest, hrest⟩
    · exact hk
    · exact absurd hrest.symm (hlisted.packageNames_ne reserved_manifest)
  · rcases hgrown.new hfile with hold | hway | ⟨hmanifest, -⟩ | ⟨f, hf, -, hway | ⟨hnames, -⟩⟩
    · exact absurd hold (hfresh.not_file path bytes)
    · cases hway.2
    · exact .inl (List.append_cancel_left hmanifest)
    · cases hway.2
    · exact .inr ⟨f, hf, List.append_cancel_left hnames⟩
  · obtain ⟨copied, hall, hlast⟩ := hcopied hok
    refine ⟨Tree.get_of_kindAt_file hlast.manifest, fun f hf => ?_⟩
    obtain ⟨-, bytes, hsource, htarget⟩ := hlast.copies f (hall f hf)
    exact ⟨bytes, Tree.get_of_kindAt_file hsource, Tree.get_of_kindAt_file htarget⟩

/-- A package with two entries for one file. -/
def twiceListed : Manifest where
  schemaVersion := SchemaVersion
  kind := "app-id"
  name := "apps"
  version := "1.0.0"
  source := "lab"
  createdAt := ""
  installedAt := ""
  files := [⟨"data/./apps.json", ""⟩, ⟨"data/../data//apps.json", ""⟩]
  signature := none
  regression := none
  rollout := none
  rollback := none
  provenance := []
  contentReadiness := none

def packageDisk : Tree := .dir [("src", .dir [("data", .dir [("apps.json", .file [1])])])]

theorem copyPackageFiles_twiceListed :
    Within (resolve [] "/src") (resolve [] "/dst") [2] twiceListed packageDisk
        (copyPackageFiles [] "/src" "/dst" [2] twiceListed packageDisk) ∧
      (copyPackageFiles [] "/src" "/dst" [2] twiceListed packageDisk).1 = .ok () := by
  refine ⟨copyPackageFiles_within (.inr ⟨by decide +kernel, ?_⟩), ?_⟩
  · have hnone : (packageDisk.get (resolve [] "/dst")).isNone = true := by decide +kernel
    exact Option.isNone_iff_eq_none.mp hnone
  · decide +kernel

end Phragma.Contentpkg.OnDisk
