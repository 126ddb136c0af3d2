import Phragma.Go.Text
import Phragma.Go.Time
import Phragma.Lib.FileTree

/-!
# Phragma.Contentpkg.Manifest

Content packages and their verification, `internal/contentpkg/status.go`. A package is a
directory with a `manifest.json` and the files that it lists, and `loadFromManifest` says in
which state it is: it is **verified** when nothing blocks it.

Whether a package is verified depends on the text of its manifest and on the files that it lists,
and on nothing else in its directory (`loadFromManifest_congr`). JSON, SHA-256, Ed25519 and the reading of
times are parameters, about which nothing is assumed.

Of a `Status` the fields stand here that some modelled function reads. Reads fail only where the
tree says so.
-/

namespace Phragma.Contentpkg

open Lib Go

/-! ### Manifests -/

structure File where
  path : String
  sha256 : String
  deriving DecidableEq

structure Signature where
  algorithm : String
  keyID : String
  publicKey : String
  signature : String
  deriving DecidableEq

structure Regression where
  status : String
  corpus : String
  passed : Nat
  failed : Nat
  runAt : String
  deriving DecidableEq

structure Rollout where
  state : String
  scope : String
  deriving DecidableEq

structure Rollback where
  available : Bool
  previousVersion : String
  deriving DecidableEq

structure Provenance where
  name : String
  url : String
  license : String
  allowsCommercialUse : Option Bool
  allowsRedistribution : Option Bool
  deriving DecidableEq

structure EvidenceRef where
  type : String
  artifact : String
  sha256 : String
  generatedAt : String
  deriving DecidableEq

structure ContentReadiness where
  scope : String
  productionContent : Bool
  evidence : List EvidenceRef
  requiredProductionEvidence : List String
  deriving DecidableEq

structure Manifest where
  schemaVersion : String
  kind : String
  name : String
  version : String
  source : String
  createdAt : String
  installedAt : String
  files : List File
  signature : Option Signature
  regression : Option Regression
  rollout : Option Rollout
  rollback : Option Rollback
  provenance : List Provenance
  contentReadiness : Option ContentReadiness
  deriving DecidableEq

/-- What the package uses of the standard library: `encoding/json` on manifests, `crypto/sha256`,
`crypto/ed25519` and `time.Parse` of RFC 3339. -/
structure Std where
  unmarshal : List UInt8 → Except String Manifest
  marshal : Manifest → Option (List UInt8)
  sha256 : List UInt8 → List UInt8
  verify : List UInt8 → List UInt8 → List UInt8 → Bool
  parseTime : String → Option Time

/-- `trustedKeyring`: the public keys that packages may be signed with, by their ids. -/
abbrev TrustedKeyring := String → Option (List UInt8)

def SchemaVersion : String := "phragma.content.package.v1"
def maxManifestBytes : Nat := 2 ^ 20

/-! ### Paths in a package

A manifest lists relative paths. One that leads out of the package, is hidden, or is the manifest
itself is not a path of a file. -/

/-- The components of a path. -/
def components (path : String) : List String := (splitOn '/' path.toList).map String.ofList

/-- `reservedPackageRelPath`, on the first component. -/
def reservedName (name : String) : Bool :=
  let first := trimSpace name
  decide (first = "") || decide (first = "manifest.json") || hasPrefixList first.toList ['.']

/-- `safePackagePath`: where a relative path leads within the package. -/
def safePackagePath (rel : String) : Option (List String) :=
  if hasPrefixList rel.toList ['/'] then none
  else
    let clean := cleanPath rel
    if clean = "." ∨ hasPrefixList clean.toList "../".toList ∨ clean = ".." then none
    else
      match components clean with
      | [] => none
      | first :: rest =>
          if reservedName first ∨ hasPrefixList clean.toList "..".toList then none
          else some (first :: rest)

/-- `safeExistingPackageFilePath`: the node there. A symbolic link is found at no path: neither
can it be on the way, nor is it a regular file. -/
def safeExistingPackageFilePath (base : Option Tree) (rel : String) : Option Tree :=
  (safePackagePath rel).bind fun path => base.bind (Lib.Tree.get path)

/-! ### Verification

Every check gives its blockers, and a package that has none is verified. Which blockers there are
also decides whether the package is invalid or merely incomplete. -/

/-- `semverRE`: three numbers with dots between them, and perhaps more after that. -/
def semverRE (s : List Char) : Bool :=
  let digits := fun l : List Char => l.dropWhile Char.isDigit
  let some1 := fun l : List Char => (l.head?.map Char.isDigit).getD false
  match digits s with
  | '.' :: s2 =>
      match digits s2 with
      | '.' :: s3 =>
          some1 s && some1 s2 && some1 s3 &&
            match digits s3 with
            | [] => true
            | c :: cs => (c == '-' || c == '+') && !cs.isEmpty &&
                cs.all fun c => c.isAlphanum || c == '.' || c == '-'
      | _ => false
  | _ => false

/-- `shaHex`: the digest of bytes, in hexadecimal. -/
def shaHex (S : Std) (raw : List UInt8) : String :=
  String.ofList ((S.sha256 raw).flatMap fun b => hexByte b.toNat)

/-- `uniqueStrings`, with the values seen so far. -/
def uniqueLoop : List String → List String → List String
  | _, [] => []
  | seen, value :: values =>
      let value := trimSpace value
      if value = "" ∨ value ∈ seen then uniqueLoop seen values
      else value :: uniqueLoop (value :: seen) values

/-- `uniqueStrings`: the texts that are not blank, trimmed, each once. -/
def uniqueStrings (values : List String) : List String := uniqueLoop [] values

/-- `containsAny`: does any of the texts hold any of the needles? -/
def containsAnyOf (values needles : List String) : Bool :=
  values.any fun value => needles.any fun needle => decide (Contains value needle)

/-- `decodeBase64`: with padding or without, which are tried in this order. -/
def decodeBase64 (value : String) : Option (List UInt8) :=
  let value := trimSpace value
  if value = "" then none
  else
    match base64Decode value with
    | some raw => some (raw.map UInt8.ofNat)
    | none =>
        -- `RawStdEncoding`: the same digits without padding
        let digits := value.toList.filter fun c => !isLineBreak c
        if digits.contains '=' ∨ digits.length % 4 = 1 then none
        else
          let padding := List.replicate ((4 - digits.length % 4) % 4) '='
          (base64Groups (digits ++ padding)).map fun raw => raw.map UInt8.ofNat

/-- `parsePackageTime`: the first text that is not blank, as a time. What cannot be read is the zero
time. -/
def parsePackageTime (S : Std) : List String → Time
  | [] => Time.zero
  | value :: values =>
      if trimSpace value = "" then parsePackageTime S values
      else
        match S.parseTime (trimSpace value) with
        | some t => t
        | none => parsePackageTime S values

inductive SignatureStatus
  | missing
  | unsupported
  | untrusted
  | invalid
  | verified
  deriving DecidableEq

/-- `bytes.TrimSpace`, on the ASCII blanks. -/
def trimBytes (raw : List UInt8) : List UInt8 :=
  trimList (fun b => isSpace (Char.ofNat b.toNat) && decide (b < 128)) raw

/-- `signaturePayload`: the bytes that are signed, the manifest without its signature. -/
def signaturePayload (S : Std) (m : Manifest) : Option (List UInt8) :=
  (S.marshal { m with signature := none }).map trimBytes

/-- `verifySignatureStatus`: a signature counts only if its key is in the keyring, whatever it
verifies against. -/
def verifySignatureStatus (S : Std) (m : Manifest) (keys : TrustedKeyring) : SignatureStatus :=
  match m.signature with
  | none => .missing
  | some signature =>
      if toLower signature.algorithm ≠ "ed25519" then .unsupported
      else
        let keyID := trimSpace signature.keyID
        let pub := (keys keyID).getD []
        if keyID = "" then .untrusted
        else if pub.length ≠ 32 then .untrusted
        else if trimSpace signature.publicKey ≠ "" ∧ decodeBase64 signature.publicKey ≠ some pub then
          .invalid
        else
          match decodeBase64 signature.signature with
          | none => .invalid
          | some sig =>
              if sig.length ≠ 64 then .invalid
              else
                match signaturePayload S m with
                | none => .invalid
                | some payload => if S.verify pub payload sig then .verified else .invalid

/-- What blocks a file that the manifest lists. -/
def fileBlocker (S : Std) (base : Option Tree) (f : File) : Option String :=
  match safeExistingPackageFilePath base f.path with
  | none => some "file path"
  | some (.file raw) =>
      if f.path = "" then some "file path"
      else if toLower (shaHex S raw) = toLower (trimSpace f.sha256) then none
      else some "file hash"
  | some _ => some "file path"

/-- `verifyFileHashes`: every listed file has to be there with its digest, and some file has to be
listed. -/
def verifyFileHashes (S : Std) (base : Option Tree) (files : List File) : List String :=
  if files = [] then ["package version/hash"] else uniqueStrings (files.filterMap (fileBlocker S base))

/-- `provenanceBlockers`: a package has to say where its content comes from and under which
license. -/
def provenanceBlockers (source : String) (provenance : List Provenance) : List String :=
  let blockers := if trimSpace source = "" then ["source identity"] else []
  if provenance = [] then blockers ++ ["provenance", "provenance license", "provenance rights"]
  else
    let hasNamedSource := provenance.any fun p => trimSpace p.name ≠ "" ∧ trimSpace p.url ≠ ""
    let licenseMissing := provenance.any fun p => trimSpace p.license = ""
    let rightsMissing := provenance.any fun p =>
      p.allowsCommercialUse.isNone || p.allowsRedistribution.isNone
    blockers ++ (if hasNamedSource then [] else ["provenance"]) ++
      (if licenseMissing then ["provenance license"] else []) ++
      (if rightsMissing then ["provenance rights"] else [])

/-- `regressionStatus`: the result of the regression tests, as the manifest gives it. -/
def regressionStatus (regression : Option Regression) : String :=
  match regression with
  | none => "missing"
  | some r => if trimSpace r.status = "" then "missing" else toLower (trimSpace r.status)

/-- `regressionBlockers`: the tests have to have passed, at a time, on a corpus. -/
def regressionBlockers (S : Std) (regression : Option Regression) (status : String) : List String :=
  if status ≠ "passed" then ["regression result"]
  else
    match regression with
    | none => ["regression result"]
    | some r =>
        (if r.failed ≠ 0 then ["regression result"] else []) ++
          if trimSpace r.corpus = "" ∨ trimSpace r.runAt = "" ∨
              (parsePackageTime S [r.runAt]).isZero ∨ r.passed = 0 then ["regression evidence"]
          else []

/-- What blocks the manifest before its files are looked at. -/
def manifestBlockers (exp : String) (m : Manifest) : List String :=
  (if m.schemaVersion ≠ SchemaVersion then ["schema version"] else []) ++
    (if m.kind ≠ exp then ["package kind"] else []) ++
    (if m.version = "" ∨ !semverRE m.version.toList then ["semantic version"] else []) ++
    provenanceBlockers m.source m.provenance

/-- What blocks a signature that is not verified. -/
def signatureBlockers : SignatureStatus → List String
  | .verified => []
  | .missing => ["signed manifest"]
  | .invalid => ["signed manifest", "signature invalid"]
  | .untrusted => ["signed manifest", "trusted publisher"]
  | .unsupported => ["signed manifest", "signature algorithm"]

/-- What blocks the rest of the manifest. -/
def controlBlockers (S : Std) (m : Manifest) : List String :=
  regressionBlockers S m.regression (regressionStatus m.regression) ++
    (if toLower (trimSpace ((m.rollout.map Rollout.state).getD "")) = "" then ["staged rollout"]
      else []) ++
    if (m.rollback.map Rollback.available).getD false then [] else ["package rollback"]

inductive PackageState
  | localOnly
  | invalid
  | incomplete
  | verified
  deriving DecidableEq

/-- The text of a state. -/
def PackageState.text : PackageState → String
  | .localOnly => "local-only"
  | .invalid => "invalid"
  | .incomplete => "incomplete"
  | .verified => "verified"

structure Status where
  kind : String
  state : PackageState
  version : String
  manifestSHA256 : String
  evidence : List EvidenceRef
  blockers : List String

/-- `expectedForKind`: the kind of the package that is expected. -/
def expectedForKind (kind : String) : Option String :=
  ["app-id", "threat-id", "intel-feeds"].find? fun exp => exp = trimSpace kind

/-- Why a manifest cannot be read. -/
inductive ReadError
  | notExist
  | invalidPackage (detail : String)
  | failed (detail : String)

/-- The text of an error. -/
def ReadError.text : ReadError → String
  | .notExist => "no such file or directory"
  | .invalidPackage detail => "invalid content package: " ++ detail
  | .failed detail => detail

/-- `readManifestRaw`, in the directory of a package. -/
def readManifestRaw : Option Tree → Except ReadError (List UInt8)
  | none => .error .notExist
  | some (.dir es) =>
      match es.lookup "manifest.json" with
      | none => .error .notExist
      | some (.file raw) =>
          if maxManifestBytes < raw.length then
            .error (.invalidPackage ("manifest exceeds " ++ decimal maxManifestBytes ++ " bytes"))
          else .ok raw
      | some _ => .error (.invalidPackage "manifest is not a regular file")
  | some _ => .error (.failed "not a directory")

/-- `fallbackStatusAt`: what is said of a kind that has no package. -/
def fallbackStatus (exp : String) : Status where
  kind := exp
  state := .localOnly
  version := ""
  manifestSHA256 := ""
  evidence := []
  blockers := ["signed manifest", "source identity", "package version/hash", "provenance",
    "provenance license", "provenance rights", "regression result", "regression evidence",
    "staged rollout", "package rollback"]

/-- Blockers that make a package invalid. -/
def invalidating : List String :=
  ["manifest parse error", "manifest path", "package kind", "file hash", "file path",
    "signature invalid"]

/-- What blocks a package with a manifest that parses. -/
def packageBlockers (S : Std) (keys : TrustedKeyring) (exp : String) (dir : Option Tree)
    (m : Manifest) : List String :=
  uniqueStrings (manifestBlockers exp m ++ verifyFileHashes S dir m.files ++
    signatureBlockers (verifySignatureStatus S m keys) ++ controlBlockers S m)

/-- The errors of the package. -/
inductive Err
  | invalidKind (kind : String)
  | invalidPackage (detail : String)
  | noRollback
  | invalidEvidenceRequest (detail : String)
  | evidenceNotFound (detail : String)
  /-- A package could not be activated, and perhaps the one before it not be restored. -/
  | activate (err : String) (restore : Option String)
  | failed (detail : String)
  deriving DecidableEq

/-- `loadFromManifest`, in the directory of a package. -/
def loadFromManifest (S : Std) (keys : TrustedKeyring) (exp : String) (dir : Option Tree) :
    Except Err Status :=
  match readManifestRaw dir with
  | .error .notExist => .ok (fallbackStatus exp)
  | .error (.invalidPackage _) =>
      .ok { fallbackStatus exp with state := .invalid, blockers := ["manifest path"] }
  | .error (.failed err) => .error (.failed ("read " ++ exp ++ " manifest: " ++ err))
  | .ok raw =>
      let st := { fallbackStatus exp with manifestSHA256 := shaHex S raw }
      match S.unmarshal raw with
      | .error _ => .ok { st with state := .invalid, blockers := ["manifest parse error"] }
      | .ok m =>
          let blockers := packageBlockers S keys exp dir m
          .ok { st with
            version := m.version
            evidence := (m.contentReadiness.map ContentReadiness.evidence).getD []
            blockers := blockers
            state := if blockers = [] then .verified
              else if containsAnyOf blockers invalidating then .invalid
              else .incomplete }

/-- `statusFromDirWithKeyring`: the state of the package in the directory of a kind. It is an error
only if the kind is unknown or the manifest cannot be read. -/
def statusFromDir (S : Std) (keys : TrustedKeyring) (kind : String) (dir : Option Tree) :
    Except Err Status :=
  match expectedForKind kind with
  | none => .error (.invalidKind kind)
  | some exp => loadFromManifest S keys exp dir

/-- The package in the directory is **verified**. -/
def Verified (S : Std) (keys : TrustedKeyring) (kind : String) (dir : Option Tree) : Prop :=
  ∃ st, statusFromDir S keys kind dir = .ok st ∧ st.state = .verified

/-- A package: the text of its manifest, and the files that it lists as far as they can be read. -/
structure Package where
  manifest : List UInt8
  files : List (String × Option (List UInt8))
  deriving DecidableEq

/-- The bytes of a file that the manifest lists. -/
def listedFile (dir : Option Tree) (f : File) : Option (List UInt8) :=
  match safeExistingPackageFilePath dir f.path with
  | some (.file raw) => some raw
  | _ => none

/-- The package in a directory, if it has a manifest. -/
def packageAt (S : Std) (dir : Option Tree) : Option Package :=
  match readManifestRaw dir with
  | .error _ => none
  | .ok raw =>
      match S.unmarshal raw with
      | .error _ => none
      | .ok m => some ⟨raw, m.files.map fun f => (f.path, listedFile dir f)⟩

/-! ### What is not blocked

Verified means that there are no blockers, so each check was passed. The lemmas take this apart as
far as the copies of a package need it. -/

/-- Nothing is kept exactly when everything is blank or was there. -/
theorem uniqueLoop_eq_nil {seen values : List String} (hseen : "" ∉ seen) :
    uniqueLoop seen values = [] ↔ ∀ v ∈ values, trimSpace v = "" ∨ trimSpace v ∈ seen := by
  induction values generalizing seen with
  | nil => simp [uniqueLoop]
  | cons v values ih =>
      rw [uniqueLoop]
      split_ifs with h
      · rw [ih hseen, List.forall_mem_cons]
        exact ⟨fun hv => ⟨h, hv⟩, fun hv => hv.2⟩
      · exact ⟨(fun hv => by cases hv), fun hv => (h (hv v List.mem_cons_self)).elim⟩

theorem uniqueStrings_eq_nil {values : List String} :
    uniqueStrings values = [] ↔ ∀ v ∈ values, trimSpace v = "" := by
  rw [uniqueStrings, uniqueLoop_eq_nil List.not_mem_nil]
  simp

/-- What is kept stands in the list, trimmed. -/
theorem mem_uniqueLoop {seen values : List String} {v : String} (h : v ∈ uniqueLoop seen values) :
    v ≠ "" ∧ ∃ w ∈ values, v = trimSpace w := by
  induction values generalizing seen with
  | nil => cases h
  | cons w values ih =>
      rw [uniqueLoop] at h
      split_ifs at h with hw
      · obtain ⟨hne, u, hu, rfl⟩ := ih h
        exact ⟨hne, u, List.mem_cons_of_mem _ hu, rfl⟩
      · rcases List.mem_cons.mp h with rfl | h
        · exact ⟨fun hblank => hw (.inl hblank), w, List.mem_cons_self, rfl⟩
        · obtain ⟨hne, u, hu, rfl⟩ := ih h
          exact ⟨hne, u, List.mem_cons_of_mem _ hu, rfl⟩

theorem fileBlocker_visible {S : Std} {dir : Option Tree} {f : File} {b : String}
    (h : fileBlocker S dir f = some b) : trimSpace b = b ∧ b ≠ "" := by
  have hcases : b = "file path" ∨ b = "file hash" := by
    unfold fileBlocker at h
    split at h
    · exact .inl (Option.some.inj h).symm
    · split_ifs at h
      · exact .inl (Option.some.inj h).symm
      · exact .inr (Option.some.inj h).symm
    · exact .inl (Option.some.inj h).symm
  rcases hcases with rfl | rfl <;> decide

/-- A file that is not blocked is a regular file of the package with the listed digest. -/
theorem fileBlocker_eq_none {S : Std} {dir : Option Tree} {f : File}
    (h : fileBlocker S dir f = none) :
    ∃ raw, safeExistingPackageFilePath dir f.path = some (.file raw) ∧ f.path ≠ "" ∧
      toLower (shaHex S raw) = toLower (trimSpace f.sha256) := by
  unfold fileBlocker at h
  split at h
  · cases h
  · rename_i raw hfile
    split_ifs at h with h1 h2
    exact ⟨raw, hfile, h1, h2⟩
  · cases h

/-- Where nothing blocks a package, none of its files is blocked. -/
theorem files_of_packageBlockers {S : Std} {keys : TrustedKeyring} {exp : String}
    {dir : Option Tree} {m : Manifest} (h : packageBlockers S keys exp dir m = []) :
    ∀ f ∈ m.files, fileBlocker S dir f = none := by
  have hall := uniqueStrings_eq_nil.mp h
  have hfiles : ∀ v ∈ verifyFileHashes S dir m.files, trimSpace v = "" := by
    intro v hv
    exact hall v (by simp [hv])
  intro f hf
  cases hb : fileBlocker S dir f with
  | none => rfl
  | some b =>
      have hne : m.files ≠ [] := List.ne_nil_of_mem hf
      rw [verifyFileHashes, if_neg hne] at hfiles
      -- a blocker that is listed is not empty
      have hnil : uniqueStrings (m.files.filterMap (fileBlocker S dir)) = [] := by
        rw [List.eq_nil_iff_forall_not_mem]
        intro v hv
        obtain ⟨hne, w, hw, rfl⟩ := mem_uniqueLoop hv
        obtain ⟨g, -, hg⟩ := List.mem_filterMap.mp hw
        have hv' := hfiles _ hv
        rw [(fileBlocker_visible hg).1, (fileBlocker_visible hg).1] at hv'
        exact (fileBlocker_visible hg).2 hv'
      have hblank := uniqueStrings_eq_nil.mp hnil b (List.mem_filterMap.mpr ⟨f, hf, hb⟩)
      rw [(fileBlocker_visible hb).1] at hblank
      exact absurd hblank (fileBlocker_visible hb).2

/-- What a verified package is. -/
theorem loadFromManifest_verified {S : Std} {keys : TrustedKeyring} {exp : String}
    {dir : Option Tree} {st : Status} (h : loadFromManifest S keys exp dir = .ok st)
    (hst : st.state = .verified) :
    ∃ raw m, readManifestRaw dir = .ok raw ∧ S.unmarshal raw = .ok m ∧
      packageBlockers S keys exp dir m = [] ∧ st.version = m.version := by
  unfold loadFromManifest at h
  cases hraw : readManifestRaw dir with
  | error err =>
      rw [hraw] at h
      cases err <;> cases h <;> cases hst
  | ok raw =>
      rw [hraw] at h
      dsimp only at h
      cases hm : S.unmarshal raw with
      | error err =>
          rw [hm] at h
          cases h
          cases hst
      | ok m =>
          rw [hm] at h
          cases h
          dsimp only at hst
          split_ifs at hst with hnone
          exact ⟨raw, m, rfl, hm, hnone, rfl⟩

theorem statusFromDir_ok {S : Std} {keys : TrustedKeyring} {kind : String} {dir : Option Tree}
    {st : Status} (h : statusFromDir S keys kind dir = .ok st) :
    ∃ exp, expectedForKind kind = some exp ∧ loadFromManifest S keys exp dir = .ok st := by
  unfold statusFromDir at h
  cases hexp : expectedForKind kind with
  | none =>
      rw [hexp] at h
      cases h
  | some exp =>
      rw [hexp] at h
      exact ⟨exp, rfl, h⟩

/-! ### Directories with the same package

Two directories with the same manifest and the same listed files are in the same state
(`SamePackage`): nothing else of them is read. -/

/-- Where a manifest is read from. -/
theorem readManifestRaw_ok {dir : Option Tree} {raw : List UInt8}
    (h : readManifestRaw dir = .ok raw) :
    ∃ es, dir = some (.dir es) ∧ es.lookup "manifest.json" = some (.file raw) ∧
      raw.length ≤ maxManifestBytes := by
  unfold readManifestRaw at h
  split at h
  · cases h
  · rename_i es
    split at h
    · cases h
    · rename_i raw' hmanifest
      split_ifs at h with hsize
      cases h
      exact ⟨es, rfl, hmanifest, Nat.le_of_not_lt hsize⟩
    · cases h
  · cases h

theorem readManifestRaw_of_get {t : Tree} {raw : List UInt8}
    (h : t.get ["manifest.json"] = some (.file raw)) (hsize : raw.length ≤ maxManifestBytes) :
    readManifestRaw (some t) = .ok raw := by
  cases t with
  | file b => cases h
  | other => cases h
  | dir es =>
      have hlookup : es.lookup "manifest.json" = some (.file raw) := by
        obtain ⟨c, hc, hcget⟩ := Option.bind_eq_some_iff.mp h
        cases hcget
        exact hc
      rw [readManifestRaw, hlookup]
      exact if_neg (Nat.not_lt.mpr hsize)

/-- The directories have the same manifest, and the same files that it lists. -/
structure SamePackage (S : Std) (dir dir' : Option Tree) : Prop where
  manifest : readManifestRaw dir' = readManifestRaw dir
  files : ∀ raw m, readManifestRaw dir = .ok raw → S.unmarshal raw = .ok m → ∀ f ∈ m.files,
    safeExistingPackageFilePath dir' f.path = safeExistingPackageFilePath dir f.path

/-- The state of a package **depends on its manifest and the listed files only**. -/
theorem loadFromManifest_congr {S : Std} {dir dir' : Option Tree} (h : SamePackage S dir dir')
    (keys : TrustedKeyring) (exp : String) :
    loadFromManifest S keys exp dir' = loadFromManifest S keys exp dir := by
  unfold loadFromManifest
  rw [h.manifest]
  cases hraw : readManifestRaw dir with
  | error err => cases err <;> rfl
  | ok raw =>
      dsimp only
      cases hm : S.unmarshal raw with
      | error err => rfl
      | ok m =>
          have hblockers : packageBlockers S keys exp dir' m = packageBlockers S keys exp dir m := by
            unfold packageBlockers verifyFileHashes
            have hfiles : m.files.filterMap (fileBlocker S dir') =
                m.files.filterMap (fileBlocker S dir) := by
              refine List.filterMap_congr fun f hf => ?_
              rw [fileBlocker, fileBlocker, h.files raw m hraw hm f hf]
            rw [hfiles]
          dsimp only
          rw [hblockers]

theorem packageAt_congr {S : Std} {dir dir' : Option Tree} (h : SamePackage S dir dir') :
    packageAt S dir' = packageAt S dir := by
  unfold packageAt
  rw [h.manifest]
  cases hraw : readManifestRaw dir with
  | error err => rfl
  | ok raw =>
      dsimp only
      cases hm : S.unmarshal raw with
      | error err => rfl
      | ok m =>
          have hfiles : m.files.map (fun f => (f.path, listedFile dir' f)) =
              m.files.map fun f => (f.path, listedFile dir f) := by
            refine List.map_congr_left fun f hf => ?_
            rw [listedFile, listedFile, h.files raw m hraw hm f hf]
          dsimp only
          rw [hfiles]

theorem statusFromDir_congr {S : Std} {dir dir' : Option Tree} (h : SamePackage S dir dir')
    (keys : TrustedKeyring) (kind : String) :
    statusFromDir S keys kind dir' = statusFromDir S keys kind dir := by
  unfold statusFromDir
  cases expectedForKind kind with
  | none => rfl
  | some exp => exact loadFromManifest_congr h keys exp

/-- A verified package can be read. -/
theorem packageAt_of_verified {S : Std} {keys : TrustedKeyring} {kind : String}
    {dir : Option Tree} (h : Verified S keys kind dir) : ∃ p, packageAt S dir = some p := by
  obtain ⟨st, hst, hstate⟩ := h
  obtain ⟨exp, -, hload⟩ := statusFromDir_ok hst
  obtain ⟨raw, m, hraw, hm, -, -⟩ := loadFromManifest_verified hload hstate
  rw [packageAt, hraw]
  dsimp only
  rw [hm]
  exact ⟨_, rfl⟩

end Phragma.Contentpkg
