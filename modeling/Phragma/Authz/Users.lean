import Phragma.Authz.StepUp
import Phragma.Lib.Resolve
import Phragma.Go.Netip
import Phragma.Go.Scan
import Mathlib.Data.List.Sort

/-!
# Phragma.Authz.Users

The users file of `internal/authz/authz.go`: what `Load` accepts, which tokens authenticate, and the
four operations that rewrite it.

The file is the list of its entries, since the YAML encoding is taken to round-trip. `Sha256` is the
hash function, of which nothing is assumed but the size of its digests.

`Load` looks entries up by the digests of their tokens, and refuses two enabled entries with one
digest. The operations look entries up **by name**, case-insensitively, and change the first they
find. `Load` accepts a file in which two entries have the same name, and there the entry that is
changed need not be the one that is meant (`disable_first_of_two`). With distinct names the
operations do what they are for, over any sequence of them (`local_user_lifecycle`).
-/

namespace Phragma.Authz

open Lib Go

/-! ### Digests -/

/-- `crypto/sha256`: a digest of 32 bytes for each text. -/
structure Sha256 where
  sum : String → List UInt8
  size : ∀ s, (sum s).length = 32

/-- `hex.EncodeToString`: two digits for each byte. -/
def hexEncode (bytes : List UInt8) : List Char := bytes.flatMap fun b => hexByte b.toNat

/-- `hex.DecodeString`: the bytes of a text of digits, in either case. -/
def hexDecode : List Char → Option (List UInt8)
  | [] => some []
  | [_] => none
  | a :: b :: rest =>
      match hexValue a, hexValue b, hexDecode rest with
      | some x, some y, some bytes => some (UInt8.ofNat (x * 16 + y) :: bytes)
      | _, _, _ => none

/-- The error of `hex.DecodeString` on a text of even length: the first byte that is no digit,
as `%#U` prints it. -/
def hexInvalidByte (cs : List Char) : String :=
  match cs.find? fun c => (hexValue c).isNone with
  | none => ""
  | some c =>
      let b := ((String.utf8EncodeChar c).head?.getD 0).toNat
      let digit (n : Nat) : Char := (hexDigit n).toUpper
      let printable := (0x20 ≤ b && b ≤ 0x7e) || (0xa1 ≤ b && b != 0xad)
      "encoding/hex: invalid byte: U+00" ++ String.ofList [digit (b / 16), digit (b % 16)] ++
        if printable then " '" ++ String.ofList [Char.ofNat b] ++ "'" else ""

/-- `parseTokenHash`: the digest of `sha256:` and 64 digits. -/
def parseTokenHash (raw : String) : Except String (List UInt8) :=
  if ¬ hasPrefixList (toLower raw).toList "sha256:".toList then
    .error "token_hash must use sha256:<hex>"
  else
    let hex := raw.toList.drop 7
    if byteLen hex ≠ 64 then
      .error "token_hash sha256 digest must be 64 hex characters"
    else
      match hexDecode hex with
      | none => .error ("token_hash sha256 digest must be hex: " ++ hexInvalidByte hex)
      | some digest => .ok digest

/-! ### Entries

An entry gives a token or its digest, and a role. What authenticates is the digest alone. -/

/-- `User`, one entry of the file. -/
structure User where
  name : String
  token : String
  tokenHash : String
  role : String
  disabled : Bool
  deriving DecidableEq, Repr

/-- `ParseRole`: the role of a name, in either case. -/
def ParseRole (s : String) : Except String Role :=
  if toLower s = "viewer" then .ok .viewer
  else if toLower s = "operator" then .ok .operator
  else if toLower s = "admin" then .ok .admin
  else .error ("unknown role " ++ quote s ++ " (viewer|operator|admin)")

theorem ParseRole_string (r : Role) : ParseRole r.string = .ok r := by
  cases r <;> decide

/-- `userTokenDigest`: the digest of an entry. It must not have both a token and a digest. -/
def userTokenDigest (sha : Sha256) (u : User) : Except String (List UInt8) :=
  let token := trimSpace u.token
  let tokenHash := trimSpace u.tokenHash
  if token ≠ "" ∧ tokenHash ≠ "" then .error "set exactly one of token or token_hash"
  else if token ≠ "" then
    if byteLen token.toList < 16 then .error "token must be at least 16 characters"
    else .ok (sha.sum token)
  else if tokenHash ≠ "" then parseTokenHash tokenHash
  else .error "set exactly one of token or token_hash"

/-- `localUserTokenHash`: the digest of a token, as it is written. -/
def localUserTokenHash (sha : Sha256) (token : String) : String :=
  "sha256:" ++ String.ofList (hexEncode (sha.sum token))

/-! ### `Load`

The file is read in order into a map by digest. Disabled entries are checked and then left out. -/

/-- The users of an `Authenticator`, by digest. -/
abbrev AuthUsers := List (List UInt8 × Identity)

/-- The loop of `Load`. -/
def loadLoop (sha : Sha256) : AuthUsers → List User → Except String AuthUsers
  | a, [] => .ok a
  | a, u :: users =>
      let name := trimSpace u.name
      if name = "" then .error ("user " ++ quote u.name ++ ": name required")
      else
        match userTokenDigest sha u with
        | .error err => .error ("user " ++ quote u.name ++ ": " ++ err)
        | .ok digest =>
            match ParseRole u.role with
            | .error err => .error ("user " ++ quote u.name ++ ": " ++ err)
            | .ok role =>
                if u.disabled then loadLoop sha a users
                else if (a.lookup digest).isSome then .error "duplicate token in users file"
                else loadLoop sha (a ++ [(digest, ⟨name, role, AuthSourceLocalUsersFile⟩)]) users

/-- `Load`, of a private file with these entries. -/
def Load (sha : Sha256) (path : String) (users : List User) : Except String AuthUsers :=
  match loadLoop sha [] users with
  | .error err => .error err
  | .ok a => if a = [] then .error ("users file " ++ path ++ " defines no users") else .ok a

/-- `lookup`, in the users of the file. -/
def lookupToken (sha : Sha256) (a : AuthUsers) (token : String) : Option Identity :=
  a.lookup (sha.sum token)

/-! ### The operations

An operation reads the file, edits its entries, checks that an administrator is left, and writes
all of it under a new name before it takes the place of the old one. -/

/-- `strings.EqualFold`. `fold` takes a rune to a representative of its simple folds. -/
def EqualFold (fold : Char → Char) (s t : String) : Prop := s.toList.map fold = t.toList.map fold

instance (fold : Char → Char) (s t : String) : Decidable (EqualFold fold s t) :=
  inferInstanceAs (Decidable (_ = _))

/-- `normalizeLocalUserName`: a name without the space around it, if it can be one. -/
def normalizeLocalUserName (name : String) : Except String String :=
  let name := trimSpace name
  if name = "" then .error "local user name is required"
  else if 128 < byteLen name.toList then .error "local user name must be at most 128 characters"
  else if name.toList.any fun c => ['/', '\x00', '\r', '\n', '\t'].contains c then
    .error "local user name contains unsupported characters"
  else .ok name

/-- The entry is one of this name. -/
def Named (fold : Char → Char) (name : String) (u : User) : Prop :=
  EqualFold fold (trimSpace u.name) (trimSpace name)

instance (fold : Char → Char) (name : String) (u : User) : Decidable (Named fold name u) :=
  inferInstanceAs (Decidable (_ = _))

/-- `findUserIndex`: the first entry of a name. -/
def findUserIndex (fold : Char → Char) (users : List User) (name : String) : Option Nat :=
  users.findIdx? fun u => decide (Named fold name u)

/-- `validateEnabledLocalAdmin`: the check that an enabled administrator is left. -/
def validateEnabledLocalAdmin : List User → Except String Unit
  | [] => .error "at least one enabled local admin user is required"
  | u :: users =>
      if u.disabled then validateEnabledLocalAdmin users
      else
        match ParseRole u.role with
        | .error err => .error ("user " ++ quote u.name ++ ": " ++ err)
        | .ok role => if role = .admin then .ok () else validateEnabledLocalAdmin users

/-- An operation on the file. `generated` is what `generateLocalUserToken` gives. -/
inductive UserOp
  | create (name role : String) (generated : Except String String)
  | updateRole (name role : String)
  | rotate (name : String) (generated : Except String String)
  | disable (name : String)

/-- The `mutate` of an operation: the entries it leaves, and the token it returns. -/
def UserOp.mutate (sha : Sha256) (fold : Char → Char) (users : List User) :
    UserOp → Except String (List User × Option String)
  | .create name role generated => do
      let name ← normalizeLocalUserName name
      if (findUserIndex fold users name).isSome then
        .error ("local user " ++ quote name ++ " already exists")
      else
        let role ← ParseRole role
        let token ← generated
        .ok (users ++ [⟨name, "", localUserTokenHash sha token, role.string, false⟩], some token)
  | .updateRole name role => do
      let name ← normalizeLocalUserName name
      match findUserIndex fold users name with
      | none => .error ("local user " ++ quote name ++ " not found")
      | some idx =>
          let role ← ParseRole role
          let users := users.modify idx fun u => { u with role := role.string }
          validateEnabledLocalAdmin users
          .ok (users, none)
  | .rotate name generated => do
      let name ← normalizeLocalUserName name
      match findUserIndex fold users name with
      | none => .error ("local user " ++ quote name ++ " not found")
      | some idx =>
          let token ← generated
          let users := users.modify idx fun u =>
            { u with token := "", tokenHash := localUserTokenHash sha token }
          .ok (users, some token)
  | .disable name => do
      let name ← normalizeLocalUserName name
      match findUserIndex fold users name with
      | none => .error ("local user " ++ quote name ++ " not found")
      | some idx =>
          let users := users.modify idx fun u => { u with disabled := true }
          validateEnabledLocalAdmin users
          .ok (users, none)

/-- An operation, with what its environment does: the check of the file's mode and owner, and the
writing and renaming of the new file, may fail. -/
structure UserCall where
  op : UserOp
  validate : Option String
  write : Option String

/-- `mutateUsersFile`, on the operation of the call: the authenticator and the returned token, or an
error, and the file. The `Load` at the end reads the file that has just been written; that it may
fail to (the check of its mode, `ReadFile`), with the new file in place, is left out. -/
def mutateUsersFile (sha : Sha256) (fold : Char → Char) (path : String) (call : UserCall)
    (users : List User) : Except String (AuthUsers × Option String) × List User :=
  match call.validate with
  | some err => (.error err, users)
  | none =>
      match call.op.mutate sha fold users with
      | .error err => (.error err, users)
      | .ok (next, token) =>
          match validateEnabledLocalAdmin next with
          | .error err => (.error err, users)
          | .ok () =>
              let next := next.insertionSort fun a b => trimSpace a.name ≤ trimSpace b.name
              match call.write with
              | some err => (.error err, users)
              | none => ((Load sha path next).map fun a => (a, token), next)

/-! ### Written digests are read back

An operation writes digests that it has made itself, and `Load` reads the digest that was
written. -/

theorem hexValue_hexDigit : ∀ n < 16, hexValue (hexDigit n) = some n := by decide

theorem hexDecode_hexEncode (bytes : List UInt8) : hexDecode (hexEncode bytes) = some bytes := by
  induction bytes with
  | nil => rfl
  | cons b bytes ih =>
      have hb : b.toNat < 256 := b.toNat_lt
      unfold hexEncode at ih ⊢
      rw [List.flatMap_cons, hexByte]
      simp only [List.cons_append, List.nil_append, hexDecode]
      rw [hexValue_hexDigit _ (Nat.mod_lt _ (by decide)),
        hexValue_hexDigit _ (Nat.mod_lt _ (by decide)), ih]
      have hval : b.toNat / 16 % 16 * 16 + b.toNat % 16 = b.toNat := by omega
      dsimp only
      rw [hval, UInt8.ofNat_toNat]

theorem hexDigit_plain : ∀ n < 16, (hexDigit n).utf8Size = 1 ∧ isSpace (hexDigit n) = false := by
  decide

theorem mem_hexEncode {bytes : List UInt8} {c : Char} (h : c ∈ hexEncode bytes) :
    c.utf8Size = 1 ∧ isSpace c = false := by
  obtain ⟨b, -, hc⟩ := List.mem_flatMap.mp h
  rw [hexByte] at hc
  rcases List.mem_cons.mp hc with rfl | hc
  · exact hexDigit_plain _ (Nat.mod_lt _ (by decide))
  · rw [List.mem_singleton.mp hc]
    exact hexDigit_plain _ (Nat.mod_lt _ (by decide))

theorem length_hexEncode (bytes : List UInt8) : (hexEncode bytes).length = 2 * bytes.length := by
  induction bytes with
  | nil => rfl
  | cons b bytes ih =>
      unfold hexEncode at ih ⊢
      rw [List.flatMap_cons, List.length_append, ih, hexByte, List.length_cons]
      simp only [List.length_cons, List.length_nil]
      omega

theorem byteLen_hexEncode (bytes : List UInt8) : byteLen (hexEncode bytes) = 2 * bytes.length := by
  have hone : (hexEncode bytes).map Char.utf8Size = List.replicate (hexEncode bytes).length 1 :=
    List.eq_replicate_iff.mpr ⟨List.length_map _, fun n hn => by
      obtain ⟨c, hc, rfl⟩ := List.mem_map.mp hn
      exact (mem_hexEncode hc).1⟩
  rw [byteLen, hone, List.sum_replicate_nat, Nat.mul_one, length_hexEncode]

theorem parseTokenHash_localUserTokenHash (sha : Sha256) (token : String) :
    parseTokenHash (localUserTokenHash sha token) = .ok (sha.sum token) := by
  have hlist : (localUserTokenHash sha token).toList =
      "sha256:".toList ++ hexEncode (sha.sum token) := by
    rw [localUserTokenHash, String.toList_append]
    exact congrArg _ String.toList_ofList
  have hlower : hasPrefixList (toLower (localUserTokenHash sha token)).toList
      "sha256:".toList = true := by
    rw [toLower, String.toList_ofList, hlist, List.map_append]
    exact List.isPrefixOf_iff_prefix.mpr (List.prefix_append _ _)
  unfold parseTokenHash
  rw [if_neg (not_not.mpr hlower), hlist]
  have hdrop : ("sha256:".toList ++ hexEncode (sha.sum token)).drop 7 =
      hexEncode (sha.sum token) := rfl
  dsimp only
  rw [hdrop, byteLen_hexEncode, sha.size, if_neg (not_not.mpr rfl), hexDecode_hexEncode]

/-- The digest of an entry with a generated token. -/
theorem userTokenDigest_generated (sha : Sha256) {u : User} {token : String} (htoken : u.token = "")
    (hhash : u.tokenHash = localUserTokenHash sha token) :
    userTokenDigest sha u = .ok (sha.sum token) := by
  have hword : ∀ c ∈ (localUserTokenHash sha token).toList, isSpace c = false := by
    intro c hc
    rw [localUserTokenHash, String.toList_append] at hc
    rcases List.mem_append.mp hc with hc | hc
    · have hall : ∀ c ∈ "sha256:".toList, isSpace c = false := by decide
      exact hall c hc
    · rw [String.toList_ofList] at hc
      exact (mem_hexEncode hc).2
  have hne : localUserTokenHash sha token ≠ "" := fun h =>
    absurd (String.append_eq_empty_iff.mp h).1 (by decide)
  have hempty : trimSpace "" = "" := by decide
  unfold userTokenDigest
  dsimp only
  rw [htoken, hhash, hempty, trimSpace_eq_self hword, if_neg (fun h => h.1 rfl),
    if_neg (not_not.mpr rfl), if_pos hne, parseTokenHash_localUserTokenHash]

/-! ### What `Load` accepts

Entries that are valid one by one and, among the enabled ones, have distinct digests. -/

section Load

variable {sha : Sha256} {path : String} {users : List User} {a : AuthUsers}

/-- The user of an entry, if it is enabled. -/
def entryOf (sha : Sha256) (u : User) : Option (List UInt8 × Identity) :=
  if u.disabled then none
  else
    match userTokenDigest sha u, ParseRole u.role with
    | .ok digest, .ok role => some (digest, ⟨trimSpace u.name, role, AuthSourceLocalUsersFile⟩)
    | _, _ => none

/-- An entry `Load` has nothing against. -/
structure ValidUser (sha : Sha256) (u : User) : Prop where
  name : trimSpace u.name ≠ ""
  digest : ∃ d, userTokenDigest sha u = .ok d
  role : ∃ r, ParseRole u.role = .ok r

/-- The entries are valid, no two enabled ones have the same digest, and there is an enabled one. -/
structure Accepted (sha : Sha256) (users : List User) : Prop where
  valid : ∀ u ∈ users, ValidUser sha u
  distinct : ((users.filterMap (entryOf sha)).map Prod.fst).Nodup
  enabled : users.filterMap (entryOf sha) ≠ []

theorem entryOf_eq_some {u : User} {e : List UInt8 × Identity} :
    entryOf sha u = some e ↔ u.disabled = false ∧ userTokenDigest sha u = .ok e.1 ∧
      ∃ r, ParseRole u.role = .ok r ∧ e.2 = ⟨trimSpace u.name, r, AuthSourceLocalUsersFile⟩ := by
  unfold entryOf
  obtain ⟨d, i⟩ := e
  by_cases hd : u.disabled
  · simp [hd]
  · cases hdigest : userTokenDigest sha u with
    | error err => simp [hd]
    | ok digest =>
        cases hrole : ParseRole u.role with
        | error err => simp [hd]
        | ok role => simp [hd, eq_comm]

theorem loadLoop_ok {b : AuthUsers} (h : loadLoop sha a users = .ok b) :
    (∀ u ∈ users, ValidUser sha u) ∧ b = a ++ users.filterMap (entryOf sha) ∧
      ((a.map Prod.fst).Nodup → (b.map Prod.fst).Nodup) := by
  induction users generalizing a with
  | nil =>
      rw [loadLoop, Except.ok.injEq] at h
      subst h
      exact ⟨fun _ h => (List.not_mem_nil h).elim, (List.append_nil _).symm, id⟩
  | cons u users ih =>
      rw [loadLoop] at h
      split at h
      · cases h
      · next hname =>
          split at h
          · cases h
          · next digest hdigest =>
              split at h
              · cases h
              · next role hrole =>
                  have hvalid : ValidUser sha u := ⟨hname, ⟨digest, hdigest⟩, ⟨role, hrole⟩⟩
                  split at h
                  · -- a user that is disabled is checked and left out of the table
                    next hdisabled =>
                      obtain ⟨hall, hb, hnodup⟩ := ih h
                      have hentry : entryOf sha u = none := by rw [entryOf, if_pos hdisabled]
                      refine ⟨List.forall_mem_cons.mpr ⟨hvalid, hall⟩, ?_, hnodup⟩
                      rw [List.filterMap_cons_none hentry, hb]
                  · next hdisabled =>
                      split at h
                      · cases h
                      · next hnew =>
                          obtain ⟨hall, hb, hnodup⟩ := ih h
                          have hentry : entryOf sha u = some (digest,
                              ⟨trimSpace u.name, role, AuthSourceLocalUsersFile⟩) := by
                            rw [entryOf, if_neg hdisabled, hdigest, hrole]
                          refine ⟨List.forall_mem_cons.mpr ⟨hvalid, hall⟩, ?_, fun ha => hnodup ?_⟩
                          · rw [List.filterMap_cons_some hentry, hb, List.append_assoc]
                            rfl
                          · rw [List.map_append, List.nodup_append]
                            refine ⟨ha, List.nodup_singleton _, ?_⟩
                            intro x hx y hy hxy
                            rw [hxy, List.mem_singleton.mp hy] at hx
                            obtain ⟨e, he, hfst⟩ := List.mem_map.mp hx
                            have heq : (digest, e.2) = e := Prod.ext hfst.symm rfl
                            -- a digest that was there already would have stopped the loop
                            have hlookup := lookup_of_mem ha (heq ▸ he)
                            rw [hlookup] at hnew
                            exact hnew rfl

/-- A file with these properties is accepted. -/
theorem loadLoop_of_valid (hvalid : ∀ u ∈ users, ValidUser sha u)
    (hnodup : ((a ++ users.filterMap (entryOf sha)).map Prod.fst).Nodup) :
    loadLoop sha a users = .ok (a ++ users.filterMap (entryOf sha)) := by
  induction users generalizing a with
  | nil => rw [loadLoop, List.filterMap_nil, List.append_nil]
  | cons u users ih =>
      obtain ⟨⟨hname, ⟨digest, hdigest⟩, ⟨role, hrole⟩⟩, hrest⟩ := List.forall_mem_cons.mp hvalid
      rw [loadLoop, if_neg hname, hdigest, hrole]
      dsimp only
      by_cases hdisabled : u.disabled
      · have hentry : entryOf sha u = none := by rw [entryOf, if_pos hdisabled]
        rw [List.filterMap_cons_none hentry] at hnodup ⊢
        rw [if_pos hdisabled]
        exact ih hrest hnodup
      · have hentry : entryOf sha u =
            some (digest, ⟨trimSpace u.name, role, AuthSourceLocalUsersFile⟩) := by
          rw [entryOf, if_neg hdisabled, hdigest, hrole]
        rw [List.filterMap_cons_some hentry] at hnodup ⊢
        have hnew : ¬ (a.lookup digest).isSome := by
          intro hsome
          obtain ⟨id, hid⟩ := Option.isSome_iff_exists.mp hsome
          rw [List.map_append, List.map_cons, List.nodup_append] at hnodup
          exact hnodup.2.2 digest (List.mem_map_of_mem (mem_of_lookup hid)) digest
            List.mem_cons_self rfl
        have hassoc := List.append_cons a
          (digest, (⟨trimSpace u.name, role, AuthSourceLocalUsersFile⟩ : Identity))
          (users.filterMap (entryOf sha))
        rw [hassoc] at hnodup ⊢
        rw [if_neg hdisabled, if_neg hnew]
        exact ih hrest hnodup

/-- **What `Load` accepts.** -/
theorem Load_ok_iff {b : AuthUsers} :
    Load sha path users = .ok b ↔ Accepted sha users ∧ b = users.filterMap (entryOf sha) := by
  constructor
  · intro h
    unfold Load at h
    split at h
    · cases h
    · next a ha =>
        obtain ⟨hvalid, hb, hnodup⟩ := loadLoop_ok ha
        split at h
        · cases h
        · next hne =>
            obtain rfl := Except.ok.inj h
            rw [List.nil_append] at hb
            subst hb
            exact ⟨⟨hvalid, hnodup List.nodup_nil, hne⟩, rfl⟩
  · rintro ⟨⟨hvalid, hnodup, hne⟩, rfl⟩
    have hloop := loadLoop_of_valid (a := []) hvalid (by rwa [List.nil_append])
    unfold Load
    rw [hloop, List.nil_append]
    dsimp only
    rw [if_neg hne]

/-- The order of the entries does not matter to what is accepted. -/
theorem Accepted.perm {users' : List User} (h : Accepted sha users) (hp : users'.Perm users) :
    Accepted sha users' where
  valid := fun u hu => h.valid u (hp.mem_iff.mp hu)
  distinct := (((hp.filterMap (entryOf sha)).map Prod.fst).nodup_iff).mpr h.distinct
  enabled := fun hnil => h.enabled (hnil ▸ (hp.filterMap (entryOf sha)).symm).eq_nil

/-- The token authenticates as the identity. -/
def Authenticates (sha : Sha256) (path : String) (users : List User) (token : String)
    (id : Identity) : Prop :=
  ∃ a, Load sha path users = .ok a ∧ lookupToken sha a token = some id

/-- **Who a token authenticates as**: the enabled entry with its digest. -/
theorem authenticates_iff (h : Accepted sha users) {token : String} {id : Identity} :
    Authenticates sha path users token id ↔
      ∃ u ∈ users, entryOf sha u = some (sha.sum token, id) := by
  have hload : Load sha path users = .ok (users.filterMap (entryOf sha)) :=
    Load_ok_iff.mpr ⟨h, rfl⟩
  unfold Authenticates lookupToken
  constructor
  · rintro ⟨a, ha, hid⟩
    obtain rfl := Except.ok.inj (hload.symm.trans ha)
    exact List.mem_filterMap.mp (mem_of_lookup hid)
  · intro hu
    exact ⟨_, hload, lookup_of_mem h.distinct (List.mem_filterMap.mpr hu)⟩

end Load

/-! ### What an operation does to the file

Every operation adds one entry or changes one, the first of its name. That is said once, and what is
kept of names, digests and validity is read off it. -/

section Mutate

variable {sha : Sha256} {fold : Char → Char} {users next : List User} {op : UserOp}
  {token : Option String}

/-- The name an operation is about. -/
def UserOp.name : UserOp → String
  | .create name _ _ | .updateRole name _ | .rotate name _ | .disable name => name

/-- The token an operation was given. -/
def UserOp.generated : UserOp → Option String
  | .create _ _ (.ok token) | .rotate _ (.ok token) => some token
  | _ => none

/-- What an operation makes of the entry it finds, and the token it returns. -/
inductive Changes (sha : Sha256) : UserOp → User → User → Option String → Prop
  | updateRole {name role : String} (u : User) (r : Role) :
      Changes sha (.updateRole name role) u { u with role := r.string } none
  | rotate {name : String} (u : User) (token : String) :
      Changes sha (.rotate name (.ok token)) u
        { u with token := "", tokenHash := localUserTokenHash sha token } (some token)
  | disable {name : String} (u : User) :
      Changes sha (.disable name) u { u with disabled := true } none

/-- **What an operation does**: it adds an entry with a new name, or changes the first with its
name. -/
inductive Mutated (sha : Sha256) (fold : Char → Char) (users : List User) :
    UserOp → List User → Option String → Prop
  | created (name role token : String) (r : Role) (hname : trimSpace name ≠ "")
      (hnew : ∀ u ∈ users, ¬ Named fold name u) :
      Mutated sha fold users (.create name role (.ok token))
        (users ++ [⟨trimSpace name, "", localUserTokenHash sha token, r.string, false⟩])
        (some token)
  | changed {op : UserOp} {token : Option String} (pre post : List User) (u u' : User)
      (hsplit : users = pre ++ u :: post) (hnamed : Named fold op.name u)
      (hpre : ∀ v ∈ pre, ¬ Named fold op.name v) (hchange : Changes sha op u u' token) :
      Mutated sha fold users op (pre ++ u' :: post) token

theorem normalizeLocalUserName_ok {name n : String} (h : normalizeLocalUserName name = .ok n) :
    n = trimSpace name ∧ trimSpace name ≠ "" := by
  unfold normalizeLocalUserName at h
  dsimp only at h
  split at h
  · cases h
  · next hne =>
      split at h
      · cases h
      · split at h
        · cases h
        · exact ⟨(Except.ok.inj h).symm, hne⟩

theorem named_trimSpace {name : String} {u : User} :
    Named fold (trimSpace name) u ↔ Named fold name u := by
  unfold Named
  rw [trimSpace_trimSpace]

/-- The entry that is found, and what changing it gives. -/
theorem findUserIndex_some {name : String} {idx : Nat}
    (h : findUserIndex fold users (trimSpace name) = some idx) :
    ∃ pre u post, users = pre ++ u :: post ∧ Named fold name u ∧ (∀ v ∈ pre, ¬ Named fold name v) ∧
      ∀ change : User → User, users.modify idx change = pre ++ change u :: post := by
  unfold findUserIndex at h
  obtain ⟨hlt, hnamed, hbefore⟩ := List.findIdx?_eq_some_iff_getElem.mp h
  have hsplit : users = users.take idx ++ users[idx] :: users.drop (idx + 1) := by
    rw [← List.drop_eq_getElem_cons hlt, List.take_append_drop]
  refine ⟨users.take idx, users[idx], users.drop (idx + 1), hsplit,
    named_trimSpace.mp (of_decide_eq_true hnamed), fun v hv => ?_, fun change => ?_⟩
  · obtain ⟨i, hi, rfl⟩ := List.getElem_of_mem hv
    rw [List.length_take] at hi
    rw [List.getElem_take, ← named_trimSpace]
    exact of_decide_eq_false (Bool.eq_false_iff.mpr (hbefore i (by omega)))
  · rw [List.modify_eq_take_cons_drop hlt]

theorem findUserIndex_none {name : String}
    (h : ¬ (findUserIndex fold users (trimSpace name)).isSome) :
    ∀ u ∈ users, ¬ Named fold name u := by
  unfold findUserIndex at h
  rw [Option.not_isSome_iff_eq_none, List.findIdx?_eq_none_iff] at h
  exact fun u hu => fun hn => of_decide_eq_false (h u hu) (named_trimSpace.mpr hn)

theorem mutated (h : op.mutate sha fold users = .ok (next, token)) :
    Mutated sha fold users op next token := by
  cases op with
  -- every operation looks the trimmed name up first, and writes nothing where that fails
  | create name role generated =>
      obtain ⟨n, hn, h⟩ := bind_ok.mp h
      obtain ⟨rfl, hne⟩ := normalizeLocalUserName_ok hn
      split at h
      · cases h
      · next hnew =>
          obtain ⟨r, -, h⟩ := bind_ok.mp h
          obtain ⟨t, rfl, h⟩ := bind_ok.mp h
          obtain ⟨rfl, rfl⟩ := Prod.mk.inj (Except.ok.inj h)
          exact .created name role t r hne (findUserIndex_none hnew)
  | updateRole name role =>
      obtain ⟨n, hn, h⟩ := bind_ok.mp h
      obtain ⟨rfl, -⟩ := normalizeLocalUserName_ok hn
      split at h
      · cases h
      · next idx hidx =>
          obtain ⟨r, -, h⟩ := bind_ok.mp h
          obtain ⟨-, -, h⟩ := bind_ok.mp h
          obtain ⟨rfl, rfl⟩ := Prod.mk.inj (Except.ok.inj h)
          obtain ⟨pre, u, post, hsplit, hnamed, hpre, hmodify⟩ := findUserIndex_some hidx
          rw [hmodify]
          exact .changed pre post u _ hsplit hnamed hpre (.updateRole u r)
  | rotate name generated =>
      obtain ⟨n, hn, h⟩ := bind_ok.mp h
      obtain ⟨rfl, -⟩ := normalizeLocalUserName_ok hn
      split at h
      · cases h
      · next idx hidx =>
          obtain ⟨t, rfl, h⟩ := bind_ok.mp h
          obtain ⟨rfl, rfl⟩ := Prod.mk.inj (Except.ok.inj h)
          obtain ⟨pre, u, post, hsplit, hnamed, hpre, hmodify⟩ := findUserIndex_some hidx
          rw [hmodify]
          exact .changed pre post u _ hsplit hnamed hpre (.rotate u t)
  | disable name =>
      obtain ⟨n, hn, h⟩ := bind_ok.mp h
      obtain ⟨rfl, -⟩ := normalizeLocalUserName_ok hn
      split at h
      · cases h
      · next idx hidx =>
          obtain ⟨-, -, h⟩ := bind_ok.mp h
          obtain ⟨rfl, rfl⟩ := Prod.mk.inj (Except.ok.inj h)
          obtain ⟨pre, u, post, hsplit, hnamed, hpre, hmodify⟩ := findUserIndex_some hidx
          rw [hmodify]
          exact .changed pre post u _ hsplit hnamed hpre (.disable u)

/-- An entry of the file has the digest. -/
def HasDigest (sha : Sha256) (users : List User) (d : List UInt8) : Prop :=
  ∃ u ∈ users, userTokenDigest sha u = .ok d

/-- Names are distinct, case-insensitively. -/
def DistinctNames (fold : Char → Char) (users : List User) : Prop :=
  users.Pairwise fun u v => ¬ EqualFold fold (trimSpace u.name) (trimSpace v.name)

instance (fold : Char → Char) (users : List User) : Decidable (DistinctNames fold users) :=
  inferInstanceAs (Decidable (List.Pairwise _ _))

theorem DistinctNames.perm {users' : List User} (h : DistinctNames fold users)
    (hp : users'.Perm users) : DistinctNames fold users' :=
  (hp.pairwise_iff fun hne heq => hne heq.symm).mpr h

theorem Changes.name {u u' : User} (h : Changes sha op u u' token) : u'.name = u.name := by
  cases h <;> rfl

theorem Changes.named {u u' : User} (h : Changes sha op u u' token) {name : String} :
    Named fold name u' ↔ Named fold name u := by
  unfold Named
  rw [h.name]

/-- The digest of a changed entry is its own or that of a generated token. -/
theorem Changes.digest {u u' : User} (h : Changes sha op u u' token) {d : List UInt8}
    (hd : userTokenDigest sha u' = .ok d) :
    userTokenDigest sha u = .ok d ∨ ∃ t, op.generated = some t ∧ sha.sum t = d := by
  cases h with
  | updateRole u r => exact .inl hd
  | rotate u t =>
      rw [userTokenDigest_generated sha rfl rfl] at hd
      exact .inr ⟨t, rfl, Except.ok.inj hd⟩
  | disable u => exact .inl hd

/-- An operation brings in no digest but that of the token it generates. -/
theorem Mutated.digest (h : Mutated sha fold users op next token) {d : List UInt8}
    (hd : HasDigest sha next d) :
    HasDigest sha users d ∨ ∃ t, op.generated = some t ∧ sha.sum t = d := by
  obtain ⟨v, hv, hd⟩ := hd
  cases h with
  | created name role t r hname hnew =>
      rcases List.mem_append.mp hv with hv | hv
      · exact .inl ⟨v, hv, hd⟩
      · rw [List.mem_singleton.mp hv, userTokenDigest_generated sha rfl rfl] at hd
        exact .inr ⟨t, rfl, Except.ok.inj hd⟩
  | changed pre post u u' hsplit hnamed hpre hchange =>
      subst hsplit
      rcases List.mem_append.mp hv with hv | hv
      · exact .inl ⟨v, List.mem_append_left _ hv, hd⟩
      · rcases List.mem_cons.mp hv with rfl | hv
        · rcases hchange.digest hd with hd | ht
          · exact .inl ⟨u, List.mem_append_right _ List.mem_cons_self, hd⟩
          · exact .inr ht
        · exact .inl ⟨v, List.mem_append_right _ (List.mem_cons_of_mem _ hv), hd⟩

/-- **Other users** stay as they are. -/
theorem Mutated.others (h : Mutated sha fold users op next token) :
    next.filter (fun u => ¬ Named fold op.name u) =
      users.filter fun u => ¬ Named fold op.name u := by
  cases h with
  | created name role t r hname hnew =>
      rw [List.filter_append]
      refine (congrArg _ (List.filter_cons_of_neg ?_)).trans (List.append_nil _)
      rw [decide_eq_true_eq, not_not]
      exact congrArg _ (congrArg _ (by rw [trimSpace_trimSpace]; rfl))
  | changed pre post u u' hsplit hnamed hpre hchange =>
      subst hsplit
      rw [List.filter_append, List.filter_append,
        List.filter_cons_of_neg
          (by rw [decide_eq_true_eq, not_not]; exact hchange.named.mpr hnamed),
        List.filter_cons_of_neg (by rw [decide_eq_true_eq, not_not]; exact hnamed)]

/-- Names stay distinct. -/
theorem Mutated.distinctNames (h : Mutated sha fold users op next token)
    (hd : DistinctNames fold users) : DistinctNames fold next := by
  cases h with
  | created name role t r hname hnew =>
      refine List.pairwise_append.mpr ⟨hd, List.pairwise_singleton _ _, ?_⟩
      intro u hu v hv heq
      rw [List.mem_singleton.mp hv] at heq
      dsimp only at heq
      rw [trimSpace_trimSpace] at heq
      exact hnew u hu heq
  | changed pre post u u' hsplit hnamed hpre hchange =>
      subst hsplit
      unfold DistinctNames at hd ⊢
      rw [List.pairwise_append, List.pairwise_cons] at hd ⊢
      obtain ⟨hpre', ⟨hu, hpost⟩, hcross⟩ := hd
      refine ⟨hpre', ⟨fun v hv => ?_, hpost⟩, fun x hx v hv => ?_⟩
      · rw [hchange.name]
        exact hu v hv
      · rcases List.mem_cons.mp hv with rfl | hv
        · rw [hchange.name]
          exact hcross x hx u List.mem_cons_self
        · exact hcross x hx v (List.mem_cons_of_mem _ hv)

/-- With distinct names, the entry an operation changed is the only one of its name. -/
theorem eq_of_named {pre post : List User} {u u' v : User} {name : String}
    (hd : DistinctNames fold (pre ++ u :: post)) (hname : u'.name = u.name)
    (hnamed : Named fold name u) (hv : v ∈ pre ++ u' :: post) (hvn : Named fold name v) :
    v = u' := by
  unfold DistinctNames at hd
  rw [List.pairwise_append, List.pairwise_cons] at hd
  obtain ⟨-, ⟨hu, -⟩, hcross⟩ := hd
  rcases List.mem_append.mp hv with hv | hv
  · exact (hcross v hv u List.mem_cons_self (Eq.trans hvn (Eq.symm hnamed))).elim
  · rcases List.mem_cons.mp hv with rfl | hv
    · rfl
    · exact (hu v hv (Eq.trans hnamed (Eq.symm hvn))).elim

theorem Changes.valid {u u' : User} (h : Changes sha op u u' token) (hu : ValidUser sha u) :
    ValidUser sha u' := by
  cases h with
  | updateRole u r => exact ⟨hu.name, hu.digest, ⟨r, ParseRole_string r⟩⟩
  | rotate u t => exact ⟨hu.name, ⟨_, userTokenDigest_generated sha rfl rfl⟩, hu.role⟩
  | disable u => exact ⟨hu.name, hu.digest, hu.role⟩

theorem Mutated.valid (h : Mutated sha fold users op next token)
    (hu : ∀ u ∈ users, ValidUser sha u) : ∀ u ∈ next, ValidUser sha u := by
  intro v hv
  cases h with
  | created name role t r hname hnew =>
      rcases List.mem_append.mp hv with hv | hv
      · exact hu v hv
      · rw [List.mem_singleton.mp hv]
        refine ⟨?_, ⟨_, userTokenDigest_generated sha rfl rfl⟩, ⟨r, ParseRole_string r⟩⟩
        rw [trimSpace_trimSpace]
        exact hname
  | changed pre post u u' hsplit hnamed hpre hchange =>
      subst hsplit
      rcases List.mem_append.mp hv with hv | hv
      · exact hu v (List.mem_append_left _ hv)
      · rcases List.mem_cons.mp hv with rfl | hv
        · exact hchange.valid (hu u (List.mem_append_right _ List.mem_cons_self))
        · exact hu v (List.mem_append_right _ (List.mem_cons_of_mem _ hv))

/-- The digests of the enabled entries. -/
def enabledDigests (sha : Sha256) (users : List User) : List (List UInt8) :=
  (users.filterMap (entryOf sha)).map Prod.fst

theorem enabledDigests_append (xs ys : List User) :
    enabledDigests sha (xs ++ ys) = enabledDigests sha xs ++ enabledDigests sha ys := by
  unfold enabledDigests
  rw [List.filterMap_append, List.map_append]

theorem enabledDigests_cons (u : User) (us : List User) :
    enabledDigests sha (u :: us) = enabledDigests sha [u] ++ enabledDigests sha us :=
  enabledDigests_append [u] us

theorem hasDigest_of_mem {d : List UInt8} (h : d ∈ enabledDigests sha users) :
    HasDigest sha users d := by
  obtain ⟨e, he, rfl⟩ := List.mem_map.mp h
  obtain ⟨u, hu, hentry⟩ := List.mem_filterMap.mp he
  exact ⟨u, hu, (entryOf_eq_some.mp hentry).2.1⟩

/-- The digests of one entry, if it is enabled and valid. -/
theorem enabledDigests_singleton {u : User} {d : List UInt8} (h : ValidUser sha u)
    (hd : userTokenDigest sha u = .ok d) :
    enabledDigests sha [u] = if u.disabled then [] else [d] := by
  obtain ⟨r, hr⟩ := h.role
  unfold enabledDigests entryOf
  by_cases hdis : u.disabled
  · simp [hdis]
  · simp [hdis, hd, hr]

/-- A changed entry has the digest it had, none, or one that is new to the file. -/
theorem Changes.enabledDigests {u u' : User} (h : Changes sha op u u' token)
    (hu : ValidUser sha u) :
    (Authz.enabledDigests sha [u']).Sublist (Authz.enabledDigests sha [u]) ∨
      ∃ t, op.generated = some t ∧ Authz.enabledDigests sha [u'] = [sha.sum t] := by
  obtain ⟨d, hd⟩ := hu.digest
  have hu' := h.valid hu
  rw [enabledDigests_singleton hu hd]
  cases h with
  | updateRole u r =>
      rw [enabledDigests_singleton hu' hd]
      exact .inl (List.Sublist.refl _)
  | rotate u t =>
      rw [enabledDigests_singleton hu' (userTokenDigest_generated sha rfl rfl)]
      cases hdis : u.disabled with
      | true => exact .inl (List.nil_sublist _)
      | false => exact .inr ⟨t, rfl, rfl⟩
  | disable u =>
      rw [enabledDigests_singleton hu' hd]
      exact .inl (List.nil_sublist _)

/-- Digests stay distinct, if the generated one is new. -/
theorem Mutated.distinctDigests (h : Mutated sha fold users op next token)
    (hvalid : ∀ u ∈ users, ValidUser sha u) (hd : (enabledDigests sha users).Nodup)
    (hfresh : ∀ t, op.generated = some t → ¬ HasDigest sha users (sha.sum t)) :
    (enabledDigests sha next).Nodup := by
  cases h with
  | created name role t r hname hnew =>
      have hother : sha.sum t ∉ enabledDigests sha users := fun hm =>
        hfresh t rfl (hasDigest_of_mem hm)
      have hdigest : userTokenDigest sha
          ⟨trimSpace name, "", localUserTokenHash sha t, r.string, false⟩ = .ok (sha.sum t) :=
        userTokenDigest_generated sha rfl rfl
      have hvalid' : ValidUser sha
          ⟨trimSpace name, "", localUserTokenHash sha t, r.string, false⟩ :=
        ⟨by rw [trimSpace_trimSpace]; exact hname, ⟨_, hdigest⟩, ⟨r, ParseRole_string r⟩⟩
      rw [enabledDigests_append, enabledDigests_singleton hvalid' hdigest]
      refine List.nodup_append.mpr ⟨hd, List.nodup_singleton _, fun x hx y hy hxy => ?_⟩
      rw [hxy, List.mem_singleton.mp hy] at hx
      exact hother hx
  | changed pre post u u' hsplit hnamed hpre hchange =>
      subst hsplit
      have hu := hvalid u (List.mem_append_right _ List.mem_cons_self)
      rw [enabledDigests_append, enabledDigests_cons] at hd ⊢
      rcases hchange.enabledDigests hu with hsub | ⟨t, hgen, hone⟩
      · exact hd.sublist ((List.Sublist.refl _).append (hsub.append (List.Sublist.refl _)))
      · have hnew : ∀ us, (∀ v ∈ us, v ∈ pre ++ u :: post) → sha.sum t ∉ enabledDigests sha us := by
          intro us hus hm
          obtain ⟨v, hv, hdv⟩ := hasDigest_of_mem hm
          exact hfresh t hgen ⟨v, hus v hv, hdv⟩
        have hpre' := hnew pre fun v hv => List.mem_append_left _ hv
        have hpost' := hnew post fun v hv =>
          List.mem_append_right _ (List.mem_cons_of_mem _ hv)
        have hrest : (enabledDigests sha pre ++ enabledDigests sha post).Nodup :=
          hd.sublist ((List.Sublist.refl _).append (List.sublist_append_right _ _))
        rw [hone]
        refine (List.perm_middle.nodup_iff).mpr (List.nodup_cons.mpr ⟨?_, hrest⟩)
        rw [List.mem_append]
        exact fun h => h.elim hpre' hpost'

theorem validateEnabledLocalAdmin_ok (h : validateEnabledLocalAdmin users = .ok ()) :
    ∃ u ∈ users, u.disabled = false ∧ ParseRole u.role = .ok .admin := by
  induction users with
  | nil => cases h
  | cons u users ih =>
      rw [validateEnabledLocalAdmin] at h
      split at h
      · obtain ⟨v, hv, hrest⟩ := ih h
        exact ⟨v, List.mem_cons_of_mem _ hv, hrest⟩
      · next hdis =>
          split at h
          · cases h
          · next role hrole =>
              split at h
              · next hadmin =>
                  exact ⟨u, List.mem_cons_self, Bool.eq_false_iff.mpr hdis, hadmin ▸ hrole⟩
              · obtain ⟨v, hv, hrest⟩ := ih h
                exact ⟨v, List.mem_cons_of_mem _ hv, hrest⟩

/-- **What an operation leaves is accepted**, if the generated token is new to the file. -/
theorem Mutated.accepted (h : Mutated sha fold users op next token) (ha : Accepted sha users)
    (hfresh : ∀ t, op.generated = some t → ¬ HasDigest sha users (sha.sum t))
    (hadmin : ∃ u ∈ next, u.disabled = false ∧ ParseRole u.role = .ok .admin) :
    Accepted sha next where
  valid := h.valid ha.valid
  distinct := h.distinctDigests ha.valid ha.distinct hfresh
  enabled := by
    obtain ⟨u, hu, hdis, hrole⟩ := hadmin
    obtain ⟨d, hd⟩ := (h.valid ha.valid u hu).digest
    have hentry : entryOf sha u = some (d, ⟨trimSpace u.name, .admin, AuthSourceLocalUsersFile⟩) :=
      entryOf_eq_some.mpr ⟨hdis, hd, .admin, hrole, rfl⟩
    exact List.ne_nil_of_mem (List.mem_filterMap.mpr ⟨u, hu, hentry⟩)

/-- **What a call does.** It fails and leaves the file, or the file becomes what the operation
leaves, in another order, and the call returns what `Load` makes of it. -/
theorem mutateUsersFile_cases (sha : Sha256) (fold : Char → Char) (path : String)
    (call : UserCall) (users : List User) :
    let r := mutateUsersFile sha fold path call users
    ((∃ err, r.1 = .error err) ∧ r.2 = users) ∨
      ∃ next token, Mutated sha fold users call.op next token ∧
        (∃ u ∈ next, u.disabled = false ∧ ParseRole u.role = .ok .admin) ∧ r.2.Perm next ∧
        r.1 = (Load sha path r.2).map fun a => (a, token) := by
  unfold mutateUsersFile
  split
  · exact .inl ⟨⟨_, rfl⟩, rfl⟩
  · split
    · exact .inl ⟨⟨_, rfl⟩, rfl⟩
    · next next token hmutate =>
        split
        · exact .inl ⟨⟨_, rfl⟩, rfl⟩
        · next hadmin =>
            dsimp only
            split
            · exact .inl ⟨⟨_, rfl⟩, rfl⟩
            · exact .inr ⟨next, token, mutated hmutate, validateEnabledLocalAdmin_ok hadmin,
                List.perm_insertionSort _ _, rfl⟩

end Mutate

/-! ### Runs

Between operations the file is accepted and has distinct names. Both are kept as long as generated
tokens are new. -/

section Runs

variable {sha : Sha256} {fold : Char → Char} {path : String}

abbrev UserEvent := Event UserCall (List User) (Except String (AuthUsers × Option String))

/-- The invariant: the file is accepted, and its names are distinct. -/
structure UsersInv (sha : Sha256) (fold : Char → Char) (users : List User) : Prop where
  accepted : Accepted sha users
  names : DistinctNames fold users

/-- The token a call generates is new to the file. -/
def FreshFor (sha : Sha256) (call : UserCall) (users : List User) : Prop :=
  ∀ t, call.op.generated = some t → ¬ HasDigest sha users (sha.sum t)

/-- **A call on a good file** fails and leaves it, or succeeds with another good file. -/
theorem mutateUsersFile_ok (path : String) {call : UserCall} {users : List User}
    (hI : UsersInv sha fold users) (hfresh : FreshFor sha call users) :
    let r := mutateUsersFile sha fold path call users
    ((∃ err, r.1 = .error err) ∧ r.2 = users) ∨
      ∃ next token a, Mutated sha fold users call.op next token ∧
        (∃ u ∈ next, u.disabled = false ∧ ParseRole u.role = .ok .admin) ∧ r.2.Perm next ∧
        r.1 = .ok (a, token) ∧ UsersInv sha fold r.2 := by
  intro r
  rcases mutateUsersFile_cases sha fold path call users with
    hfail | ⟨next, token, hm, hadmin, hperm, hres⟩
  · exact .inl hfail
  · have haccepted := (hm.accepted hI.accepted hfresh hadmin).perm hperm
    refine .inr ⟨next, token, r.2.filterMap (entryOf sha), hm, hadmin, hperm, ?_,
      ⟨haccepted, (hm.distinctNames hI.names).perm hperm⟩⟩
    show r.1 = _
    rw [hres, Load_ok_iff.mpr ⟨haccepted, rfl⟩]
    rfl

theorem usersInv_step {call : UserCall} {users : List User} (hI : UsersInv sha fold users)
    (hfresh : FreshFor sha call users) :
    UsersInv sha fold (mutateUsersFile sha fold path call users).2 := by
  rcases mutateUsersFile_ok path hI hfresh with
    ⟨-, hsame⟩ | ⟨_, _, _, -, -, -, -, hnext⟩
  · rw [hsame]
    exact hI
  · exact hnext

/-! ### Fresh tokens

The digests of a file come from its start or from a token that was generated in between, so a token
that was never generated meets none. -/

/-- The generated tokens are fresh: their digests differ, and are not in the file. -/
structure FreshTokens (sha : Sha256) (users : List User) (calls : List UserCall) : Prop where
  distinct : ((calls.filterMap fun call => call.op.generated).map sha.sum).Nodup
  new : ∀ t ∈ calls.filterMap fun call => call.op.generated, ¬ HasDigest sha users (sha.sum t)

/-- A digest of the file was there at the start or was generated. -/
theorem digest_origin {users : List User} {calls : List UserCall} {pre post : List UserEvent}
    {ev : UserEvent} (hs : history (mutateUsersFile sha fold path) users calls = pre ++ ev :: post)
    {d : List UInt8} (hd : HasDigest sha ev.before d) :
    HasDigest sha users d ∨ ∃ a ∈ pre, ∃ t, a.input.op.generated = some t ∧ sha.sum t = d := by
  by_cases h0 : HasDigest sha users d
  · exact .inl h0
  · obtain ⟨a, ha, hbefore, hafter⟩ :=
      history_cause (P := fun users => HasDigest sha users d) h0 hs hd
    refine .inr ⟨a, ha, ?_⟩
    have hexec := (history_event (hs ▸ List.mem_append_left _ ha)).2
    have hcases := mutateUsersFile_cases sha fold path a.input a.before
    dsimp only at hcases
    rw [hexec] at hcases
    rcases hcases with ⟨-, hsame⟩ | ⟨next, token, hm, -, hperm, -⟩
    · dsimp only at hsame
      rw [hsame] at hafter
      exact (hbefore hafter).elim
    · obtain ⟨u, hu, hud⟩ := hafter
      rcases hm.digest ⟨u, hperm.mem_iff.mp hu, hud⟩ with h | h
      · exact (hbefore h).elim
      · exact h

/-- A digest of the file is not generated again. -/
theorem not_generated {users : List User} {calls : List UserCall}
    (hfresh : FreshTokens sha users calls) {pre post : List UserEvent} {ev : UserEvent}
    (hs : history (mutateUsersFile sha fold path) users calls = pre ++ ev :: post)
    {d : List UInt8} (hd : HasDigest sha ev.before d) {b : UserEvent} (hb : b ∈ ev :: post)
    {t : String} (ht : b.input.op.generated = some t) : sha.sum t ≠ d := by
  have hcalls := history_map_input (mutateUsersFile sha fold path) users calls
  rw [hs, List.map_append] at hcalls
  have hlater : t ∈ ((ev :: post).map Event.input).filterMap fun call => call.op.generated :=
    List.mem_filterMap.mpr ⟨b.input, List.mem_map_of_mem hb, ht⟩
  intro heq
  rcases digest_origin hs hd with hinit | ⟨a, ha, t', ht', hd'⟩
  · refine hfresh.new t ?_ (heq ▸ hinit)
    rw [← hcalls, List.filterMap_append]
    exact List.mem_append_right _ hlater
  · have hearlier : t' ∈ (pre.map Event.input).filterMap fun call => call.op.generated :=
      List.mem_filterMap.mpr ⟨a.input, List.mem_map_of_mem ha, ht'⟩
    have hnodup := hfresh.distinct
    rw [← hcalls, List.filterMap_append, List.map_append] at hnodup
    exact (List.nodup_append.mp hnodup).2.2 _ (List.mem_map_of_mem hearlier) _
      (List.mem_map_of_mem hlater) (hd'.trans heq.symm)

theorem freshFor_event {users : List User} {calls : List UserCall}
    (hfresh : FreshTokens sha users calls) {ev : UserEvent}
    (hev : ev ∈ history (mutateUsersFile sha fold path) users calls) :
    FreshFor sha ev.input ev.before := by
  obtain ⟨pre, post, hs⟩ := List.append_of_mem hev
  intro t ht hd
  exact not_generated hfresh hs hd List.mem_cons_self ht rfl

theorem usersInv_event (path : String) {users : List User} {calls : List UserCall}
    (hI : UsersInv sha fold users) (hfresh : FreshTokens sha users calls) :
    ∀ ev ∈ history (mutateUsersFile sha fold path) users calls,
      UsersInv sha fold ev.before ∧ UsersInv sha fold ev.after :=
  history_invariant_of_events (C := fun ev => FreshFor sha ev.input ev.before)
    (fun _ _ hC hI => usersInv_step hI hC) (fun _ hev => freshFor_event hfresh hev) hI

/-! ### Disabled users and rotated tokens

Once a user is disabled no entry of the name is enabled, and once a token is rotated no enabled
entry of the name has its digest. Other operations keep both. -/

/-- The name is in the file, and all its entries are disabled. -/
structure Silenced (fold : Char → Char) (name : String) (users : List User) : Prop where
  known : ∃ u ∈ users, Named fold name u
  disabled : ∀ u ∈ users, Named fold name u → u.disabled = true

/-- No enabled entry of the name has the digest. -/
def Revoked (sha : Sha256) (fold : Char → Char) (name : String) (d : List UInt8)
    (users : List User) : Prop :=
  ∀ u ∈ users, Named fold name u → u.disabled = false → userTokenDigest sha u ≠ .ok d

theorem Silenced.perm {name : String} {users users' : List User} (h : Silenced fold name users)
    (hp : users'.Perm users) : Silenced fold name users' where
  known := by
    obtain ⟨u, hu, hn⟩ := h.known
    exact ⟨u, hp.mem_iff.mpr hu, hn⟩
  disabled := fun u hu => h.disabled u (hp.mem_iff.mp hu)

/-- A disabled user stays disabled. -/
theorem Silenced.mutated {name : String} {users next : List User} {op : UserOp}
    {token : Option String} (h : Silenced fold name users)
    (hm : Mutated sha fold users op next token) : Silenced fold name next := by
  cases hm with
  | created other role t r hname hnew =>
      obtain ⟨u, hu, hn⟩ := h.known
      refine ⟨⟨u, List.mem_append_left _ hu, hn⟩, fun v hv hvn => ?_⟩
      rcases List.mem_append.mp hv with hv | hv
      · exact h.disabled v hv hvn
      · -- The new name is not this one, which is taken.
        rw [List.mem_singleton.mp hv] at hvn
        have hother : Named fold name ⟨other, "", "", "", false⟩ := by
          unfold Named at hvn ⊢
          dsimp only at hvn
          rwa [trimSpace_trimSpace] at hvn
        exact (hnew u hu (Eq.trans hn (Eq.symm hother))).elim
  | changed pre post u u' hsplit hnamed hpre hchange =>
      subst hsplit
      constructor
      · obtain ⟨v, hv, hvn⟩ := h.known
        rcases List.mem_append.mp hv with hv | hv
        · exact ⟨v, List.mem_append_left _ hv, hvn⟩
        · rcases List.mem_cons.mp hv with rfl | hv
          · exact ⟨u', List.mem_append_right _ List.mem_cons_self, hchange.named.mpr hvn⟩
          · exact ⟨v, List.mem_append_right _ (List.mem_cons_of_mem _ hv), hvn⟩
      · intro v hv hvn
        rcases List.mem_append.mp hv with hv | hv
        · exact h.disabled v (List.mem_append_left _ hv) hvn
        · rcases List.mem_cons.mp hv with rfl | hv
          · have hu := h.disabled u (List.mem_append_right _ List.mem_cons_self)
              (hchange.named.mp hvn)
            cases hchange with
            | updateRole u r => exact hu
            | rotate u t => exact hu
            | disable u => rfl
          · exact h.disabled v (List.mem_append_right _ (List.mem_cons_of_mem _ hv)) hvn

theorem Silenced.step {name : String} {users : List User} (h : Silenced fold name users)
    (call : UserCall) : Silenced fold name (mutateUsersFile sha fold path call users).2 := by
  rcases mutateUsersFile_cases sha fold path call users with
    ⟨-, hsame⟩ | ⟨next, token, hm, -, hperm, -⟩
  · rw [hsame]
    exact h
  · exact (h.mutated hm).perm hperm

/-- A revoked digest stays revoked while it is not generated. -/
theorem Revoked.step {name : String} {d : List UInt8} {users : List User}
    (h : Revoked sha fold name d users) {call : UserCall}
    (hd : ∀ t, call.op.generated = some t → sha.sum t ≠ d) :
    Revoked sha fold name d (mutateUsersFile sha fold path call users).2 := by
  rcases mutateUsersFile_cases sha fold path call users with
    ⟨-, hsame⟩ | ⟨next, token, hm, -, hperm, -⟩
  · rw [hsame]
    exact h
  · intro v hv hvn hdis hdig
    have hmem := hperm.mem_iff.mp hv
    clear hv
    generalize call.op = op at hd hm
    cases hm with
    | created other role t r hname hnew =>
        rcases List.mem_append.mp hmem with hv | hv
        · exact h v hv hvn hdis hdig
        · rw [List.mem_singleton.mp hv, userTokenDigest_generated sha rfl rfl] at hdig
          exact hd t rfl (Except.ok.inj hdig)
    | changed pre post u u' hsplit hnamed hpre hchange =>
        subst hsplit
        rcases List.mem_append.mp hmem with hv | hv
        · exact h v (List.mem_append_left _ hv) hvn hdis hdig
        · rcases List.mem_cons.mp hv with rfl | hv
          · rcases hchange.digest hdig with hdig | ⟨t, ht, hsum⟩
            · have hu : u.disabled = false := by
                cases hchange with
                | updateRole u r => exact hdis
                | rotate u t => exact hdis
                | disable u => cases hdis
              exact h u (List.mem_append_right _ List.mem_cons_self) (hchange.named.mp hvn) hu hdig
            · exact hd t ht hsum
          · exact h v (List.mem_append_right _ (List.mem_cons_of_mem _ hv)) hvn hdis hdig

/-- No token authenticates as a silenced user. -/
theorem Silenced.not_authenticates {name : String} {users : List User}
    (h : Silenced fold name users) (ha : Accepted sha users) {token : String} {id : Identity}
    (hauth : Authenticates sha path users token id) :
    ¬ EqualFold fold id.name (trimSpace name) := by
  intro heq
  obtain ⟨u, hu, hentry⟩ := (authenticates_iff ha).mp hauth
  obtain ⟨hdis, -, r, -, hid⟩ := entryOf_eq_some.mp hentry
  dsimp only at hid
  rw [hid] at heq
  rw [h.disabled u hu heq] at hdis
  cases hdis

/-- A token of a revoked digest does not authenticate as the user. -/
theorem Revoked.not_authenticates {name token : String} {users : List User}
    (h : Revoked sha fold name (sha.sum token) users) (ha : Accepted sha users) {id : Identity}
    (hauth : Authenticates sha path users token id) :
    ¬ EqualFold fold id.name (trimSpace name) := by
  intro heq
  obtain ⟨u, hu, hentry⟩ := (authenticates_iff ha).mp hauth
  obtain ⟨hdis, hdig, r, -, hid⟩ := entryOf_eq_some.mp hentry
  dsimp only at hid
  rw [hid] at heq
  exact h u hu heq hdis hdig

/-- What a successful call has done, on a good file. -/
theorem event_ok {users : List User} {calls : List UserCall} (hI : UsersInv sha fold users)
    (hfresh : FreshTokens sha users calls) {ev : UserEvent}
    (hev : ev ∈ history (mutateUsersFile sha fold path) users calls)
    {out : AuthUsers × Option String} (hok : ev.output = .ok out) :
    ∃ next, Mutated sha fold ev.before ev.input.op next out.2 ∧
      (∃ u ∈ next, u.disabled = false ∧ ParseRole u.role = .ok .admin) ∧ ev.after.Perm next := by
  have hcases := mutateUsersFile_ok path (usersInv_event path hI hfresh ev hev).1
    (freshFor_event hfresh hev)
  dsimp only at hcases
  rw [(history_event hev).2] at hcases
  rcases hcases with ⟨⟨err, herr⟩, -⟩ | ⟨next, token, a, hm, hadmin, hperm, hout, -⟩
  · rw [hok] at herr
    cases herr
  · rw [hok] at hout
    obtain rfl := Except.ok.inj hout
    exact ⟨next, hm, hadmin, hperm⟩

/-- A successful disable silences the user. -/
theorem silenced_of_disable {name : String} {users next : List User} {token : Option String}
    (hd : DistinctNames fold users) (hm : Mutated sha fold users (.disable name) next token) :
    Silenced fold name next := by
  cases hm with
  | changed pre post u u' hsplit hnamed hpre hchange =>
      subst hsplit
      refine ⟨⟨u', List.mem_append_right _ List.mem_cons_self, hchange.named.mpr hnamed⟩, ?_⟩
      intro v hv hvn
      rw [eq_of_named hd hchange.name hnamed hv hvn]
      cases hchange
      rfl

/-- What a successful rotation leaves of the user: one entry, with the digest of the new token. -/
theorem rotated {name : String} {g : Except String String} {users next : List User}
    {token : Option String} (hd : DistinctNames fold users)
    (hm : Mutated sha fold users (.rotate name g) next token) :
    ∃ t, token = some t ∧ (UserOp.rotate name g).generated = some t ∧
      ∀ v ∈ next, Named fold name v → userTokenDigest sha v = .ok (sha.sum t) := by
  cases hm with
  | changed pre post u u' hsplit hnamed hpre hchange =>
      subst hsplit
      have hone : ∀ v ∈ pre ++ u' :: post, Named fold name v → v = u' := fun v hv hvn =>
        eq_of_named hd hchange.name hnamed hv hvn
      cases hchange with
      | rotate u t =>
          refine ⟨t, rfl, rfl, fun v hv hvn => ?_⟩
          rw [hone v hv hvn]
          exact userTokenDigest_generated sha rfl rfl

/-- What every call does, whatever its operation. -/
structure CallSound (sha : Sha256) (fold : Char → Char) (path : String) (ev : UserEvent) :
    Prop where
  /-- A call that fails leaves the file. -/
  failed : ∀ err, ev.output = .error err → ev.after = ev.before
  /-- A call that succeeds leaves a file that is accepted and has an enabled administrator. -/
  loaded : ∀ out, ev.output = .ok out → (∃ a, Load sha path ev.after = .ok a) ∧
    ∃ u ∈ ev.after, u.disabled = false ∧ ParseRole u.role = .ok .admin
  /-- The entries of other users stay. -/
  others : (ev.after.filter fun u => ¬ Named fold ev.input.op.name u).Perm
    (ev.before.filter fun u => ¬ Named fold ev.input.op.name u)

theorem callSound_of_event {users : List User} {calls : List UserCall}
    (hI : UsersInv sha fold users) (hfresh : FreshTokens sha users calls) {ev : UserEvent}
    (hev : ev ∈ history (mutateUsersFile sha fold path) users calls) :
    CallSound sha fold path ev := by
  have hcases := mutateUsersFile_ok path (usersInv_event path hI hfresh ev hev).1
    (freshFor_event hfresh hev)
  dsimp only at hcases
  rw [(history_event hev).2] at hcases
  rcases hcases with ⟨⟨err, herr⟩, hsame⟩ | ⟨next, token, a, hm, hadmin, hperm, hout, hnext⟩
  · dsimp only at herr hsame
    refine ⟨fun _ _ => hsame, fun out hok => ?_, by rw [hsame]⟩
    rw [herr] at hok
    cases hok
  · refine ⟨fun e he => ?_, fun _ _ => ⟨⟨_, Load_ok_iff.mpr ⟨hnext.accepted, rfl⟩⟩, ?_⟩, ?_⟩
    · dsimp only at hout
      rw [hout] at he
      cases he
    · obtain ⟨u, hu, hrest⟩ := hadmin
      exact ⟨u, hperm.mem_iff.mpr hu, hrest⟩
    · rw [← hm.others]
      exact hperm.filter _

/-- The states of a run from a call on. -/
def statesFrom (ev : UserEvent) (post : List UserEvent) : List (List User) :=
  ev.after :: post.map Event.after

/-- What a call brings about and later calls keep holds in every state from then on. -/
theorem holds_from {users : List User} {calls : List UserCall} (hI : UsersInv sha fold users)
    (hfresh : FreshTokens sha users calls) {pre post : List UserEvent} {ev : UserEvent}
    (hs : history (mutateUsersFile sha fold path) users calls = pre ++ ev :: post)
    {I : List User → Prop} {C : UserEvent → Prop} (h0 : I ev.after) (hC : ∀ b ∈ post, C b)
    (hstep : ∀ call s, C ⟨call, s, (mutateUsersFile sha fold path call s).1,
        (mutateUsersFile sha fold path call s).2⟩ → I s →
      I (mutateUsersFile sha fold path call s).2) :
    ∀ s ∈ statesFrom ev post, I s ∧ Accepted sha s := by
  have hinv := usersInv_event path hI hfresh
  intro s hmem
  rcases List.mem_cons.mp hmem with rfl | hmem
  · exact ⟨h0, (hinv ev (hs ▸ List.mem_append_right _ List.mem_cons_self)).2.accepted⟩
  · obtain ⟨b, hb, rfl⟩ := List.mem_map.mp hmem
    exact ⟨history_since_after hs h0 hstep hC b hb,
      (hinv b (hs ▸ List.mem_append_right _ (List.mem_cons_of_mem _ hb))).2.accepted⟩

/-- **Local user lifecycle.** Let a file be accepted by `Load`, with names that are distinct
case-insensitively, and let the generated tokens be fresh. In every run of the operations:
every call is sound; from a successful disable on, no token authenticates as the user; and from a
successful rotation on, no token that authenticated as the user before does, while the returned one
does after it, if the user is enabled. -/
theorem local_user_lifecycle (sha : Sha256) (fold : Char → Char) (path : String)
    (users : List User) (hload : ∃ a, Load sha path users = .ok a)
    (hnames : DistinctNames fold users) (calls : List UserCall)
    (hfresh : FreshTokens sha users calls) :
    let es : List UserEvent := history (mutateUsersFile sha fold path) users calls
    (∀ ev ∈ es, CallSound sha fold path ev) ∧
      (∀ pre ev post name out, es = pre ++ ev :: post → ev.input.op = .disable name →
        ev.output = .ok out → ∀ s ∈ statesFrom ev post, ∀ token id,
          Authenticates sha path s token id → ¬ EqualFold fold id.name (trimSpace name)) ∧
      ∀ pre ev post name g out, es = pre ++ ev :: post → ev.input.op = .rotate name g →
        ev.output = .ok out →
        (∀ token id, Authenticates sha path ev.before token id →
            EqualFold fold id.name (trimSpace name) → ∀ s ∈ statesFrom ev post, ∀ id',
              Authenticates sha path s token id' → ¬ EqualFold fold id'.name (trimSpace name)) ∧
          ∃ token, out.2 = some token ∧
            ((∃ u ∈ ev.after, Named fold name u ∧ u.disabled = false) →
              ∃ id, Authenticates sha path ev.after token id ∧
                EqualFold fold id.name (trimSpace name)) := by
  intro es
  obtain ⟨a, ha⟩ := hload
  have hI : UsersInv sha fold users := ⟨(Load_ok_iff.mp ha).1, hnames⟩
  have hinv := usersInv_event path hI hfresh
  refine ⟨fun ev hev => callSound_of_event hI hfresh hev, ?_, ?_⟩
  · -- disabled: no call of the list enables the user again
    intro pre ev post name out hs hop hok s hmem token id hauth
    have hev : ev ∈ es := hs ▸ List.mem_append_right _ List.mem_cons_self
    obtain ⟨next, hm, -, hperm⟩ := event_ok hI hfresh hev hok
    rw [hop] at hm
    have h0 := (silenced_of_disable (hinv ev hev).1.names hm).perm hperm
    obtain ⟨hsil, hacc⟩ := holds_from (C := fun _ => True) hI hfresh hs h0 (fun _ _ => trivial)
      (fun call s _ h => h.step call) s hmem
    exact hsil.not_authenticates hacc hauth
  · -- rotated: the old digest comes from no token that is made later
    intro pre ev post name g out hs hop hok
    have hev : ev ∈ es := hs ▸ List.mem_append_right _ List.mem_cons_self
    obtain ⟨next, hm, -, hperm⟩ := event_ok hI hfresh hev hok
    rw [hop] at hm
    obtain ⟨t, ht, hgen, hdigest⟩ := rotated (hinv ev hev).1.names hm
    have hafter : ∀ v ∈ ev.after, Named fold name v → userTokenDigest sha v = .ok (sha.sum t) :=
      fun v hv => hdigest v (hperm.mem_iff.mp hv)
    refine ⟨fun token id hauth heq s hmem id' hauth' => ?_, t, ht, ?_⟩
    · have hold : HasDigest sha ev.before (sha.sum token) := by
        obtain ⟨u, hu, hentry⟩ := (authenticates_iff (hinv ev hev).1.accepted).mp hauth
        exact ⟨u, hu, (entryOf_eq_some.mp hentry).2.1⟩
      -- the token of the rotation is new to the file
      have hnew : sha.sum t ≠ sha.sum token :=
        not_generated hfresh hs hold List.mem_cons_self (by rw [hop]; exact hgen)
      have h0 : Revoked sha fold name (sha.sum token) ev.after := by
        intro v hv hvn _ hdig
        rw [hafter v hv hvn] at hdig
        exact hnew (Except.ok.inj hdig)
      obtain ⟨hrev, hacc⟩ := holds_from
        (C := fun b => ∀ t, b.input.op.generated = some t → sha.sum t ≠ sha.sum token)
        hI hfresh hs h0
        (fun b hb t ht => not_generated hfresh hs hold (List.mem_cons_of_mem _ hb) ht)
        (fun call s hC h => h.step hC) s hmem
      exact hrev.not_authenticates hacc hauth'
    · -- the new token lets the user in, if the user is enabled
      rintro ⟨u, hu, hun, hdis⟩
      obtain ⟨r, hr⟩ := ((hinv ev hev).2.accepted.valid u hu).role
      exact ⟨_, (authenticates_iff (hinv ev hev).2.accepted).mpr
        ⟨u, hu, entryOf_eq_some.mpr ⟨hdis, hafter u hu hun, r, hr, rfl⟩⟩, hun⟩

end Runs

/-! ### Two entries of one name

The second entry keeps its token when the user is disabled. -/

/-- `sha256.Sum256`, on the tokens of the samples. -/
def sampleSum (s : String) : List UInt8 :=
  if s = "alice-first-token" then
    [89, 63, 182, 97, 159, 104, 131, 110, 116, 1, 244, 90, 107, 18, 98, 244,
      45, 220, 10, 163, 215, 253, 133, 90, 8, 37, 119, 58, 104, 175, 155, 12]
  else if s = "alice-second-token" then
    [169, 116, 176, 153, 210, 119, 25, 153, 146, 65, 102, 38, 155, 33, 189, 121,
      88, 94, 56, 20, 18, 40, 44, 49, 1, 221, 115, 246, 254, 11, 135, 232]
  else if s = "phr_bob" then
    [23, 75, 72, 176, 60, 147, 127, 138, 130, 240, 96, 186, 254, 225, 48, 124,
      55, 101, 237, 178, 165, 252, 64, 11, 43, 96, 170, 141, 2, 166, 114, 50]
  else List.replicate 32 0

def sampleSha : Sha256 where
  sum := sampleSum
  size := by
    intro s
    unfold sampleSum
    split
    · rfl
    · split
      · rfl
      · split <;> rfl

/-- An administrator. -/
def sampleAlice : User := ⟨"alice", "alice-first-token", "", "admin", false⟩

/-- A file that was edited by hand: `Alice` was added to it with a token of her own. -/
def twoAlices : List User := [sampleAlice, ⟨"Alice", "alice-second-token", "", "admin", false⟩]

/-- **Disabling one of two**: the file is accepted, the disable succeeds, and the second token still
authenticates under the name, case-insensitively. -/
theorem disable_first_of_two :
    let r := mutateUsersFile sampleSha toLowerRune "users.yaml" ⟨.disable "alice", none, none⟩
      twoAlices
    (∃ a, Load sampleSha "users.yaml" twoAlices = .ok a) ∧ (∃ out, r.1 = .ok out) ∧
      ∃ id, Authenticates sampleSha "users.yaml" r.2 "alice-second-token" id ∧
        EqualFold toLowerRune id.name (trimSpace "alice") := by
  have hload : (Load sampleSha "users.yaml" twoAlices).isOk = true := by decide
  have hnext : (mutateUsersFile sampleSha toLowerRune "users.yaml" ⟨.disable "alice", none, none⟩
      twoAlices).1 = .ok ([(sampleSum "alice-second-token",
        ⟨"Alice", .admin, AuthSourceLocalUsersFile⟩)], none) := by decide
  have hafter : Load sampleSha "users.yaml" (mutateUsersFile sampleSha toLowerRune "users.yaml"
      ⟨.disable "alice", none, none⟩ twoAlices).2 = .ok [(sampleSum "alice-second-token",
        ⟨"Alice", .admin, AuthSourceLocalUsersFile⟩)] := by decide
  refine ⟨?_, ⟨_, hnext⟩, ⟨"Alice", .admin, AuthSourceLocalUsersFile⟩, ⟨_, hafter, ?_⟩, ?_⟩
  · cases h : Load sampleSha "users.yaml" twoAlices with
    | error err => rw [h] at hload; cases hload
    | ok a => exact ⟨a, rfl⟩
  · decide
  · decide

/-- A file with one administrator, whose token is rotated. -/
theorem local_user_lifecycle_rotate :
    Load sampleSha "users.yaml" [sampleAlice] = .ok
        [(sampleSum "alice-first-token", ⟨"alice", .admin, AuthSourceLocalUsersFile⟩)] ∧
    ∀ ev ∈ history (mutateUsersFile sampleSha toLowerRune "users.yaml") [sampleAlice]
        [⟨.rotate "Alice" (.ok "phr_bob"), none, none⟩],
      CallSound sampleSha toLowerRune "users.yaml" ev := by
  have hload : Load sampleSha "users.yaml" [sampleAlice] = .ok
      [(sampleSum "alice-first-token", ⟨"alice", .admin, AuthSourceLocalUsersFile⟩)] := by
    decide
  refine ⟨hload, (local_user_lifecycle sampleSha toLowerRune "users.yaml" [sampleAlice]
    ⟨_, hload⟩ ?_ [⟨.rotate "Alice" (.ok "phr_bob"), none, none⟩] ⟨?_, ?_⟩).1⟩
  · decide
  · decide
  · intro t ht
    obtain rfl := List.mem_singleton.mp ht
    rintro ⟨u, hu, hd⟩
    rw [List.mem_singleton.mp hu] at hd
    revert hd
    decide

end Phragma.Authz
