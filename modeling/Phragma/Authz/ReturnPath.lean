import Mathlib.Data.List.TakeWhile
import Phragma.Go.Url

/-!
# Phragma.Authz.ReturnPath

**Where a login leads back to**: `safeReturnPath` of `internal/authz/oidc.go`, which the OIDC and
the SAML login apply to their `return` parameter, and the redirect of the callback to what it
returned.

The check is made on the decoded path with its dot segments, and the redirect or the browser removes
them: a path below `/ui` can lead out of it (`callback_leaves_console`). The location leads to `/ui`
or below it exactly when the path starts at an element `ui` that no `..` reaches
(`callback_inConsole_iff`). Where the redirect cannot parse the decoded path it sends it as it is,
and the path ends at a `?` or a `#`. Otherwise it cleans all before the first `?`, with the fragment
if there is no query; an element `..#` is a name for it, and a step up for the browser.

The location is the header as it is set; white space at its end, which the server drops when it
writes the header, is left alone.
-/

namespace Phragma.Authz

open Go Lib

variable (parseAuthority : ByteString → Option ByteString)

/-! ### The algorithm

The path is checked as `url.Parse` decodes it, and what is returned is put together from the
parts. -/

/-- The tests of `safeReturnPath`. -/
def returnAllowed (u : URL) : Prop :=
  u.IsAbs = false ∧ u.host = [] ∧ ascii "/" <+: u.path ∧ ¬ ascii "//" <+: u.path ∧
    (ascii "/ui/" <+: u.path ∨ u.path = ascii "/ui")

instance (u : URL) : Decidable (returnAllowed u) := inferInstanceAs (Decidable (_ ∧ _))

/-- What `safeReturnPath` writes for a URL. -/
def returnText (u : URL) : ByteString :=
  u.path ++ (if u.rawQuery ≠ [] then questionMark :: u.rawQuery else []) ++
    if u.fragment ≠ [] then hashSign :: u.EscapedFragment else []

/-- `safeReturnPath`: where a login leads back to: the given path if it is allowed, else the
console. -/
def safeReturnPath (raw : ByteString) : ByteString :=
  if raw = [] then ascii "/ui/"
  else
    match Parse parseAuthority raw with
    | none => ascii "/ui/"
    | some u => if returnAllowed u then returnText u else ascii "/ui/"

/-- The location that `handleCallback` and `handleACS`, served at `oldpath`, send after a login
with the `return` parameter `raw`. -/
def callbackLocation (oldpath raw : ByteString) : ByteString :=
  Redirect parseAuthority oldpath (safeReturnPath parseAuthority raw)

/-! ### What it is for

What a browser makes of a location: its path, with the dot segments removed. -/

/-- Does the byte belong to the path of a location? -/
def isPathByte (b : UInt8) : Bool := b != questionMark && b != hashSign

/-- The path of a location. -/
def locationPath (location : ByteString) : ByteString := location.takeWhile isPathByte

/-- The path is `/ui` or below it. -/
def ConsolePath (path : ByteString) : Prop := path = ascii "/ui" ∨ ascii "/ui/" <+: path

/-- **The location stays in the console.** -/
structure InConsole (location : ByteString) : Prop where
  /-- Without its dot segments, the path is `/ui` or below it. -/
  path : ConsolePath (Clean (locationPath location))
  /-- No browser reads a host in it. -/
  noHost : ¬ ascii "//" <+: location
  noBackslash : ¬ ascii "/\\" <+: location

/-- An element `ui`, at whose end a fragment may start. -/
def isConsole (e : ByteString) : Prop := e.takeWhile isPathByte = ascii "ui"

/-- A step up, where a fragment starts in it. -/
def isHiddenStep (e : ByteString) : Prop := e.takeWhile isPathByte = ascii ".."

instance (e : ByteString) : Decidable (isConsole e) := inferInstanceAs (Decidable (_ = _))
instance (e : ByteString) : Decidable (isHiddenStep e) := inferInstanceAs (Decidable (_ = _))

/-- The path opens with an element `ui`. If the fragment does not start there, the next name that is
left is no step up in which it starts. -/
def OpensConsole (l : List (Option ByteString)) : Prop :=
  ∃ e after, Opens e after l ∧ isConsole e ∧
    (e = ascii "ui" → ∀ name, StartsAt name after → ¬ isHiddenStep name)

/-- What a `return` parameter says stays in the console. -/
def StaysInConsole (raw : ByteString) : Prop :=
  ∀ u, Parse parseAuthority raw = some u → returnAllowed u →
    if Parse parseAuthority (returnText u) = none then
      StartsAt (ascii "ui") (pathElements (locationPath (returnText u)))
    else OpensConsole (pathElements (beforeQuery (returnText u)))

/-! ### Escaping a location

Bytes that are not ASCII are escaped. No such byte ends a path or an element, so the elements stay
what they are. -/

/-- The byte ends neither a path nor an element. -/
def Inner (b : UInt8) : Prop := isPathByte b = true ∧ b ≠ slash

instance (b : UInt8) : Decidable (Inner b) := inferInstanceAs (Decidable (_ ∧ _))

theorem hexEscapeByte_cases (b : UInt8) :
    (b.toNat < 0x80 ∧ hexEscapeByte b = [b]) ∨
      Inner b ∧ ∃ hi lo, hexEscapeByte b = [percent, hi, lo] ∧ Inner hi ∧ Inner lo := by
  by_cases hb : 0x80 ≤ b.toNat
  · have hhex : ∀ n < 16, Inner (lowerHex n) := by decide
    have hlt := b.toNat_lt
    have hinner : Inner b := by
      unfold Inner isPathByte
      simp only [Bool.and_eq_true, bne_iff_ne]
      refine ⟨⟨?_, ?_⟩, ?_⟩ <;> rintro rfl <;> exact absurd hb (by decide)
    exact .inr ⟨hinner, _, _, if_pos hb, hhex _ (by omega), hhex _ (Nat.mod_lt _ (by decide))⟩
  · exact .inl ⟨Nat.not_le.mp hb, if_neg hb⟩

/-- Escaping does not move the end of the path. -/
theorem locationPath_hexEscape (s : ByteString) :
    locationPath (hexEscapeNonASCII s) = hexEscapeNonASCII (locationPath s) := by
  induction s with
  | nil => rfl
  | cons b s ih =>
      unfold locationPath hexEscapeNonASCII at ih ⊢
      rw [List.flatMap_cons]
      rcases hexEscapeByte_cases b with ⟨-, hb⟩ | ⟨⟨hpath, -⟩, hi, lo, hb, ⟨hhi, -⟩, hlo, -⟩
      · rw [hb, List.singleton_append]
        cases hpath : isPathByte b with
        | true =>
            rw [List.takeWhile_cons_of_pos hpath, List.takeWhile_cons_of_pos hpath, ih,
              List.flatMap_cons, hb, List.singleton_append]
        | false =>
            rw [List.takeWhile_cons_of_neg (by simp [hpath]),
              List.takeWhile_cons_of_neg (by simp [hpath])]
            rfl
      · have hpercent : isPathByte percent = true := by decide
        rw [hb, List.takeWhile_cons_of_pos hpath, List.flatMap_cons, hb, List.cons_append,
          List.cons_append, List.cons_append, List.nil_append,
          List.takeWhile_cons_of_pos hpercent, List.takeWhile_cons_of_pos hhi,
          List.takeWhile_cons_of_pos hlo, ih]
        rfl

/-- A text of plain ASCII. -/
def PlainBytes (w : ByteString) : Prop := ∀ b ∈ w, b.toNat < 0x80 ∧ b ≠ percent

instance (w : ByteString) : Decidable (PlainBytes w) :=
  inferInstanceAs (Decidable (∀ b ∈ w, b.toNat < 0x80 ∧ b ≠ percent))

/-- What an escaped text starts with. -/
theorem prefix_hexEscape {w : ByteString} (hw : PlainBytes w) (s : ByteString) :
    w <+: hexEscapeNonASCII s ↔ w <+: s := by
  induction w generalizing s with
  | nil => simp
  | cons c w ih =>
      obtain ⟨hc, hw⟩ := List.forall_mem_cons.mp hw
      cases s with
      | nil => rfl
      | cons b s =>
          unfold hexEscapeNonASCII at ih ⊢
          rw [List.flatMap_cons]
          rcases hexEscapeByte_cases b with ⟨-, hb⟩ | ⟨-, hi, lo, hb, -, -⟩
          · rw [hb, List.singleton_append, List.cons_prefix_cons, List.cons_prefix_cons, ih hw]
          · rw [hb, List.cons_append, List.cons_prefix_cons, List.cons_prefix_cons]
            refine iff_of_false (fun h => hc.2 h.1) fun h => ?_
            have hlow := hc.1
            rw [h.1] at hlow
            unfold hexEscapeByte at hb
            rw [if_neg (Nat.not_le.mpr hlow)] at hb
            cases hb

theorem length_le_hexEscape (s : ByteString) : s.length ≤ (hexEscapeNonASCII s).length := by
  induction s with
  | nil => exact Nat.zero_le _
  | cons b s ih =>
      unfold hexEscapeNonASCII at ih ⊢
      have hpos : 1 ≤ (hexEscapeByte b).length := by
        rcases hexEscapeByte_cases b with ⟨-, hb⟩ | ⟨-, hi, lo, hb, -, -⟩ <;> simp [hb]
      rw [List.flatMap_cons, List.length_append, List.length_cons]
      omega

theorem eq_hexEscape {w : ByteString} (hw : PlainBytes w) (s : ByteString) :
    hexEscapeNonASCII s = w ↔ s = w := by
  constructor
  · intro h
    have hescaped := (prefix_hexEscape hw s).mp (h ▸ List.prefix_refl _)
    have hlen := length_le_hexEscape s
    rw [h] at hlen
    exact (hescaped.eq_of_length_le hlen).symm
  · rintro rfl
    have hplain : ∀ b ∈ s, hexEscapeByte b = [b] := fun b hb => if_neg (Nat.not_le.mpr (hw b hb).1)
    unfold hexEscapeNonASCII
    rw [List.flatMap_congr hplain, List.flatMap_singleton']

theorem splitSlash_hexEscape (p : ByteString) :
    splitSlash (hexEscapeNonASCII p) = (splitSlash p).map hexEscapeNonASCII := by
  induction p with
  | nil => rfl
  | cons b bs ih =>
      obtain ⟨head, rest, hparts⟩ := List.exists_cons_of_ne_nil (splitSlash_ne_nil bs)
      unfold hexEscapeNonASCII at ih ⊢
      rw [List.flatMap_cons]
      rcases hexEscapeByte_cases b with ⟨-, hb⟩ | ⟨⟨-, hslash⟩, hi, lo, hb, ⟨-, hhi⟩, -, hlo⟩
      · rw [hb, List.singleton_append, splitSlash, splitSlash, ih, hparts]
        split
        · rfl
        · simp [hb]
      · have hpercent : percent ≠ slash := by decide
        rw [hb]
        simp only [List.cons_append, List.nil_append, splitSlash, hpercent, hhi, hlo, hslash, ih,
          hparts, if_false, List.map_cons, List.flatMap_cons, hb]

theorem pathElement_hexEscape (e : ByteString) :
    pathElement (hexEscapeNonASCII e) = (pathElement e).map (Option.map hexEscapeNonASCII) := by
  have hnil : hexEscapeNonASCII e = [] ↔ e = [] :=
    eq_hexEscape (fun b hb => absurd hb List.not_mem_nil) e
  unfold pathElement
  simp only [hnil, eq_hexEscape (w := ascii ".") (by decide +kernel),
    eq_hexEscape (w := ascii "..") (by decide +kernel)]
  split
  · rfl
  · split <;> rfl

/-- Escaping leaves the names in their places. -/
theorem startsAt_hexEscape {w : ByteString} (hw : PlainBytes w) (p : ByteString) :
    StartsAt w (pathElements (hexEscapeNonASCII p)) ↔ StartsAt w (pathElements p) := by
  have hmap : pathElements (hexEscapeNonASCII p) =
      (pathElements p).map (Option.map hexEscapeNonASCII) := by
    unfold pathElements
    rw [splitSlash_hexEscape, List.filterMap_map, List.map_filterMap]
    exact List.filterMap_congr fun e _ => pathElement_hexEscape e
  rw [← getLast?_climb_iff, ← getLast?_climb_iff, hmap]
  have hclimb := foldl_climb_map hexEscapeNonASCII (pathElements p) []
  rw [List.map_nil] at hclimb
  rw [hclimb, List.getLast?_map, Option.map_eq_some_iff]
  simp [eq_hexEscape hw]

/-! ### The path of a location

A path leads into the console if its first element is `ui` once the steps up are taken. -/

/-- A path below the root is in the console if its first part is `ui`. -/
theorem consolePath_iff (p : ByteString) :
    ConsolePath (slash :: p) ↔ p.takeWhile (fun b => b ≠ slash) = ascii "ui" := by
  constructor
  · rintro (h | ⟨rest, h⟩)
    · rw [(List.cons.inj h).2]
      decide
    · rw [← (List.cons.inj h).2]
      rfl
  · intro h
    have hsplit := List.takeWhile_append_dropWhile (p := fun b => decide (b ≠ slash)) (l := p)
    rw [h] at hsplit
    cases hdrop : p.dropWhile fun b => decide (b ≠ slash) with
    | nil =>
        rw [hdrop, List.append_nil] at hsplit
        exact .inl (congrArg (slash :: ·) hsplit.symm)
    | cons b rest =>
        have hb := List.head?_dropWhile_not (fun b => decide (b ≠ slash)) p
        rw [hdrop] at hb
        have hslash : b = slash := not_not.mp (of_decide_eq_false hb)
        rw [hdrop, hslash] at hsplit
        exact .inr ⟨rest, congrArg (slash :: ·) hsplit⟩

/-- The names of a path that are left without its dot segments. -/
def namesLeft (p : ByteString) : List ByteString := ((pathElements p).foldl climb []).reverse

theorem Clean_rooted {p : ByteString} (hroot : ascii "/" <+: p) :
    Clean p = slash :: joinSlash (namesLeft p) := if_pos hroot

/-- What is left are names. -/
theorem mem_namesLeft {p e : ByteString} (h : e ∈ namesLeft p) :
    slash ∉ e ∧ pathElement e = some (some e) := by
  rcases mem_foldl_climb (List.mem_reverse.mp h) with hnil | hmem
  · cases hnil
  · refine ⟨slash_notMem_of_mem_pathElements hmem, ?_⟩
    obtain ⟨part, -, hpart⟩ := List.mem_filterMap.mp hmem
    have hself := hpart
    unfold pathElement at hpart
    split at hpart
    · cases hpart
    · split at hpart
      · cases hpart
      · cases hpart
        exact hself

theorem namesLeft_head?_iff {p e : ByteString} :
    (namesLeft p).head? = some e ↔ StartsAt e (pathElements p) := by
  unfold namesLeft
  rw [List.head?_reverse, getLast?_climb_iff]

/-- **A rooted path** is in the console without its dot segments if it starts at `ui`. -/
theorem consolePath_Clean_iff {p : ByteString} (hroot : ascii "/" <+: p) :
    ConsolePath (Clean p) ↔ StartsAt (ascii "ui") (pathElements p) := by
  have hparts : ∀ part ∈ namesLeft p, slash ∉ part := fun part hpart => (mem_namesLeft hpart).1
  have hhead := takeWhile_joinSlash hparts (.inl rfl)
  rw [List.append_nil] at hhead
  rw [Clean_rooted hroot, consolePath_iff, hhead, ← namesLeft_head?_iff]
  cases namesLeft p with
  | nil => simp [ascii]
  | cons e parts => simp

/-! ### The path that the redirect cleaned

The redirect leaves names with slashes between them. The path ends where the fragment starts, in one
of the names, and what is left of that name is an element once more. -/

/-- The elements of cleaned names, up to the end of the path. -/
def cutNames : List ByteString → List (Option ByteString)
  | [] => []
  | e :: rest =>
      if e.all isPathByte then some e :: cutNames rest
      else (pathElement (e.takeWhile isPathByte)).toList

theorem pathElements_takeWhile {names : List ByteString}
    (h : ∀ e ∈ names, slash ∉ e ∧ pathElement e = some (some e)) {after : ByteString}
    (hafter : after = [] ∨ after = [slash]) :
    pathElements ((joinSlash names ++ after).takeWhile isPathByte) = cutNames names := by
  have hslash : isPathByte slash = true := by decide
  have hempty : pathElements [] = [] := rfl
  have htail : pathElements (after.takeWhile isPathByte) = [] := by
    rcases hafter with rfl | rfl <;> rfl
  induction names with
  | nil => exact htail
  | cons e rest ih =>
      obtain ⟨⟨hnot, hname⟩, hrest⟩ := List.forall_mem_cons.mp h
      rw [cutNames]
      -- the name is read whole, up to the next slash or the end
      by_cases hall : e.all isPathByte = true
      · have hpos := List.all_eq_true.mp hall
        have hself : pathElements e = [some e] := by
          rw [pathElements_of_notMem hnot, hname]
          rfl
        rw [if_pos hall]
        cases rest with
        | nil =>
            rw [joinSlash, List.takeWhile_append_of_pos hpos]
            rcases hafter with rfl | rfl
            · rw [List.takeWhile_nil, List.append_nil, hself, cutNames]
            · rw [List.takeWhile_cons_of_pos hslash, List.takeWhile_nil,
                pathElements_append_slash, hself, hempty, cutNames, List.append_nil]
        | cons next rest =>
            rw [show joinSlash (e :: next :: rest) = e ++ slash :: joinSlash (next :: rest) from rfl,
              List.append_assoc, List.takeWhile_append_of_pos hpos, List.cons_append,
              List.takeWhile_cons_of_pos hslash, pathElements_append_slash, hself, ih hrest]
            rfl
      · -- the path ends in the name
        have hcut : ∀ x : ByteString, (e ++ x).takeWhile isPathByte = e.takeWhile isPathByte := by
          intro x
          rw [List.takeWhile_append, if_neg]
          intro hlen
          refine hall (List.all_eq_true.mpr ?_)
          have heq := (List.takeWhile_prefix isPathByte).eq_of_length hlen
          intro b hb
          rw [← heq] at hb
          exact List.mem_takeWhile_imp hb
        have hwhole : ∃ x, joinSlash (e :: rest) ++ after = e ++ x := by
          cases rest with
          | nil => exact ⟨after, rfl⟩
          | cons next rest => exact ⟨_, List.append_assoc ..⟩
        obtain ⟨x, hx⟩ := hwhole
        rw [if_neg hall, hx, hcut, pathElements_of_notMem]
        exact fun hmem => hnot ((List.takeWhile_prefix _).mem hmem)

/-- The first of the names is a step up in which the fragment starts. -/
def StepsUp (names : List ByteString) : Prop := ∃ e rest, names = e :: rest ∧ isHiddenStep e

/-- The bottom of the stack stays, unless it lies alone and the next name steps up. -/
theorem getLast?_cutNames {names : List ByteString}
    (h : ∀ e ∈ names, slash ∉ e ∧ pathElement e = some (some e)) (s : List ByteString)
    (first x : ByteString) : ((cutNames names).foldl climb (s ++ [first])).getLast? = some x ↔
      first = x ∧ (s ≠ [] ∨ ¬ StepsUp names) := by
  induction names generalizing s with
  | nil => simp [cutNames, StepsUp]
  | cons e rest ih =>
      obtain ⟨⟨-, hname⟩, hrest⟩ := List.forall_mem_cons.mp h
      have hsteps : StepsUp (e :: rest) ↔ isHiddenStep e := by simp [StepsUp]
      rw [cutNames, hsteps]
      by_cases hall : e.all isPathByte = true
      · have hself : e.takeWhile isPathByte = e :=
          List.takeWhile_eq_self_iff.mpr (List.all_eq_true.mp hall)
        have hhidden : ¬ isHiddenStep e := by
          unfold isHiddenStep
          rw [hself]
          rintro rfl
          cases hname
        rw [if_pos hall, List.foldl_cons]
        refine (ih hrest (e :: s)).trans (and_congr_right fun _ => ?_)
        exact iff_of_true (.inl (List.cons_ne_nil _ _)) (.inr hhidden)
      · rw [if_neg hall]
        unfold isHiddenStep pathElement
        split
        · next hnone =>
            have hne : e.takeWhile isPathByte ≠ ascii ".." := by
              rcases hnone with heq | heq <;> rw [heq] <;> decide
            simp [hne]
        · split
          · next hup =>
              cases s with
              | nil => simp [hup, climb]
              | cons a s => simp [climb]
          · next hup =>
              rw [Option.toList_some, List.foldl_cons, List.foldl_nil, climb, ← List.cons_append,
                List.getLast?_concat, Option.some.injEq]
              exact (and_iff_left (.inr hup)).symm

/-- **What a cleaned path opens with**, up to the start of the fragment. -/
theorem startsAt_cutNames_iff {names : List ByteString}
    (h : ∀ e ∈ names, slash ∉ e ∧ pathElement e = some (some e)) :
    StartsAt (ascii "ui") (cutNames names) ↔
      ∃ e rest, names = e :: rest ∧ isConsole e ∧ (e = ascii "ui" → ¬ StepsUp rest) := by
  rw [← getLast?_climb_iff]
  cases names with
  | nil => simp [cutNames]
  | cons e rest =>
      obtain ⟨⟨-, hname⟩, hrest⟩ := List.forall_mem_cons.mp h
      have hone : (∃ e' rest', e :: rest = e' :: rest' ∧ isConsole e' ∧
          (e' = ascii "ui" → ¬ StepsUp rest')) ↔
          isConsole e ∧ (e = ascii "ui" → ¬ StepsUp rest) := by simp
      rw [hone, cutNames]
      by_cases hall : e.all isPathByte = true
      · have hself : e.takeWhile isPathByte = e :=
          List.takeWhile_eq_self_iff.mpr (List.all_eq_true.mp hall)
        rw [if_pos hall, List.foldl_cons]
        refine (getLast?_cutNames hrest [] e (ascii "ui")).trans ?_
        unfold isConsole
        rw [hself]
        refine and_congr_right fun he => ?_
        simp [he]
      · -- the path ends in the first name, which is not `ui` itself
        have hplain : e ≠ ascii "ui" := by
          rintro rfl
          exact hall (by decide)
        have hwhole : (isConsole e ∧ (e = ascii "ui" → ¬ StepsUp rest)) ↔ isConsole e :=
          and_iff_left fun he => absurd he hplain
        rw [if_neg hall, hwhole]
        unfold isConsole pathElement
        split
        · next hnone =>
            have hne : e.takeWhile isPathByte ≠ ascii "ui" := by
              rcases hnone with heq | heq <;> rw [heq] <;> decide
            simp [hne]
        · split
          · next hup =>
              have hne : ascii ".." ≠ ascii "ui" := by decide
              simp [hup, climb, hne]
          · simp [climb]

theorem opensConsole_iff {p : ByteString} : OpensConsole (pathElements p) ↔
    ∃ e rest, namesLeft p = e :: rest ∧ isConsole e ∧ (e = ascii "ui" → ¬ StepsUp rest) := by
  have hleft : ∀ {e after}, Opens e after (pathElements p) →
      namesLeft p = e :: (after.foldl climb []).reverse := by
    intro e after hopens
    unfold namesLeft
    rw [foldl_climb_of_opens hopens, List.reverse_append]
    rfl
  have hsteps : ∀ after : List (Option ByteString),
      (∀ name, StartsAt name after → ¬ isHiddenStep name) ↔
        ¬ StepsUp (after.foldl climb []).reverse := by
    intro after
    simp only [← getLast?_climb_iff, ← List.head?_reverse]
    unfold StepsUp
    cases (after.foldl climb []).reverse with
    | nil => simp
    | cons name rest => simp
  constructor
  · rintro ⟨e, after, hopens, hconsole, hnext⟩
    exact ⟨e, _, hleft hopens, hconsole, fun he => (hsteps after).mp (hnext he)⟩
  · rintro ⟨e, rest, hnames, hconsole, hnext⟩
    obtain ⟨after, hopens⟩ := namesLeft_head?_iff.mp (by rw [hnames]; rfl : _ = some e)
    have hrest := hleft hopens
    rw [hnames] at hrest
    obtain ⟨-, rfl⟩ := List.cons.inj hrest
    exact ⟨e, after, hopens, hconsole, fun he => (hsteps after).mpr (hnext he)⟩

/-! ### The redirect of the callback -/

variable {parseAuthority}

/-- A location that starts like the console's path names no host. -/
theorem inConsole_of_path {location : ByteString} (hlead : ascii "/u" <+: location)
    (hpath : ConsolePath (Clean (locationPath location))) : InConsole location := by
  have hsecond : ∀ w : ByteString, w.length = 2 → w <+: location → w = ascii "/u" := by
    intro w hlen hw
    exact (List.prefix_of_prefix_length_le hw hlead (by rw [hlen]; decide)).eq_of_length
      (by rw [hlen]; rfl)
  refine ⟨hpath, fun hw => ?_, fun hw => ?_⟩
  · exact absurd (hsecond _ rfl hw) (by decide)
  · exact absurd (hsecond _ rfl hw) (by decide)

/-- The path of an escaped text. -/
theorem consolePath_hexEscape_iff {s : ByteString} (hroot : ascii "/" <+: locationPath s) :
    ConsolePath (Clean (locationPath (hexEscapeNonASCII s))) ↔
      StartsAt (ascii "ui") (pathElements (locationPath s)) := by
  have hrooted : ascii "/" <+: hexEscapeNonASCII (locationPath s) :=
    (prefix_hexEscape (by decide +kernel) _).mpr hroot
  rw [locationPath_hexEscape, consolePath_Clean_iff hrooted, startsAt_hexEscape (by decide +kernel)]

/-- A text that is sent as it is. -/
theorem uncleaned_inConsole_iff {t : ByteString} (hlead : ascii "/u" <+: t) :
    InConsole (hexEscapeNonASCII t) ↔ StartsAt (ascii "ui") (pathElements (locationPath t)) := by
  have hroot : ascii "/" <+: locationPath t := by
    obtain ⟨rest, rfl⟩ := hlead
    exact ⟨_, rfl⟩
  rw [← consolePath_hexEscape_iff hroot]
  exact ⟨InConsole.path, inConsole_of_path ((prefix_hexEscape (by decide +kernel) _).mpr hlead)⟩

/-- A text whose path is cleaned. -/
theorem cleaned_inConsole_iff {t : ByteString} (hroot : ascii "/" <+: t) {query : ByteString}
    (hquery : ∀ b, query.head? = some b → b = questionMark) :
    InConsole (hexEscapeNonASCII (cleanKeepingSlash t ++ query)) ↔
      OpensConsole (pathElements t) := by
  obtain ⟨after, hafter, hclean⟩ : ∃ after, (after = [] ∨ after = [slash]) ∧
      cleanKeepingSlash t = slash :: (joinSlash (namesLeft t) ++ after) := by
    unfold cleanKeepingSlash
    rw [Clean_rooted hroot]
    split
    · exact ⟨[slash], .inr rfl, rfl⟩
    · exact ⟨[], .inl rfl, by rw [List.append_nil]⟩
  have hstop : query.takeWhile isPathByte = [] := by
    cases query with
    | nil => rfl
    | cons b query =>
        rw [hquery b rfl]
        rfl
  have hpath : locationPath (cleanKeepingSlash t ++ query) =
      slash :: (joinSlash (namesLeft t) ++ after).takeWhile isPathByte := by
    have hslash : isPathByte slash = true := by decide
    rw [hclean, locationPath, List.cons_append, List.takeWhile_cons_of_pos hslash,
      List.takeWhile_append, hstop, List.append_nil]
    split
    · next hlen => rw [(List.takeWhile_prefix _).eq_of_length hlen]
    · rfl
  have hnames : ∀ e ∈ namesLeft t, slash ∉ e ∧ pathElement e = some (some e) :=
    fun e he => mem_namesLeft he
  have hiff : ConsolePath (Clean (locationPath (hexEscapeNonASCII (cleanKeepingSlash t ++ query)))) ↔
      ∃ e rest, namesLeft t = e :: rest ∧ isConsole e ∧ (e = ascii "ui" → ¬ StepsUp rest) := by
    rw [consolePath_hexEscape_iff (by rw [hpath]; exact ⟨_, rfl⟩), hpath, pathElements_cons_slash,
      pathElements_takeWhile hnames hafter, startsAt_cutNames_iff hnames]
  rw [opensConsole_iff, ← hiff]
  refine ⟨InConsole.path, fun h => inConsole_of_path ?_ h⟩
  -- the first name starts with the `u` of the console
  obtain ⟨e, rest, hleft, hconsole, -⟩ := hiff.mp h
  have hu : ascii "ui" <+: e := hconsole ▸ List.takeWhile_prefix _
  obtain ⟨more, rfl⟩ := hu
  refine (prefix_hexEscape (by decide +kernel) _).mpr ?_
  rw [hclean, hleft]
  cases rest with
  | nil => exact ⟨_, rfl⟩
  | cons next rest => exact ⟨_, rfl⟩

/-- A redirect to a text whose path starts like the console's. -/
theorem redirect_inConsole_iff {t : ByteString} (hlead : ascii "/u" <+: t) (oldpath : ByteString) :
    InConsole (Redirect parseAuthority oldpath t) ↔
      if Parse parseAuthority t = none then StartsAt (ascii "ui") (pathElements (locationPath t))
      else OpensConsole (pathElements (beforeQuery t)) := by
  obtain ⟨r, rfl⟩ := hlead
  have hlocal := redirect_local parseAuthority oldpath r
  rw [show ascii "/u" ++ r = slash :: 0x75 :: r from rfl, hlocal]
  split
  · exact uncleaned_inConsole_iff ⟨r, rfl⟩
  · refine cleaned_inConsole_iff ⟨_, rfl⟩ fun b hb => ?_
    have hhead := List.head?_dropWhile_not (fun b => decide (b ≠ questionMark)) (slash :: 0x75 :: r)
    rw [show List.dropWhile _ _ = querySuffix (slash :: 0x75 :: r) from rfl, hb] at hhead
    exact not_not.mp (of_decide_eq_false hhead)

/-- A return path that is followed starts like the console's. -/
theorem returnText_lead {u : URL} (h : returnAllowed u) : ascii "/u" <+: returnText u := by
  have hpath : ascii "/u" <+: u.path := by
    rcases h.2.2.2.2 with ⟨rest, hrest⟩ | heq
    · exact ⟨ascii "i/" ++ rest, hrest⟩
    · exact ⟨ascii "i", heq.symm⟩
  unfold returnText
  rw [List.append_assoc]
  exact hpath.trans (List.prefix_append _ _)

/-- The console itself is where a login leads otherwise. -/
theorem inConsole_default (oldpath : ByteString) :
    InConsole (Redirect parseAuthority oldpath (ascii "/ui/")) := by
  have hopens : Opens (ascii "ui") [] [some (ascii "ui")] := ⟨[], rfl, rfl, trivial⟩
  refine (redirect_inConsole_iff ⟨ascii "i/", rfl⟩ oldpath).mpr ?_
  split
  · exact ⟨[], hopens⟩
  · refine ⟨ascii "ui", [], hopens, rfl, fun _ name hname => ?_⟩
    obtain ⟨after, before, hnil, -⟩ := hname
    exact absurd hnil.symm (by simp)

/-- **When a login leads back to the console.** For every `return` parameter it is exactly when the
parameter says something that stays there. -/
theorem callback_inConsole_iff (parseAuthority : ByteString → Option ByteString)
    (oldpath raw : ByteString) :
    InConsole (callbackLocation parseAuthority oldpath raw) ↔ StaysInConsole parseAuthority raw := by
  unfold callbackLocation safeReturnPath
  split
  · next hraw =>
      subst hraw
      refine iff_of_true (inConsole_default oldpath) fun u hu hallowed => ?_
      have hempty : Parse parseAuthority [] = some {} := rfl
      rw [hempty] at hu
      cases hu
      exact absurd hallowed.2.2.1 (by decide)
  · cases hparse : Parse parseAuthority raw with
    | none =>
        refine iff_of_true (inConsole_default oldpath) fun u hu => ?_
        rw [hparse] at hu
        cases hu
    | some u =>
        simp only
        split
        · next hallowed =>
            rw [redirect_inConsole_iff (returnText_lead hallowed)]
            constructor
            · intro h u' hu' _
              rw [hparse] at hu'
              cases hu'
              exact h
            · exact fun h => h u hparse hallowed
        · next hrefused =>
            refine iff_of_true (inConsole_default oldpath) fun u' hu' hallowed => ?_
            rw [hparse] at hu'
            cases hu'
            exact absurd hallowed hrefused

/-- The path `/ui/../%5Cevil.com` is accepted, and leads to another host. -/
theorem callback_leaves_console :
    callbackLocation (fun _ => none) (ascii "/v1/auth/oidc/callback") (ascii "/ui/../%5Cevil.com") =
        ascii "/\\evil.com" ∧
      ¬ InConsole (callbackLocation (fun _ => none) (ascii "/v1/auth/oidc/callback")
        (ascii "/ui/../%5Cevil.com")) := by
  have hlocation : callbackLocation (fun _ => none) (ascii "/v1/auth/oidc/callback")
      (ascii "/ui/../%5Cevil.com") = ascii "/\\evil.com" := by decide +kernel
  refine ⟨hlocation, fun h => ?_⟩
  rw [hlocation] at h
  exact h.noBackslash ⟨ascii "evil.com", rfl⟩

end Phragma.Authz
