import Phragma.Go.Lines
import Phragma.Go.Text

/-!
# Phragma.Go.AddrText

The text of an address is read back as that address (`parseAddr_string`), and so is the text
of a prefix (`parsePrefix_string`).

An IPv6 address is written as groups between colons, with the first longest run of zeros left
out. What the reader needs to know of that text is where its colons are: there is no double
colon but the one that stands for the run.
-/

namespace Phragma.Go

/-! ### Numbers -/

/-- A separator joins parts that do not hold it, and splitting takes them apart again. -/
theorem splitOn_intercalate {c : Char} : ∀ {parts : List (List Char)}, parts ≠ [] →
    (∀ p ∈ parts, c ∉ p) → splitOn c ([c].intercalate parts) = parts := by
  intro parts
  induction parts with
  | nil => intro h; exact absurd rfl h
  | cons p parts ih =>
      intro _ hall
      have hp := hall p List.mem_cons_self
      cases parts with
      | nil => rw [List.intercalate_singleton, splitOn_of_notMem hp]
      | cons q parts =>
          have hrest := ih (List.cons_ne_nil q parts) fun r hr => hall r (List.mem_cons_of_mem _ hr)
          rw [List.intercalate_cons_cons, List.append_assoc, List.singleton_append, splitOn_append,
            splitOn_of_notMem hp, hrest]
          rfl

/-- Only zero is written with a leading zero. -/
theorem head?_toDigits {b n : Nat} (hb : 1 < b) (hb' : b ≤ 16) (hn : 0 < n) :
    (Nat.toDigits b n).head? ≠ some '0' := by
  have hdigit : ∀ d < 16, 0 < d → Nat.digitChar d ≠ '0' := by decide
  induction n using Nat.strongRecOn with
  | ind n ih =>
      rw [Nat.toDigits_eq_if hb]
      split
      · next hlt => simpa using hdigit n (by omega) hn
      · next hge =>
          have hpos : 0 < n / b := Nat.div_pos (by omega) (by omega)
          rw [List.head?_append_of_ne_nil _ Nat.toDigits_ne_nil]
          exact ih (n / b) (Nat.div_lt_self hn hb) hpos

/-- A decimal number has no leading zero unless it is a single digit. -/
theorem no_leading_zero (n : Nat) :
    (decide (1 < (decimal n).toList.length) && (decimal n).toList.head? == some '0') = false := by
  rw [toList_decimal]
  rcases Nat.eq_zero_or_pos n with rfl | hn
  · rfl
  · simp [head?_toDigits (b := 10) (by decide) (by decide) hn]

/-- The value of the digits of a decimal number. -/
theorem foldl_decimal (n : Nat) :
    (decimal n).toList.foldl (fun n c => n * 10 + (c.toNat - '0'.toNat)) 0 = n := by
  have h := Nat.ofDigitChars_ten_toDigits (n := n)
  rw [Nat.ofDigitChars_eq_foldl] at h
  rw [toList_decimal]
  simpa only [Nat.mul_comm] using h

theorem all_isDigit_decimal (n : Nat) : (decimal n).toList.all Char.isDigit = true :=
  List.all_eq_true.mpr fun _ hc => isDigit_of_mem_decimal hc

theorem parseOctet_decimal {n : Nat} (h : n ≤ 255) : parseOctet (decimal n).toList = some n := by
  have hlen : (decimal n).toList.length ≤ 3 := (length_decimal (by decide)).mpr (by omega)
  have hlen' : decide (3 < (decimal n).toList.length) = false := by simpa using hlen
  unfold parseOctet
  rw [List.isEmpty_eq_false_iff.mpr (decimal_ne_nil n), all_isDigit_decimal, hlen',
    no_leading_zero, foldl_decimal]
  exact if_pos h

theorem parseBits_decimal (n : Nat) : parseBits (decimal n).toList = some n := by
  unfold parseBits
  rw [List.isEmpty_eq_false_iff.mpr (decimal_ne_nil n), all_isDigit_decimal, no_leading_zero,
    foldl_decimal]
  rfl

/-- A decimal number holds digits only. -/
theorem notMem_decimal {c : Char} (hc : c.isDigit = false) (n : Nat) : c ∉ (decimal n).toList := by
  intro h
  rw [isDigit_of_mem_decimal h] at hc
  cases hc

/-! ### Dotted quads -/

theorem toList_quadString (n : Nat) : (quadString n).toList = ['.'].intercalate
    [(decimal (n / 16777216 % 256)).toList, (decimal (n / 65536 % 256)).toList,
      (decimal (n / 256 % 256)).toList, (decimal (n % 256)).toList] := by
  rw [quadString, join, String.toList_intercalate]
  rfl

theorem parseIPv4_quadString {n : Nat} (h : n < 2 ^ 32) :
    parseIPv4 (quadString n).toList = some (BitVec.ofNat 32 n) := by
  have hoctet : ∀ m, parseOctet (decimal (m % 256)).toList = some (m % 256) := fun m =>
    parseOctet_decimal (by omega)
  have hvalue : ((n / 16777216 % 256 * 256 + n / 65536 % 256) * 256 + n / 256 % 256) * 256 +
      n % 256 = n := by omega
  unfold parseIPv4
  rw [toList_quadString, splitOn_intercalate (by simp) (by simp [notMem_decimal])]
  simp only [List.map_cons, List.map_nil, hoctet, hvalue]

/-- The characters of a dotted quad. -/
theorem notMem_quadString {c : Char} (hc : c.isDigit = false) (hdot : c ≠ '.') (n : Nat) :
    c ∉ (quadString n).toList := by
  rw [toList_quadString]
  simp [notMem_decimal hc, hdot]

/-! ### Groups -/

theorem hexValue_digitChar : ∀ d < 16, hexValue (Nat.digitChar d) = some d := by decide

/-- The last digit comes off the end. -/
theorem hexDigits_eq (n : Nat) :
    hexDigits n = (if n < 16 then [] else hexDigits (n / 16)) ++ [Nat.digitChar (n % 16)] := by
  unfold hexDigits
  rw [Nat.toDigits_eq_if (by decide)]
  split
  · next hlt => rw [Nat.mod_eq_of_lt hlt, List.nil_append]
  · rfl

theorem hexDigits_ne_nil (n : Nat) : hexDigits n ≠ [] := Nat.toDigits_ne_nil

/-- Only hexadecimal digits are written. -/
theorem hexValue_of_mem_hexDigits {n : Nat} {c : Char} (h : c ∈ hexDigits n) :
    (hexValue c).isSome = true := by
  induction n using Nat.strongRecOn with
  | ind n ih =>
      rw [hexDigits_eq] at h
      rcases List.mem_append.mp h with h | h
      · split at h
        · cases h
        · exact ih (n / 16) (by omega) h
      · obtain rfl := List.mem_singleton.mp h
        rw [hexValue_digitChar _ (Nat.mod_lt _ (by decide))]
        rfl

theorem notMem_hexDigits {c : Char} (hc : hexValue c = none) (n : Nat) : c ∉ hexDigits n := by
  intro h
  have := hexValue_of_mem_hexDigits h
  rw [hc] at this
  cases this

theorem foldl_hexDigits (n : Nat) : (hexDigits n).foldl
    (fun n c => n.bind fun n => (hexValue c).map (n * 16 + ·)) (some 0) = some n := by
  induction n using Nat.strongRecOn with
  | ind n ih =>
      have hdigit := hexValue_digitChar (n % 16) (Nat.mod_lt _ (by decide))
      rw [hexDigits_eq, List.foldl_append]
      split
      · next hlt =>
          rw [Nat.mod_eq_of_lt hlt] at hdigit ⊢
          simp [hdigit]
      · rw [ih (n / 16) (by omega)]
        simp only [List.foldl_cons, List.foldl_nil, Option.bind_some, hdigit, Option.map_some,
          Option.some.injEq]
        omega

theorem parseHextet_hexDigits {g : Nat} (h : g < 65536) : parseHextet (hexDigits g) = some g := by
  have hlen : (hexDigits g).length ≤ 4 :=
    (Nat.length_toDigits_le_iff (by decide) (by decide)).mpr (by omega)
  have hlen' : decide (4 < (hexDigits g).length) = false := by simpa using hlen
  unfold parseHextet
  rw [List.isEmpty_eq_false_iff.mpr (hexDigits_ne_nil g), hlen']
  exact foldl_hexDigits g

/-- The text of some groups. -/
def groupsText (gs : List Nat) : List Char := [':'].intercalate (gs.map hexDigits)

theorem toList_join_hexDigits (gs : List Nat) :
    (join (gs.map fun g => String.ofList (hexDigits g)) ":").toList = groupsText gs := by
  rw [join, String.toList_intercalate, List.map_map]
  have hmap : String.toList ∘ (fun g => String.ofList (hexDigits g)) = hexDigits :=
    funext fun _ => String.toList_ofList
  rw [hmap]
  rfl

theorem groupsText_cons_cons (g g' : Nat) (gs : List Nat) :
    groupsText (g :: g' :: gs) = hexDigits g ++ ':' :: groupsText (g' :: gs) := by
  unfold groupsText
  rw [List.map_cons, List.map_cons, List.intercalate_cons_cons, List.append_assoc]
  rfl

theorem groupsText_cons_ne_nil (g : Nat) (gs : List Nat) : groupsText (g :: gs) ≠ [] := by
  cases gs with
  | nil =>
      rw [groupsText, List.map_cons, List.map_nil, List.intercalate_singleton]
      exact hexDigits_ne_nil g
  | cons g' gs => simp [groupsText_cons_cons]

theorem parseGroups_hexDigits (quad : Bool) : ∀ {gs : List Nat}, gs ≠ [] →
    (∀ g ∈ gs, g < 65536) → parseGroups quad (gs.map hexDigits) = some gs := by
  intro gs
  induction gs with
  | nil => intro h; exact absurd rfl h
  | cons g gs ih =>
      intro _ hall
      have hg := parseHextet_hexDigits (hall g List.mem_cons_self)
      cases gs with
      | nil =>
          have hdot : (hexDigits g).contains '.' = false := by
            simpa using notMem_hexDigits (c := '.') (by decide) g
          rw [List.map_cons, List.map_nil, parseGroups, hdot, Bool.and_false, hg]
          rfl
      | cons g' gs =>
          have hrest := ih (List.cons_ne_nil g' gs) fun x hx => hall x (List.mem_cons_of_mem _ hx)
          simp only [List.map_cons] at hrest ⊢
          simp [parseGroups, hg, hrest]

/-- The text of some groups is split into them. -/
theorem splitOn_groupsText {gs : List Nat} (hne : gs ≠ []) :
    splitOn ':' (groupsText gs) = gs.map hexDigits := by
  refine splitOn_intercalate (by simpa using hne) fun p hp => ?_
  obtain ⟨x, -, rfl⟩ := List.mem_map.mp hp
  exact notMem_hexDigits (by decide) x

/-- The groups of a side are read back. -/
theorem parseSide_groupsText (quad : Bool) {gs : List Nat} (hall : ∀ g ∈ gs, g < 65536) :
    parseSide quad (groupsText gs) = some gs := by
  unfold parseSide
  cases gs with
  | nil => rfl
  | cons g gs =>
      rw [List.isEmpty_eq_false_iff.mpr (groupsText_cons_ne_nil g gs)]
      rw [splitOn_groupsText (List.cons_ne_nil g gs)]
      exact parseGroups_hexDigits quad (List.cons_ne_nil g gs) hall

/-! ### The ellipsis

There is one double colon at most, so the reader cuts the text where the printer has left out
zeros. -/

/-- No ellipsis starts in a text without colons. -/
theorem cutEllipsis_append {w : List Char} (hw : ':' ∉ w) (rest : List Char) :
    cutEllipsis (w ++ rest) = (cutEllipsis rest).map fun r => (w ++ r.1, r.2) := by
  induction w with
  | nil => simp
  | cons c w ih =>
      obtain ⟨hc, hw⟩ := not_or.mp (mt List.mem_cons.mpr hw)
      simp [cutEllipsis, Ne.symm hc, ih hw, Option.map_map, Function.comp_def]

/-- Nor does one start in the text of some groups. -/
theorem cutEllipsis_groupsText (gs : List Nat) (rest : List Char) :
    cutEllipsis (groupsText gs ++ rest) =
      (cutEllipsis rest).map fun r => (groupsText gs ++ r.1, r.2) := by
  induction gs with
  | nil => simp [groupsText]
  | cons g gs ih =>
      have hg := notMem_hexDigits (c := ':') (by decide) g
      cases gs with
      | nil =>
          rw [groupsText, List.map_cons, List.map_nil, List.intercalate_singleton]
          exact cutEllipsis_append hg rest
      | cons g' gs =>
          -- the colon between two groups is followed by a digit
          have hcolon : cutEllipsis (':' :: (groupsText (g' :: gs) ++ rest)) =
              (cutEllipsis (groupsText (g' :: gs) ++ rest)).map fun r => (':' :: r.1, r.2) := by
            have hhead : (groupsText (g' :: gs) ++ rest).head? ≠ some ':' := by
              obtain ⟨c, cs, hcs⟩ := List.exists_cons_of_ne_nil (hexDigits_ne_nil g')
              have hc : c ≠ ':' := by
                rintro rfl
                exact notMem_hexDigits (by decide) g' (hcs ▸ List.mem_cons_self)
              cases gs <;> simp [groupsText, hcs, hc]
            rw [cutEllipsis, if_neg fun h => hhead h.2]
          rw [groupsText_cons_cons, List.append_assoc, List.cons_append, cutEllipsis_append hg,
            hcolon, ih]
          simp [Option.map_map, Function.comp_def]

/-- A run of zeros starts a list. -/
theorem replicate_zeroRun (gs : List Nat) :
    gs = List.replicate (zeroRun gs) 0 ++ gs.drop (zeroRun gs) := by
  induction gs with
  | nil => rfl
  | cons g gs ih =>
      cases g with
      | zero =>
          rw [zeroRun, List.replicate_succ, List.drop_succ_cons, List.cons_append, ← ih]
      | succ g => rfl

/-- The run that is left out is a run of zeros, where it is said to be. -/
theorem longestZeroRun_spec (gs : List Nat) (i : Nat) :
    (longestZeroRun i gs).2 = 0 ∨ ∃ pre post,
      gs = pre ++ List.replicate (longestZeroRun i gs).2 0 ++ post ∧
        (longestZeroRun i gs).1 = i + pre.length := by
  induction gs generalizing i with
  | nil => exact .inl rfl
  | cons g gs ih =>
      simp only [longestZeroRun]
      split
      · exact .inr ⟨[], _, replicate_zeroRun (g :: gs), rfl⟩
      · rcases ih (i + 1) with hzero | ⟨pre, post, hgs, hpos⟩
        · exact .inl hzero
        · refine .inr ⟨g :: pre, post, ?_, ?_⟩
          · rw [List.cons_append, List.cons_append, ← hgs]
          · rw [hpos, List.length_cons]
            omega

/-! ### Addresses

The groups before and after the ellipsis are read back, and the zeros between them are as many as
are missing. -/

theorem length_groupsOf (n : Nat) : (groupsOf n).length = 8 := rfl

theorem groupsOf_lt {n g : Nat} (h : g ∈ groupsOf n) : g < 65536 := by
  obtain ⟨i, -, rfl⟩ := List.mem_map.mp h
  exact Nat.mod_lt _ (by decide)

/-- The word of the groups of a number. -/
theorem foldl_groupsOf {n : Nat} (h : n < 2 ^ 128) :
    (groupsOf n).foldl (fun n g => n * 65536 + g) 0 = n := by
  simp only [groupsOf, List.map_cons, List.map_nil, List.foldl_cons, List.foldl_nil, Nat.reducePow]
  omega

/-- How an IPv6 address is written: all groups, or those before and behind a run of zeros. -/
theorem string6_cases (n : Nat) :
    (string6 n).toList = groupsText (groupsOf n) ∨
      ∃ pre k post, groupsOf n = pre ++ List.replicate k 0 ++ post ∧ 2 ≤ k ∧
        (string6 n).toList = groupsText pre ++ ':' :: ':' :: groupsText post := by
  unfold string6
  simp only
  split
  · exact .inl (toList_join_hexDigits _)
  · next hrun =>
      rcases longestZeroRun_spec (groupsOf n) 0 with hzero | ⟨pre, post, hgs, hpos⟩
      · omega
      · generalize longestZeroRun 0 (groupsOf n) = run at hrun hgs hpos
        have htake : (groupsOf n).take run.1 = pre := by
          rw [hgs, hpos, List.append_assoc, Nat.zero_add, List.take_left]
        have hdrop : (groupsOf n).drop (run.1 + run.2) = post := by
          have hlen : run.1 + run.2 = (pre ++ List.replicate run.2 0).length := by simp [hpos]
          rw [hlen, hgs, List.drop_left]
        refine .inr ⟨pre, run.2, post, hgs, by omega, ?_⟩
        rw [htake, hdrop, String.toList_append, String.toList_append, toList_join_hexDigits,
          toList_join_hexDigits, List.append_assoc]
        rfl

/-- **The groups of an address are read back.** -/
theorem parseIPv6Groups_string6 (n : Nat) :
    parseIPv6Groups (string6 n).toList = some (groupsOf n) := by
  have hlt : ∀ g ∈ groupsOf n, g < 65536 := fun g hg => groupsOf_lt hg
  unfold parseIPv6Groups
  rcases string6_cases n with htext | ⟨pre, k, post, hgs, hk, htext⟩
  · have hne : groupsOf n ≠ [] := List.ne_nil_of_length_eq_add_one (length_groupsOf n)
    have hcut : cutEllipsis (groupsText (groupsOf n)) = none := by
      simpa [cutEllipsis] using cutEllipsis_groupsText (groupsOf n) []
    have hsplit : splitOn ':' (groupsText (groupsOf n)) = (groupsOf n).map hexDigits :=
      splitOn_groupsText hne
    simp only [htext, hcut, hsplit, parseGroups_hexDigits true hne hlt, length_groupsOf, if_true]
  · have hlen := length_groupsOf n
    rw [hgs] at hlen hlt
    simp only [List.length_append, List.length_replicate] at hlen
    have hl : parseSide false (groupsText pre) = some pre :=
      parseSide_groupsText false fun g hg => hlt g (by simp [hg])
    have hr : parseSide true (groupsText post) = some post :=
      parseSide_groupsText true fun g hg => hlt g (by simp [hg])
    have hcut : cutEllipsis (string6 n).toList = some (groupsText pre, groupsText post) := by
      rw [htext, cutEllipsis_groupsText]
      simp [cutEllipsis]
    simp only [hcut, hl, hr]
    rw [if_pos (by omega), show 8 - (pre.length + post.length) = k by omega, ← hgs]

/-- The text of an IPv4-mapped address. -/
def mappedText (m : Nat) : List Char :=
  ':' :: ':' :: ("ffff".toList ++ ':' :: (quadString m).toList)

theorem parseIPv6Groups_mapped {m : Nat} (h : m < 2 ^ 32) :
    parseIPv6Groups (mappedText m) = some [0, 0, 0, 0, 0, 0xffff, m / 65536, m % 65536] := by
  have hdot : (quadString m).toList.contains '.' = true := by
    rw [toList_quadString]
    simp
  have hsplit : splitOn ':' ("ffff".toList ++ ':' :: (quadString m).toList) =
      ["ffff".toList, (quadString m).toList] := by
    rw [splitOn_append, splitOn_of_notMem (notMem_quadString (by decide) (by decide) m)]
    rfl
  have hgroups : parseGroups true ["ffff".toList, (quadString m).toList] =
      some [0xffff, m / 65536, m % 65536] := by
    have hffff : parseHextet "ffff".toList = some 0xffff := by decide
    have hmod : (BitVec.ofNat 32 m).toNat = m := Nat.mod_eq_of_lt h
    have hlast : parseGroups true [(quadString m).toList] = some [m / 65536, m % 65536] := by
      rw [parseGroups, hdot, parseIPv4_quadString h]
      simp [hmod]
    rw [parseGroups, hffff, hlast]
    simp
  have hside : parseSide true ("ffff".toList ++ ':' :: (quadString m).toList) =
      some [0xffff, m / 65536, m % 65536] := by
    unfold parseSide
    rw [hsplit, hgroups]
    rfl
  unfold parseIPv6Groups mappedText
  simp only [cutEllipsis, List.head?_cons, and_self, if_true, List.tail_cons, hside]
  rfl

/-- A text of hexadecimal digits, then a colon. -/
def StartsGroup (cs : List Char) : Prop :=
  ∃ w rest, cs = w ++ ':' :: rest ∧ ∀ c ∈ w, (hexValue c).isSome = true

/-- The groups of a text that starts one, without a zone, are those of its address. -/
theorem parseAddr_of_groups {s : String} {gs : List Nat} (hstart : StartsGroup s.toList)
    (hzone : '%' ∉ s.toList) (hgs : parseIPv6Groups s.toList = some gs) :
    parseAddr s = some (.v6 (BitVec.ofNat 128 (gs.foldl (fun n g => n * 65536 + g) 0)) "") := by
  obtain ⟨w, rest, htext, hw⟩ := hstart
  have hfind : s.toList.find? (fun c => c == '.' || c == ':' || c == '%') = some ':' := by
    have hnone : w.find? (fun c => c == '.' || c == ':' || c == '%') = none := by
      rw [List.find?_eq_none]
      intro c hc hsep
      have hhex := hw c hc
      simp only [Bool.or_eq_true, beq_iff_eq] at hsep
      rcases hsep with (rfl | rfl) | rfl <;> cases hhex
    rw [htext, List.find?_append, hnone]
    rfl
  unfold parseAddr parseIPv6
  simp only [hfind, cutRune_of_notMem hzone, hgs, Option.map_some]

theorem startsGroup_groupsText (gs : List Nat) (rest : List Char) :
    StartsGroup (groupsText gs ++ ':' :: rest) := by
  cases gs with
  | nil => exact ⟨[], rest, rfl, by simp⟩
  | cons g gs =>
      cases gs with
      | nil =>
          refine ⟨hexDigits g, rest, ?_, fun c hc => hexValue_of_mem_hexDigits hc⟩
          simp [groupsText]
      | cons g' gs =>
          refine ⟨hexDigits g, groupsText (g' :: gs) ++ ':' :: rest, ?_,
            fun c hc => hexValue_of_mem_hexDigits hc⟩
          rw [groupsText_cons_cons, List.append_assoc, List.cons_append]

theorem startsGroup_string6 (n : Nat) : StartsGroup (string6 n).toList := by
  rcases string6_cases n with htext | ⟨pre, k, post, -, -, htext⟩
  · rw [htext]
    exact ⟨_, _, groupsText_cons_cons _ _ _, fun c hc => hexValue_of_mem_hexDigits hc⟩
  · rw [htext]
    exact startsGroup_groupsText pre _

/-- The characters of the text of some groups. -/
theorem notMem_groupsText {c : Char} (hc : hexValue c = none) (hcolon : c ≠ ':')
    (gs : List Nat) : c ∉ groupsText gs := by
  induction gs with
  | nil => simp [groupsText]
  | cons g gs ih =>
      cases gs with
      | nil => simpa [groupsText] using notMem_hexDigits hc g
      | cons g' gs =>
          rw [groupsText_cons_cons]
          simp [notMem_hexDigits hc g, hcolon, ih]

theorem notMem_string6 {c : Char} (hc : hexValue c = none) (hcolon : c ≠ ':') (n : Nat) :
    c ∉ (string6 n).toList := by
  rcases string6_cases n with htext | ⟨pre, k, post, -, -, htext⟩
  · rw [htext]
    exact notMem_groupsText hc hcolon _
  · rw [htext]
    simp [notMem_groupsText hc hcolon, hcolon]

theorem toList_mapped (m : Nat) : ("::ffff:" ++ quadString m).toList = mappedText m := by
  rw [String.toList_append]
  rfl

theorem notMem_mappedText {c : Char} (hc : c ∉ [':', 'f', '.']) (hdigit : c.isDigit = false)
    (m : Nat) : c ∉ mappedText m := by
  simp only [List.mem_cons, List.not_mem_nil, or_false, not_or] at hc
  simp [mappedText, hc, notMem_quadString hdigit hc.2.2]

/-- **The text of an address is read back.** -/
theorem parseAddr_string {a : Addr} (hz : a.zone = "") : parseAddr a.string = some a := by
  cases a with
  | v4 a =>
      have hfind : (quadString a.toNat).toList.find? (fun c => c == '.' || c == ':' || c == '%') =
          some '.' := by
        have hnone : (decimal (a.toNat / 16777216 % 256)).toList.find?
            (fun c => c == '.' || c == ':' || c == '%') = none := by
          rw [List.find?_eq_none]
          intro c hc hsep
          have hdigit := isDigit_of_mem_decimal hc
          simp only [Bool.or_eq_true, beq_iff_eq] at hsep
          rcases hsep with (rfl | rfl) | rfl <;> cases hdigit
        rw [toList_quadString, List.intercalate_cons_cons, List.append_assoc, List.find?_append,
          hnone]
        rfl
      have hword : BitVec.ofNat 32 a.toNat = a := by
        rw [BitVec.ofNat_toNat, BitVec.setWidth_eq]
      unfold parseAddr
      simp only [Addr.string, hfind]
      rw [parseIPv4_quadString a.isLt, hword]
      rfl
  | v6 a zone =>
      obtain rfl : zone = "" := hz
      have hword : BitVec.ofNat 128 a.toNat = a := by
        rw [BitVec.ofNat_toNat, BitVec.setWidth_eq]
      simp only [Addr.string, if_true]
      split
      · next hmapped =>
          have hlt : a.toNat % 2 ^ 32 < 2 ^ 32 := Nat.mod_lt _ (by decide)
          have htext := toList_mapped (a.toNat % 2 ^ 32)
          have hgroups := htext ▸ parseIPv6Groups_mapped hlt
          rw [parseAddr_of_groups (htext ▸ ⟨[], _, rfl, by simp⟩)
            (htext ▸ notMem_mappedText (by decide) (by decide) _) hgroups]
          simp only [List.foldl_cons, List.foldl_nil]
          have hvalue : (0xffff * 65536 + a.toNat % 2 ^ 32 / 65536) * 65536 +
              a.toNat % 2 ^ 32 % 65536 = a.toNat := by omega
          simp only [Nat.zero_mul, Nat.zero_add, hvalue, hword]
      · rw [parseAddr_of_groups (startsGroup_string6 _) (notMem_string6 (by decide) (by decide) _)
          (parseIPv6Groups_string6 _), foldl_groupsOf a.isLt, hword]

/-! ### Prefixes -/

/-- **The text of a prefix is read back.** -/
theorem parsePrefix_string (p : Prefix) : parsePrefix p.string = some p := by
  have htext : p.string.toList = p.addr.string.toList ++ '/' :: (decimal p.bits).toList := by
    rw [Prefix.string, String.toList_append, String.toList_append, List.append_assoc]
    rfl
  unfold parsePrefix
  rw [htext, cutLastRune_append _ (notMem_decimal (by decide) p.bits)]
  simp only [String.ofList_toList, parseAddr_string p.zone_eq, parseBits_decimal, p.zone_eq,
    p.bits_le, dif_pos]

end Phragma.Go
