import Phragma.Go.Scan
import Phragma.Policy.UniqueIdentity
import Phragma.Apiserver.StageObservation

/-!
# Phragma.Apiserver.ObjectNames

**The names that staging makes up**: `uniquePolicyObjectName` cleans a text up and numbers it
from 2 to 999 while it is taken. The name after those has a hash of the text behind it, and that
one is returned untried.

Every name that is made up is well formed. It is free exactly when one of the names that come
into question is (`uniquePolicyObjectName_free_iff`), so always when fewer than 998 are taken
(`uniquePolicyObjectName_free_of_few`).
-/

namespace Phragma.Apiserver

open Lib Go Policy Appid

/-! ### Well-formed names -/

/-- The characters of a name that is made up: `a` to `z`, `0` to `9` and the dash. -/
def isObjectNameChar (c : Char) : Bool := Policy.isLowerAlnum c || c == '-'

/-- **A well-formed name** that is made up. -/
structure ObjectName (name : String) : Prop where
  ne_empty : name ≠ ""
  size : byteLen name.toList ≤ 64
  chars : ∀ c ∈ name.toList, isObjectNameChar c = true

/-- A character of a name is one byte. -/
theorem utf8Size_of_isObjectNameChar {c : Char} (h : isObjectNameChar c = true) :
    c.utf8Size = 1 := by
  have hle : c.val ≤ 'z'.val := by
    simp only [isObjectNameChar, Policy.isLowerAlnum, Bool.or_eq_true, Bool.and_eq_true,
      decide_eq_true_eq, beq_iff_eq] at h
    rcases h with (⟨-, h⟩ | ⟨-, h⟩) | rfl
    · exact h
    · exact UInt32.le_trans h (by decide)
    · decide
  exact Char.utf8Size_eq_one_iff.mpr (UInt32.le_trans hle (by decide))

theorem byteLen_of_chars {cs : List Char} (h : ∀ c ∈ cs, isObjectNameChar c = true) :
    byteLen cs = cs.length := by
  induction cs with
  | nil => rfl
  | cons c cs ih =>
      have hrest := ih fun d hd => h d (List.mem_cons_of_mem _ hd)
      unfold byteLen at hrest ⊢
      rw [List.map_cons, List.sum_cons, hrest, List.length_cons,
        utf8Size_of_isObjectNameChar (h c List.mem_cons_self), Nat.add_comm]

/-- A name of at most 64 of the characters. -/
theorem objectName_of_chars {name : String} (hne : name.toList ≠ [])
    (hlen : name.toList.length ≤ 64) (h : ∀ c ∈ name.toList, isObjectNameChar c = true) :
    ObjectName name where
  ne_empty := by
    rintro rfl
    exact hne rfl
  size := by rwa [byteLen_of_chars h]
  chars := h

/-! ### Cleaning up

The loop writes letters, digits and single dashes, and counts what it writes. -/

theorem cleanNameLoop_spec : ∀ (room : Nat) (lastSep : Bool) (cs : List Char),
    (cleanNameLoop room lastSep cs).length ≤ room ∧
      ∀ c ∈ cleanNameLoop room lastSep cs, isObjectNameChar c = true := by
  intro room lastSep cs
  induction cs generalizing room lastSep with
  | nil => cases room <;> simp [cleanNameLoop]
  | cons c cs ih =>
      cases room with
      | zero => simp [cleanNameLoop]
      | succ room =>
          rw [cleanNameLoop]
          split_ifs with halnum hsep
          · obtain ⟨hlen, hchars⟩ := ih room false
            refine ⟨by rw [List.length_cons]; omega, List.forall_mem_cons.mpr ⟨?_, hchars⟩⟩
            rw [isObjectNameChar, halnum, Bool.true_or]
          · obtain ⟨hlen, hchars⟩ := ih room true
            exact ⟨by rw [List.length_cons]; omega, List.forall_mem_cons.mpr ⟨by decide, hchars⟩⟩
          · exact ih (room + 1) lastSep

theorem mem_trimRightDashes {c : Char} {cs : List Char} (h : c ∈ trimRightDashes cs) : c ∈ cs :=
  (List.rdropWhile_prefix _ _).subset h

theorem length_trimRightDashes_le (cs : List Char) : (trimRightDashes cs).length ≤ cs.length :=
  (List.rdropWhile_prefix _ _).length_le

/-- What cleaning up leaves is short, and has the characters of a name. -/
theorem cleanPolicyName_spec (s : String) :
    (cleanPolicyName s).toList.length ≤ 64 ∧
      ∀ c ∈ (cleanPolicyName s).toList, isObjectNameChar c = true := by
  obtain ⟨hlen, hchars⟩ := cleanNameLoop_spec 64 false (toLower (trimSpace s)).toList
  rw [cleanPolicyName, String.toList_ofList]
  refine ⟨?_, fun c hc => hchars c (mem_trimRightDashes (mem_of_mem_trimList hc))⟩
  exact (length_trimList_le _ _).trans ((length_trimRightDashes_le _).trans hlen)

/-- The text that `uniquePolicyObjectName` starts from. -/
def objectNameBase (base : String) : String :=
  if cleanPolicyName base = "" then "threat-exception" else cleanPolicyName base

theorem objectName_base (base : String) : ObjectName (objectNameBase base) := by
  unfold objectNameBase
  split_ifs with hempty
  · exact objectName_of_chars (by decide) (by decide) (by decide)
  · obtain ⟨hlen, hchars⟩ := cleanPolicyName_spec base
    exact objectName_of_chars (fun h => hempty (String.toList_eq_nil_iff.mp h)) hlen hchars

/-! ### Numbering

The number is behind the last dash, so a numbered name gives its number back, also where the text in
front of it is cut. -/

/-- The end of a numbered name. -/
def numberSuffix (i : Nat) : List Char := '-' :: (decimal i).toList

/-- What of a text stands in front of a number. -/
def numberedStem (base : String) (i : Nat) : List Char :=
  if 64 < base.toList.length + (numberSuffix i).length then
    trimRightDashes (base.toList.take (64 - (numberSuffix i).length))
  else base.toList

theorem toList_numberedName (base : String) (i : Nat) :
    (numberedName base i).toList = numberedStem base i ++ numberSuffix i := by
  have hsuffix : ("-" ++ decimal i).toList = numberSuffix i := by
    rw [String.toList_append]
    rfl
  unfold numberedName numberedStem
  simp only [← String.length_toList, hsuffix]
  split_ifs
  · rw [String.toList_append, String.toList_ofList, hsuffix]
  · rw [String.toList_append, hsuffix]

theorem length_numberSuffix {i : Nat} (h : i < 1000) : (numberSuffix i).length ≤ 4 := by
  have := (length_decimal (n := i) (k := 3) (by decide)).mpr h
  rw [numberSuffix, List.length_cons]
  omega

theorem objectName_numbered {base : String} (hbase : ObjectName base) {i : Nat} (h : i < 1000) :
    ObjectName (numberedName base i) := by
  have hsuffix := length_numberSuffix h
  have hstem : (numberedStem base i).length + (numberSuffix i).length ≤ 64 := by
    unfold numberedStem
    split_ifs with hlong
    · have hcut := length_trimRightDashes_le (base.toList.take (64 - (numberSuffix i).length))
      rw [List.length_take] at hcut
      omega
    · omega
  have hmem : ∀ c ∈ numberedStem base i, c ∈ base.toList := by
    unfold numberedStem
    split_ifs
    · exact fun c hc => List.mem_of_mem_take (mem_trimRightDashes hc)
    · exact fun c hc => hc
  refine objectName_of_chars ?_ ?_ ?_
  · rw [toList_numberedName]
    simp [numberSuffix]
  · rw [toList_numberedName, List.length_append]
    exact hstem
  · rw [toList_numberedName]
    intro c hc
    rcases List.mem_append.mp hc with hc | hc
    · exact hbase.chars c (hmem c hc)
    · rcases List.mem_cons.mp hc with rfl | hc
      · decide
      · rw [isObjectNameChar, isLowerAlnum_of_mem_decimal hc, Bool.true_or]

/-- The last resort: the hash of a text behind it. -/
def lastResortName (base : String) : String :=
  String.ofList (trimRightDashes (base.toList.take 55)) ++ "-" ++
    String.ofList (hexDigits (sidNameEntropy base).toNat)

theorem isObjectNameChar_digitChar : ∀ d < 16, isObjectNameChar (Nat.digitChar d) = true := by
  decide

theorem isObjectNameChar_of_mem_hexDigits {n : Nat} {c : Char} (h : c ∈ hexDigits n) :
    isObjectNameChar c = true := by
  induction n using Nat.strongRecOn with
  | ind n ih =>
      rw [hexDigits_eq] at h
      rcases List.mem_append.mp h with h | h
      · split at h
        · cases h
        · exact ih (n / 16) (by omega) h
      · rw [List.mem_singleton.mp h]
        exact isObjectNameChar_digitChar _ (Nat.mod_lt _ (by decide))

theorem objectName_lastResort {base : String} (hbase : ObjectName base) :
    ObjectName (lastResortName base) := by
  have hlist : (lastResortName base).toList = trimRightDashes (base.toList.take 55) ++
      '-' :: hexDigits (sidNameEntropy base).toNat := by
    simp [lastResortName, String.toList_append]
  have hhash : (hexDigits (sidNameEntropy base).toNat).length ≤ 8 :=
    (Nat.length_toDigits_le_iff (by decide) (by decide)).mpr (sidNameEntropy base).toNat_lt
  have hcut := length_trimRightDashes_le (base.toList.take 55)
  rw [List.length_take] at hcut
  refine objectName_of_chars ?_ ?_ ?_
  · simp [hlist]
  · rw [hlist, List.length_append, List.length_cons]
    omega
  · rw [hlist]
    intro c hc
    rcases List.mem_append.mp hc with hc | hc
    · exact hbase.chars c (List.mem_of_mem_take (mem_trimRightDashes hc))
    · rcases List.mem_cons.mp hc with rfl | hc
      · decide
      · exact isObjectNameChar_of_mem_hexDigits hc

/-! ### Free names -/

/-- The names that come into question for a text, in order. -/
def triedNames (base : String) : List String :=
  let base := objectNameBase base
  base :: (List.range' 2 998).map (numberedName base) ++ [lastResortName base]

theorem mem_triedNames {base name : String} : name ∈ triedNames base ↔
    name = objectNameBase base ∨
      (∃ i, 2 ≤ i ∧ i < 1000 ∧ numberedName (objectNameBase base) i = name) ∨
      name = lastResortName (objectNameBase base) := by
  unfold triedNames
  generalize objectNameBase base = b
  rw [List.mem_append, List.mem_cons, List.mem_map, List.mem_singleton, or_assoc]
  simp only [List.mem_range'_1, and_assoc]

theorem objectName_of_mem_triedNames {base name : String} (h : name ∈ triedNames base) :
    ObjectName name := by
  have hbase := objectName_base base
  rcases mem_triedNames.mp h with hname | ⟨i, -, hi, hname⟩ | hname
  · exact hname ▸ hbase
  · exact hname ▸ objectName_numbered hbase hi
  · exact hname ▸ objectName_lastResort hbase

/-- **The first free name is taken**, and the last resort when there is none. -/
theorem uniquePolicyObjectName_eq (names : List String) (base : String) :
    uniquePolicyObjectName names base =
      ((triedNames base).find? fun name => !names.contains name).getD
        (lastResortName (objectNameBase base)) := by
  have hbase : (if cleanPolicyName base = "" then "threat-exception" else cleanPolicyName base) =
      objectNameBase base := rfl
  unfold uniquePolicyObjectName triedNames lastResortName
  simp only [hbase]
  generalize objectNameBase base = b
  rw [List.cons_append, List.find?_cons, List.find?_append, List.find?_map]
  cases hfree : !names.contains b with
  | true => rfl
  | false =>
      simp only [Bool.false_eq_true, if_false, Function.comp_def]
      cases (List.range' 2 998).find? fun i => !names.contains (numberedName b i) with
      | some i => rfl
      | none =>
          rw [Option.map_none, Option.none_or, List.find?_cons]
          dsimp only
          split <;> rfl

theorem uniquePolicyObjectName_mem (names : List String) (base : String) :
    uniquePolicyObjectName names base ∈ triedNames base := by
  rw [uniquePolicyObjectName_eq]
  cases h : (triedNames base).find? fun name => !names.contains name with
  | some name => exact List.mem_of_find?_eq_some h
  | none => exact mem_triedNames.mpr (.inr (.inr rfl))

/-- The name is taken exactly when all that come into question are. -/
theorem uniquePolicyObjectName_taken_iff (names : List String) (base : String) :
    uniquePolicyObjectName names base ∈ names ↔ ∀ name ∈ triedNames base, name ∈ names := by
  constructor
  · intro htaken name hname
    by_contra hfree
    rw [uniquePolicyObjectName_eq] at htaken
    cases h : (triedNames base).find? fun name => !names.contains name with
    | none =>
        have := List.find?_eq_none.mp h name hname
        simp [hfree] at this
    | some found =>
        rw [h, Option.getD_some] at htaken
        have := List.find?_some h
        simp [htaken] at this
  · exact fun h => h _ (uniquePolicyObjectName_mem names base)

/-- **A name that is made up is well formed, and it is free exactly when one of the names that
come into question is.** -/
theorem uniquePolicyObjectName_free_iff (names : List String) (base : String) :
    (ObjectName (uniquePolicyObjectName names base) ∧
      uniquePolicyObjectName names base ∉ names) ↔ ∃ name ∈ triedNames base, name ∉ names := by
  rw [uniquePolicyObjectName_taken_iff]
  push Not
  exact and_iff_right (objectName_of_mem_triedNames (uniquePolicyObjectName_mem names base))

/-- The names that come into question may all be taken, and one of them is returned. -/
theorem uniquePolicyObjectName_taken :
    ¬ ∀ (names : List String) (base : String), ObjectName (uniquePolicyObjectName names base) ∧
      uniquePolicyObjectName names base ∉ names := by
  intro h
  exact (h (triedNames "fp") "fp").2 (uniquePolicyObjectName_mem _ _)

/-! ### Few names

The tried names are pairwise different, so more of them are taken than there are names only if there
are that many. -/

/-- The dashes of a text: the last one is in front of the number. -/
theorem numberSuffix_inj {a b : List Char} {i j : Nat}
    (h : a ++ numberSuffix i = b ++ numberSuffix j) : i = j := by
  have hdash : ∀ n, '-' ∉ (decimal n).toList := fun n => notMem_decimal (by decide) n
  have hrev := congrArg (fun l => l.reverse.takeWhile (· != '-')) h
  have htake : ∀ (c : List Char) (n : Nat), (c ++ numberSuffix n).reverse.takeWhile (· != '-') =
      (decimal n).toList.reverse := by
    intro c n
    have hall : ∀ x ∈ (decimal n).toList.reverse, (x != '-') = true := by
      intro x hx
      rw [bne_iff_ne]
      rintro rfl
      exact hdash n (List.mem_reverse.mp hx)
    rw [numberSuffix, List.reverse_append, List.reverse_cons, List.append_assoc,
      List.takeWhile_append_of_pos hall]
    simp
  simp only [htake, List.reverse_inj] at hrev
  exact decimal_inj hrev

/-- **Fewer than 998 names leave one free.** -/
theorem uniquePolicyObjectName_free_of_few {names : List String} (h : names.length < 998)
    (base : String) : uniquePolicyObjectName names base ∉ names := by
  rw [uniquePolicyObjectName_taken_iff]
  intro htaken
  have hnd : ((List.range' 2 998).map (numberedName (objectNameBase base))).Nodup := by
    refine List.Nodup.map_on ?_ List.nodup_range'
    intro i _ j _ hij
    have := congrArg String.toList hij
    rw [toList_numberedName, toList_numberedName] at this
    exact numberSuffix_inj this
  have hsub : ((List.range' 2 998).map (numberedName (objectNameBase base))) ⊆ names := by
    intro name hname
    refine htaken name ?_
    unfold triedNames
    simp only [List.cons_append, List.mem_cons, List.mem_append]
    exact .inr (.inl hname)
  have hlen := (List.subperm_of_subset hnd hsub).length_le
  rw [List.length_map, List.length_range'] at hlen
  omega

end Phragma.Apiserver
