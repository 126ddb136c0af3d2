import Mathlib.Tactic.Common
import Mathlib.Data.List.Basic
import Mathlib.Data.List.Forall2

/-!
# Phragma.Lib.Resolve

**Fallible resolution of references.** A compiler pass looks names up in tables and
fails on the first name it does not find. This file has what such a pass and its
proofs need: inversion of a successful `bind` and `mapM`, tables in which a later
entry for a key wins, the loop that resolves a list of references until it meets a
wildcard, and first-match search over lists related element by element.
-/

namespace Phragma.Lib

variable {α β γ ε : Type}

/-! ### Inversion -/

/-- A computation that went through went through in both of its parts. -/
theorem bind_ok {x : Except ε α} {f : α → Except ε β} {b : β} :
    (x >>= f) = .ok b ↔ ∃ a, x = .ok a ∧ f a = .ok b := by
  cases x with
  | error e => simp [bind, Except.bind]
  | ok a => simp [bind, Except.bind]

theorem mapError_ok {δ : Type} {x : Except ε α} {g : ε → δ} {a : α} :
    x.mapError g = .ok a ↔ x = .ok a := by
  cases x with
  | error e => simp [Except.mapError]
  | ok b => simp [Except.mapError]

theorem toOption_eq_some {x : Except ε α} {a : α} : x.toOption = some a ↔ x = .ok a := by
  cases x with
  | error e => simp [Except.toOption]
  | ok b => simp [Except.toOption]

/-- A successful traversal succeeds at every element. -/
theorem mapM_ok {f : α → Except ε β} : ∀ {as : List α} {bs : List β},
    as.mapM f = .ok bs ↔ List.Forall₂ (fun a b => f a = .ok b) as bs := by
  intro as
  induction as with
  | nil =>
      intro bs
      cases bs with
      | nil => simp [pure, Except.pure]
      | cons b bs => simp [pure, Except.pure]
  | cons a as ih =>
      intro bs
      rw [List.mapM_cons]
      constructor
      · intro h
        obtain ⟨b, hb, h⟩ := bind_ok.mp h
        obtain ⟨bs', hbs', h⟩ := bind_ok.mp h
        cases h
        exact .cons hb (ih.mp hbs')
      · intro h
        cases h with
        | cons hb hbs => exact bind_ok.mpr ⟨_, hb, bind_ok.mpr ⟨_, ih.mpr hbs, rfl⟩⟩

/-- A traversal that can succeed everywhere succeeds. -/
theorem mapM_of_forall {f : α → Except ε β} : ∀ {as : List α}, (∀ a ∈ as, ∃ b, f a = .ok b) →
    ∃ bs, as.mapM f = .ok bs := by
  intro as
  induction as with
  | nil => intro _; exact ⟨[], rfl⟩
  | cons a as ih =>
      intro h
      obtain ⟨b, hb⟩ := h a List.mem_cons_self
      obtain ⟨bs, hbs⟩ := ih fun a' ha' => h a' (List.mem_cons_of_mem _ ha')
      exact ⟨b :: bs, mapM_ok.mpr (.cons hb (mapM_ok.mp hbs))⟩

/-- A sequence goes through exactly when its first part does and the rest does on what that
returned. -/
theorem exists_bind_ok {x : Except ε α} {f : α → Except ε β} :
    (∃ b, (x >>= f) = .ok b) ↔ ∃ a, x = .ok a ∧ ∃ b, f a = .ok b := by
  simp only [bind_ok]
  constructor
  · rintro ⟨b, a, ha, hb⟩
    exact ⟨a, ha, b, hb⟩
  · rintro ⟨a, ha, b, hb⟩
    exact ⟨b, a, ha, hb⟩

theorem exists_bind_ok_of {x : Except ε α} {f : α → Except ε β} (hx : ∃ a, x = .ok a)
    (hf : ∀ a, ∃ b, f a = .ok b) : ∃ b, (x >>= f) = .ok b := by
  obtain ⟨a, ha⟩ := hx
  exact exists_bind_ok.mpr ⟨a, ha, hf a⟩

/-- A traversal goes through exactly when every element does. -/
theorem exists_mapM_ok {f : α → Except ε β} {as : List α} :
    (∃ bs, as.mapM f = .ok bs) ↔ ∀ a ∈ as, ∃ b, f a = .ok b := by
  refine ⟨?_, mapM_of_forall⟩
  rintro ⟨bs, hbs⟩ a ha
  have hall := mapM_ok.mp hbs
  clear hbs
  induction hall with
  | nil => cases ha
  | cons hab _ ih =>
      rcases List.mem_cons.mp ha with rfl | ha
      · exact ⟨_, hab⟩
      · exact ih ha

theorem exists_pure_ok (a : α) : ∃ b, (pure a : Except ε α) = .ok b := ⟨a, rfl⟩

theorem any_congr_of_mem {p q : α → Bool} {l : List α} (h : ∀ a ∈ l, p a = q a) :
    l.any p = l.any q := by
  rw [Bool.eq_iff_iff, List.any_eq_true, List.any_eq_true]
  exact exists_congr fun a => and_congr_right fun ha => by rw [h a ha]

/-! ### Tables

The first entry found is the last one put in. -/

/-- A table filled in list order: a later entry for a key hides an earlier one. -/
def tableOf (key : α → String) (val : α → β) (l : List α) : List (String × β) :=
  (l.map fun a => (key a, val a)).reverse

/-- What a lookup returns was entered. -/
theorem mem_of_lookup {κ : Type} [BEq κ] [LawfulBEq κ] {l : List (κ × β)} {k : κ} {b : β}
    (h : l.lookup k = some b) : (k, b) ∈ l := by
  obtain ⟨pre, post, rfl, -⟩ := List.lookup_eq_some_iff.mp h
  exact List.mem_append_right _ List.mem_cons_self

theorem exists_of_lookup_tableOf {key : α → String} {val : α → β} {l : List α} {k : String} {b : β}
    (h : (tableOf key val l).lookup k = some b) : ∃ a ∈ l, key a = k ∧ val a = b := by
  have hm := mem_of_lookup h
  simp only [tableOf, List.mem_reverse, List.mem_map, Prod.mk.injEq] at hm
  exact hm

/-- With distinct keys, a lookup finds the one entry there is. -/
theorem lookup_of_mem {κ : Type} [BEq κ] [LawfulBEq κ] {l : List (κ × β)}
    (hnd : (l.map Prod.fst).Nodup) {k : κ} {b : β} (h : (k, b) ∈ l) : l.lookup k = some b := by
  induction l with
  | nil => simp at h
  | cons e l ih =>
      obtain ⟨k', b'⟩ := e
      rw [List.map_cons, List.nodup_cons] at hnd
      rcases List.mem_cons.mp h with heq | hmem
      · rw [← heq]
        exact List.lookup_cons_self
      · have hne : (k == k') = false := by
          rw [beq_eq_false_iff_ne]
          rintro rfl
          exact hnd.1 (List.mem_map.mpr ⟨_, hmem, rfl⟩)
        rw [List.lookup_cons, hne]
        exact ih hnd.2 hmem

theorem lookup_tableOf_of_mem {key : α → String} {val : α → β} {l : List α}
    (hnd : (l.map key).Nodup) {a : α} (ha : a ∈ l) :
    (tableOf key val l).lookup (key a) = some (val a) := by
  apply lookup_of_mem
  · simp only [tableOf, List.map_reverse, List.map_map, Function.comp_def]
    exact List.pairwise_reverse.mpr (hnd.imp fun h => h.symm)
  · simp only [tableOf, List.mem_reverse]
    exact List.mem_map.mpr ⟨a, ha, rfl⟩

/-! ### Reference lists with a wildcard

The loop gives the empty list as soon as it meets the wildcard, so what stands before it must be
found and what stands after it need not. -/

/-- Resolve references in order and concatenate what they stand for. The wildcard ends
the loop with the empty list, an unknown name with an error. -/
def resolveRefs (any : String) (find : String → Option (List β)) (unknown : String → ε) :
    List β → List String → Except ε (List β)
  | acc, [] => .ok acc
  | acc, r :: rs =>
      if r = any then .ok []
      else
        match find r with
        | none => .error (unknown r)
        | some xs => resolveRefs any find unknown (acc ++ xs) rs

/-- Resolution succeeds when every name besides the wildcard is known. -/
theorem resolveRefs_succeeds {any : String} {find : String → Option (List β)}
    {unknown : String → ε} : ∀ {refs : List String} {acc : List β},
      (∀ r ∈ refs, r ≠ any → (find r).isSome) →
      ∃ out, resolveRefs any find unknown acc refs = .ok out := by
  intro refs
  induction refs with
  | nil => exact fun {acc} _ => ⟨acc, rfl⟩
  | cons r rs ih =>
      intro acc h
      unfold resolveRefs
      by_cases hany : r = any
      · exact ⟨[], by rw [if_pos hany]⟩
      · obtain ⟨xs, hxs⟩ := Option.isSome_iff_exists.mp (h r List.mem_cons_self hany)
        rw [if_neg hany, hxs]
        exact ih fun s hs => h s (List.mem_cons_of_mem _ hs)

/-- **What resolution returns**: nothing when the wildcard occurs, otherwise everything
the names stand for. -/
theorem resolveRefs_ok {any : String} {find : String → Option (List β)} {unknown : String → ε} :
    ∀ {refs : List String} {acc out : List β},
      resolveRefs any find unknown acc refs = .ok out →
      (any ∈ refs ∧ out = []) ∨
      (any ∉ refs ∧ (∀ r ∈ refs, (find r).isSome) ∧
        out = acc ++ refs.flatMap fun r => (find r).getD []) := by
  intro refs
  induction refs with
  | nil =>
      intro acc out h
      simp only [resolveRefs, Except.ok.injEq] at h
      exact .inr ⟨by simp, by simp, by simp [h]⟩
  | cons r rs ih =>
      intro acc out h
      simp only [resolveRefs] at h
      by_cases hr : r = any
      · simp only [if_pos hr, Except.ok.injEq] at h
        exact .inl ⟨by simp [hr], h.symm⟩
      · rw [if_neg hr] at h
        cases hf : find r with
        | none => simp [hf] at h
        | some xs =>
            simp only [hf] at h
            rcases ih h with ⟨hany, hout⟩ | ⟨hany, hall, hout⟩
            · exact .inl ⟨List.mem_cons_of_mem _ hany, hout⟩
            · refine .inr ⟨?_, ?_, ?_⟩
              · simp only [List.mem_cons, not_or]
                exact ⟨fun he => hr he.symm, hany⟩
              · intro r' hr'
                rcases List.mem_cons.mp hr' with rfl | hr'
                · simp [hf]
                · exact hall r' hr'
              · simp [hout, hf]

/-! ### Related lists -/

/-- An element of the second of two related lists comes from one of the first. -/
theorem exists_of_forall₂_right {R : α → β → Prop} {as : List α} {bs : List β}
    (h : List.Forall₂ R as bs) {b : β} (hb : b ∈ bs) : ∃ a ∈ as, R a b := by
  induction h with
  | nil => cases hb
  | @cons a b' as bs hab _ ih =>
      rcases List.mem_cons.mp hb with rfl | hb
      · exact ⟨a, List.mem_cons_self, hab⟩
      · obtain ⟨a', ha', hR⟩ := ih hb
        exact ⟨a', List.mem_cons_of_mem _ ha', hR⟩

/-- An element of the first of two related lists goes to one of the second. -/
theorem exists_of_forall₂_left {R : α → β → Prop} {as : List α} {bs : List β}
    (h : List.Forall₂ R as bs) {a : α} (ha : a ∈ as) : ∃ b ∈ bs, R a b :=
  exists_of_forall₂_right h.flip ha

/-- Related lists are related position by position. -/
theorem forall₂_getElem? {R : α → β → Prop} {as : List α} {bs : List β}
    (h : List.Forall₂ R as bs) : ∀ {i : Nat} {a : α} {b : β}, as[i]? = some a → bs[i]? = some b →
      R a b := by
  induction h with
  | nil =>
      intro i a b ha
      simp at ha
  | cons hab _ ih =>
      intro i a b ha hb
      cases i with
      | zero =>
          simp only [List.getElem?_cons_zero, Option.some.injEq] at ha hb
          rw [← ha, ← hb]
          exact hab
      | succ i =>
          rw [List.getElem?_cons_succ] at ha hb
          exact ih ha hb

/-! ### First match -/

/-- First-match searches over lists related element by element agree when they agree at
related elements. -/
theorem findSome?_forall₂ {R : α → β → Prop} {f : α → Option γ} {g : β → Option γ}
    (h : ∀ a b, R a b → f a = g b) {as : List α} {bs : List β} (hR : List.Forall₂ R as bs) :
    as.findSome? f = bs.findSome? g := by
  induction hR with
  | nil => rfl
  | cons hab _ ih =>
      simp only [List.findSome?_cons, h _ _ hab, ih]

/-- Searching the concatenation of blocks is searching for the first block with a hit. -/
theorem findSome?_flatMap {f : β → Option γ} {blocks : α → List β} : ∀ {as : List α},
    (as.flatMap blocks).findSome? f = as.findSome? fun a => (blocks a).findSome? f := by
  intro as
  induction as with
  | nil => rfl
  | cons a as ih =>
      rw [List.flatMap_cons, List.findSome?_append, List.findSome?_cons, ih]
      cases (blocks a).findSome? f <;> rfl

/-- The answer of the elements that are hit when one that grants wins over all others. -/
def grantWins (hit grant : α → Bool) (l : List α) : Option Bool :=
  if l.any (fun a => hit a && grant a) then some true
  else if l.any hit then some false
  else none

/-- **First match against grants win.** The first hit answers like the winner exactly when a hit
that does not grant and has a granting hit behind it also has one before it. -/
theorem find?_eq_grantWins_iff {hit grant : α → Bool} {l : List α} :
    (l.find? hit).map grant = grantWins hit grant l ↔
      ∀ pre a post, l = pre ++ a :: post → hit a = true → grant a = false →
        (∃ b ∈ post, hit b = true ∧ grant b = true) → ∃ b ∈ pre, hit b = true ∧ grant b = true := by
  have hwins : ∀ {b}, b ∈ l → hit b = true → grant b = true → grantWins hit grant l = some true := by
    intro b hb hhit hgrant
    have hany : l.any (fun a => hit a && grant a) = true :=
      List.any_eq_true.mpr ⟨b, hb, by simp [hhit, hgrant]⟩
    rw [grantWins, if_pos hany]
  constructor
  · rintro heq pre a post rfl ha hdeny ⟨b, hb, hbhit, hbgrant⟩
    rw [hwins (by simp [hb]) hbhit hbgrant, List.find?_append] at heq
    -- if the first hit were not before it, the denial would be the first
    cases hpre : pre.find? hit with
    | none => simp [hpre, ha, hdeny] at heq
    | some d =>
        simp only [hpre, Option.some_or, Option.map_some, Option.some.injEq] at heq
        exact ⟨d, List.mem_of_find?_eq_some hpre, List.find?_some hpre, heq⟩
  · intro hcond
    cases hfind : l.find? hit with
    | none =>
        have hnone : l.any hit = false := by
          rw [List.any_eq_false]
          exact fun a ha => by simpa using List.find?_eq_none.mp hfind a ha
        have hgrants : l.any (fun a => hit a && grant a) = false := by
          rw [List.any_eq_false] at hnone ⊢
          exact fun a ha => by simp [hnone a ha]
        simp [grantWins, hnone, hgrants]
    | some a =>
        obtain ⟨ha, pre, post, rfl, hpre⟩ := List.find?_eq_some_iff_append.mp hfind
        cases hgrant : grant a with
        | true => rw [hwins (by simp) ha hgrant, Option.map_some, hgrant]
        -- the first hit denies: a grant after it would need one before it, and there is none
        | false =>
            have hno : (pre ++ a :: post).any (fun a => hit a && grant a) = false := by
              rw [Bool.eq_false_iff]
              intro hany
              obtain ⟨b, hb, hbhit⟩ := List.any_eq_true.mp hany
              rw [Bool.and_eq_true] at hbhit
              have hmiss : ∀ d ∈ pre, hit d = false := fun d hd => by simpa using hpre d hd
              have hpost : b ∈ post := by
                rcases List.mem_append.mp hb with hb | hb
                · rw [hmiss b hb] at hbhit
                  cases hbhit.1
                · rcases List.mem_cons.mp hb with rfl | hb
                  · rw [hgrant] at hbhit
                    cases hbhit.2
                  · exact hb
              obtain ⟨d, hd, hdhit, -⟩ := hcond pre a post rfl ha hgrant ⟨b, hpost, hbhit⟩
              rw [hmiss d hd] at hdhit
              cases hdhit
            have hsome : (pre ++ a :: post).any hit = true :=
              List.any_eq_true.mpr ⟨a, by simp, ha⟩
            simp [grantWins, hno, hsome, hgrant]

end Phragma.Lib
