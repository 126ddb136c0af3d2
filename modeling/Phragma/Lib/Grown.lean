import Phragma.Lib.FileTree

/-!
# Phragma.Lib.Grown

**Trees that only grow.** The `Kind` of a node is what it is without what is below it.
`Grown may old new` says that whatever stood in the old tree stands in the new one, with the same
bytes where it is a file, and that what is new is allowed by `may`.

A change of one leaf, in a directory that exists, leaves every other node what it is
(`kindAt_update_of_ne`).
-/

namespace Phragma.Lib.Tree

/-- What a node is. -/
inductive Kind
  | file (bytes : List UInt8)
  | dir
  | other
  deriving DecidableEq

def kind : Tree → Kind
  | file bytes => .file bytes
  | dir _ => .dir
  | other => .other

/-- What stands at a path. -/
def kindAt (path : List String) (t : Tree) : Option Kind := (t.get path).map kind

/-- Nothing is below the node. -/
def Leaf (t : Tree) : Prop := ∀ name, t.child name = none

/-- Whatever stood there stands there still, and what is new is allowed. -/
def Grown (may : List String → Kind → Prop) (old new : Tree) : Prop :=
  ∀ path, new.kindAt path = old.kindAt path ∨
    old.kindAt path = none ∧ ∃ k, new.kindAt path = some k ∧ may path k

theorem leaf_file (bytes : List UInt8) : Leaf (file bytes) := fun _ => rfl

theorem leaf_dir : Leaf (dir []) := fun _ => rfl

theorem get_of_leaf {t : Tree} (h : Leaf t) {path : List String} (hpath : path ≠ []) :
    t.get path = none := by
  cases path with
  | nil => exact absurd rfl hpath
  | cons n path => rw [get, h n]; rfl

theorem kindAt_of_get {path : List String} {t x : Tree} (h : t.get path = some x) :
    t.kindAt path = some x.kind := by
  rw [kindAt, h]
  rfl

theorem get_of_kindAt_file {path : List String} {t : Tree} {bytes : List UInt8}
    (h : t.kindAt path = some (.file bytes)) : t.get path = some (file bytes) := by
  obtain ⟨x, hx, hkind⟩ := Option.map_eq_some_iff.mp h
  cases x with
  | file b => cases hkind; exact hx
  | dir es => cases hkind
  | other => cases hkind

theorem get_of_kindAt_dir {path : List String} {t : Tree} (h : t.kindAt path = some .dir) :
    ∃ es, t.get path = some (dir es) := by
  obtain ⟨x, hx, hkind⟩ := Option.map_eq_some_iff.mp h
  cases x with
  | dir es => exact ⟨es, hx⟩
  | file b => cases hkind
  | other => cases hkind

/-- The entry of a directory. -/
theorem get_concat {way : List String} {name : String} {t : Tree} {es : List (String × Tree)}
    (h : t.get way = some (dir es)) : t.get (way ++ [name]) = es.lookup name := by
  rw [get_append, h, Option.bind_some, get]
  show (es.lookup name).bind (get []) = _
  cases es.lookup name <;> rfl

/-- What is above a node is there. -/
theorem kindAt_of_isPrefix {t : Tree} {path above : List String} (habove : above <+: path)
    (h : t.kindAt path ≠ none) : t.kindAt above ≠ none := by
  obtain ⟨rest, rfl⟩ := habove
  intro hnone
  rw [kindAt, Option.map_eq_none_iff] at hnone
  rw [kindAt, get_append, hnone] at h
  exact h rfl

/-! ### Growing

Growing is reflexive and transitive, so a run of changes that each let the tree grow lets it
grow. -/

section Grown

variable {may : List String → Kind → Prop} {old mid last : Tree}

theorem Grown.refl (may : List String → Kind → Prop) (t : Tree) : Grown may t t :=
  fun _ => .inl rfl

theorem Grown.trans (h : Grown may old mid) (h' : Grown may mid last) : Grown may old last := by
  intro path
  rcases h path with hold | ⟨hnone, k, hk, hmay⟩
  · rw [← hold]
    exact h' path
  · rcases h' path with hnew | ⟨hnone', -⟩
    · exact .inr ⟨hnone, k, hnew.trans hk, hmay⟩
    · cases hk.symm.trans hnone'

theorem Grown.mono {may' : List String → Kind → Prop} (h : Grown may old last)
    (hmay : ∀ path k, may path k → may' path k) : Grown may' old last := by
  intro path
  rcases h path with hsame | ⟨hnone, k, hk, hpath⟩
  · exact .inl hsame
  · exact .inr ⟨hnone, k, hk, hmay path k hpath⟩

/-- What was there is there. -/
theorem Grown.kept (h : Grown may old last) {path : List String} {k : Kind}
    (hold : old.kindAt path = some k) : last.kindAt path = some k := by
  rcases h path with hsame | ⟨hnone, -⟩
  · exact hsame.trans hold
  · cases hold.symm.trans hnone

/-- What is there was there, or is allowed. -/
theorem Grown.new (h : Grown may old last) {path : List String} {k : Kind}
    (hnew : last.kindAt path = some k) : old.kindAt path = some k ∨ may path k := by
  rcases h path with hsame | ⟨-, k', hk', hmay⟩
  · exact .inl (hsame.symm.trans hnew)
  · rw [Option.some.inj (hnew.symm.trans hk')]
    exact .inr hmay

end Grown

/-! ### Changing one leaf

The change makes no directories, so all it can add is the leaf. -/

section Update

variable {ε : Type} {blocked : ε} {f : Option Tree → Except ε Tree}

/-- A change of a leaf leaves every other node what it is. -/
theorem kindAt_update_of_ne {way : List String} {name : String} {t t' : Tree}
    {es : List (String × Tree)} (hway : t.get way = some (dir es))
    (hold : ∀ x, es.lookup name = some x → Leaf x)
    (hnew : ∀ x, f (es.lookup name) = .ok x → Leaf x)
    (h : update blocked f (way ++ [name]) (some t) = .ok t') {path : List String}
    (hpath : path ≠ way ++ [name]) : t'.kindAt path = t.kindAt path := by
  induction way generalizing t t' path with
  | nil =>
      cases hway
      obtain ⟨es', c, hes, hc, rfl⟩ := update_cons_ok h
      obtain rfl : es' = es := by
        rcases hes with ⟨hnone, -⟩ | hes
        · cases hnone
        · cases hes; rfl
      have hc' : f (es'.lookup name) = .ok c := by
        rw [← hc]
        cases es'.lookup name <;> rfl
      cases path with
      | nil => rfl
      | cons m path =>
          by_cases hm : m = name
          · subst hm
            have hrest : path ≠ [] := fun hnil => hpath (by rw [hnil]; rfl)
            -- below a leaf there is nothing, before and after
            have hbelow : (dir es').get (m :: path) = none := by
              rw [get]
              exact Option.bind_eq_none_iff.mpr fun x hx => get_of_leaf (hold x hx) hrest
            rw [kindAt, kindAt, get_setEntry_self, get_of_leaf (hnew c hc') hrest, hbelow]
          · rw [kindAt, kindAt, get_setEntry_of_ne hm]
  | cons n way ih =>
      obtain ⟨es', c, hes, hc, rfl⟩ := update_cons_ok h
      obtain rfl : t = dir es' := by
        rcases hes with ⟨hnone, -⟩ | hes
        · cases hnone
        · exact Option.some.inj hes
      obtain ⟨u, hu, hbelow⟩ := Option.bind_eq_some_iff.mp hway
      cases path with
      | nil => rfl
      | cons m path =>
          by_cases hm : m = n
          · subst hm
            rw [show es'.lookup m = some u from hu] at hc
            have hrest : path ≠ way ++ [name] := fun heq => hpath (by rw [heq]; rfl)
            rw [kindAt, kindAt, get_setEntry_self, get_cons_of_child hu]
            exact ih hbelow hc hrest
          · rw [kindAt, kindAt, get_setEntry_of_ne hm]

/-- A leaf is made, or stays what it is. -/
theorem grown_update {may : List String → Kind → Prop} {way : List String} {name : String}
    {t t' : Tree} (hway : t.kindAt way = some .dir)
    (hold : ∀ x, t.get (way ++ [name]) = some x → Leaf x)
    (hnew : ∀ x, f (t.get (way ++ [name])) = .ok x → Leaf x ∧
      (t.kindAt (way ++ [name]) = some x.kind ∨
        t.kindAt (way ++ [name]) = none ∧ may (way ++ [name]) x.kind))
    (h : update blocked f (way ++ [name]) (some t) = .ok t') : Grown may t t' := by
  obtain ⟨es, hes⟩ := get_of_kindAt_dir hway
  rw [get_concat hes] at hold hnew
  intro path
  by_cases hpath : path = way ++ [name]
  · subst hpath
    obtain ⟨x, hx, hget⟩ := get_update_self h
    rw [Option.bind_some, get_concat hes] at hx
    rcases (hnew x hx).2 with hsame | ⟨hnone, hmay⟩
    · exact .inl ((kindAt_of_get hget).trans hsame.symm)
    · exact .inr ⟨hnone, x.kind, kindAt_of_get hget, hmay⟩
  · exact .inl (kindAt_update_of_ne hes hold (fun x hx => (hnew x hx).1) h hpath)

end Update

end Phragma.Lib.Tree
