import Mathlib.Tactic.Common
import Mathlib.Data.List.Basic

/-!
# Phragma.Lib.FileTree

**Directories as trees.** A node is a regular file, a directory or something else (a symbolic
link, a device). Paths are lists of names, so a name never has a separator in it.

`update` changes the node at a path and makes the directories on the way; it fails where
something on the way is not a directory. What stands at another path is left alone unless one of
the paths leads to the other (`get_update_of_apart`). `Part` says that a tree has nothing but
what another one has; a file can always be copied into a part (`update_part`).
-/

namespace Phragma.Lib

/-- A node of a file system. -/
inductive Tree
  | file (bytes : List UInt8)
  | dir (entries : List (String × Tree))
  | other

namespace Tree

/-- The node under a name; only directories have any. -/
def child (name : String) : Tree → Option Tree
  | dir es => es.lookup name
  | _ => none

/-- The node at a path. -/
def get : List String → Tree → Option Tree
  | [], t => some t
  | n :: p, t => (t.child n).bind (get p)

def isDir : Tree → Bool
  | dir _ => true
  | _ => false

/-- The entries with `x` under `name`, in place of what was there. -/
def setEntry (name : String) (x : Tree) (es : List (String × Tree)) : List (String × Tree) :=
  (name, x) :: es.filter fun e => e.1 ≠ name

/-- Change the node at a path with `f`. The directories on the way are made, `blocked` is
returned where something else is in the way. -/
def update {ε : Type} (blocked : ε) (f : Option Tree → Except ε Tree) :
    List String → Option Tree → Except ε Tree
  | [], t => f t
  | n :: p, none => (update blocked f p none).map fun c => dir [(n, c)]
  | n :: p, some (dir es) =>
      (update blocked f p (es.lookup n)).map fun c => dir (setEntry n c es)
  | _ :: _, some _ => .error blocked

/-- Neither of two paths leads to the other. -/
def Apart : List String → List String → Prop
  | a :: p, b :: q => a ≠ b ∨ Apart p q
  | _, _ => False

mutual

/-- Everything in the tree is a regular file or a directory. -/
def clean : Tree → Bool
  | file _ => true
  | dir es => cleanEntries es
  | other => false

def cleanEntries : List (String × Tree) → Bool
  | [] => true
  | (_, t) :: es => clean t && cleanEntries es

end

/-! ### Reading -/

theorem get_cons_of_child {n : String} {p : List String} {t c : Tree} (h : t.child n = some c) :
    t.get (n :: p) = c.get p := by
  rw [get, h]
  rfl

theorem get_append (p q : List String) (t : Tree) : t.get (p ++ q) = (t.get p).bind (get q) := by
  induction p generalizing t with
  | nil => rfl
  | cons n p ih =>
      rw [List.cons_append, get, get]
      cases t.child n with
      | none => rfl
      | some c => exact ih c

/-- Two files of a tree are one, or apart. -/
theorem apart_of_files {t : Tree} {p q : List String} {a b : List UInt8}
    (hp : t.get p = some (file a)) (hq : t.get q = some (file b)) : p = q ∨ Apart p q := by
  induction p generalizing q t with
  | nil =>
      cases hp
      cases q with
      | nil => exact .inl rfl
      | cons m q => cases hq
  | cons n p ih =>
      cases q with
      | nil =>
          cases hq
          cases hp
      | cons m q =>
          by_cases hnm : n = m
          · obtain rfl := hnm
            obtain ⟨c, hc, hp⟩ := Option.bind_eq_some_iff.mp hp
            rw [get_cons_of_child hc] at hq
            rcases ih hp hq with rfl | h
            · exact .inl rfl
            · exact .inr (.inr h)
          · exact .inr (.inl hnm)

theorem cleanEntries_iff {es : List (String × Tree)} :
    cleanEntries es = true ↔ ∀ e ∈ es, e.2.clean = true := by
  induction es with
  | nil => simp [cleanEntries]
  | cons e es ih => simp [cleanEntries, ih]

theorem clean_lookup {n : String} {es : List (String × Tree)} (h : cleanEntries es = true) {t : Tree}
    (ht : es.lookup n = some t) : t.clean = true := by
  obtain ⟨l, r, rfl, -⟩ := List.lookup_eq_some_iff.mp ht
  exact cleanEntries_iff.mp h (n, t) (by simp)

theorem clean_setEntry {n : String} {x : Tree} {es : List (String × Tree)} (hx : x.clean = true)
    (h : cleanEntries es = true) : cleanEntries (setEntry n x es) = true := by
  rw [cleanEntries_iff] at h ⊢
  intro e he
  rcases List.mem_cons.mp he with rfl | he
  · exact hx
  · exact h e (List.mem_of_mem_filter he)

theorem lookup_setEntry_self (n : String) (x : Tree) (es : List (String × Tree)) :
    (setEntry n x es).lookup n = some x :=
  List.lookup_cons_self

theorem lookup_setEntry_of_ne {n m : String} (h : m ≠ n) (x : Tree) (es : List (String × Tree)) :
    (setEntry n x es).lookup m = es.lookup m := by
  rw [setEntry, List.lookup_cons, beq_eq_false_iff_ne.mpr h]
  dsimp only
  induction es with
  | nil => rfl
  | cons e es ih =>
      obtain ⟨k, c⟩ := e
      by_cases hk : k = n
      · rw [List.filter_cons_of_neg (by simpa using hk), List.lookup_cons,
          beq_eq_false_iff_ne.mpr fun heq => h (heq.trans hk)]
        exact ih
      · rw [List.filter_cons_of_pos (by simpa using hk), List.lookup_cons, List.lookup_cons, ih]

theorem get_setEntry_self (n : String) (p : List String) (x : Tree) (es : List (String × Tree)) :
    (dir (setEntry n x es)).get (n :: p) = x.get p :=
  get_cons_of_child (t := dir (setEntry n x es)) (lookup_setEntry_self n x es)

theorem get_setEntry_of_ne {n m : String} (h : m ≠ n) (p : List String) (x : Tree)
    (es : List (String × Tree)) :
    (dir (setEntry n x es)).get (m :: p) = (dir es).get (m :: p) := by
  have hchild : (dir (setEntry n x es)).child m = (dir es).child m := lookup_setEntry_of_ne h x es
  rw [get, get, hchild]

/-! ### Changing -/

section Update

variable {ε : Type} {blocked : ε} {f : Option Tree → Except ε Tree}

/-- The two ways a change goes below a name. -/
theorem update_cons_ok {n : String} {p : List String} {t : Option Tree} {t' : Tree}
    (h : update blocked f (n :: p) t = .ok t') :
    ∃ es c, (t = none ∧ es = [] ∨ t = some (dir es)) ∧
      update blocked f p (es.lookup n) = .ok c ∧ t' = dir (setEntry n c es) := by
  match t with
  | none =>
      rw [update] at h
      cases hc : update blocked f p none with
      | error err => rw [hc] at h; cases h
      | ok c =>
          rw [hc] at h
          cases h
          exact ⟨[], c, .inl ⟨rfl, rfl⟩, hc, rfl⟩
  | some (dir es) =>
      rw [update] at h
      cases hc : update blocked f p (es.lookup n) with
      | error err => rw [hc] at h; cases h
      | ok c =>
          rw [hc] at h
          cases h
          exact ⟨es, c, .inr rfl, hc, rfl⟩
  | some (file b) => cases h
  | some other => cases h

/-- At the path stands what `f` makes of what was there. -/
theorem get_update_self {p : List String} {t : Option Tree} {t' : Tree}
    (h : update blocked f p t = .ok t') : ∃ x, f (t.bind (get p)) = .ok x ∧ t'.get p = some x := by
  induction p generalizing t t' with
  | nil => exact ⟨t', by cases t <;> exact h, rfl⟩
  | cons n p ih =>
      obtain ⟨es, c, hes, hc, rfl⟩ := update_cons_ok h
      obtain ⟨x, hx, hget⟩ := ih hc
      refine ⟨x, ?_, ?_⟩
      · rw [← hx]
        rcases hes with ⟨rfl, rfl⟩ | rfl <;> rfl
      · rw [get_setEntry_self, hget]

/-- What is apart from the path stays. -/
theorem get_update_of_apart {p q : List String} (hpq : Apart p q) {t : Option Tree} {t' : Tree}
    (h : update blocked f p t = .ok t') : t'.get q = t.bind (get q) := by
  induction p generalizing q t t' with
  | nil => exact hpq.elim
  | cons n p ih =>
      cases q with
      | nil => exact hpq.elim
      | cons m q =>
          obtain ⟨es, c, hes, hc, rfl⟩ := update_cons_ok h
          have hold : t.bind (get (m :: q)) = (es.lookup m).bind (get q) := by
            rcases hes with ⟨rfl, rfl⟩ | rfl <;> rfl
          rw [hold]
          by_cases hmn : m = n
          · obtain rfl := hmn
            rw [get_setEntry_self]
            exact ih (hpq.resolve_left fun hne => hne rfl) hc
          · rw [get_setEntry_of_ne hmn]
            rfl

theorem clean_update (hf : ∀ t x, f t = .ok x → x.clean = true) {p : List String}
    {t : Option Tree} {t' : Tree} (ht : ∀ u, t = some u → u.clean = true)
    (h : update blocked f p t = .ok t') : t'.clean = true := by
  induction p generalizing t t' with
  | nil => exact hf t t' (by cases t <;> exact h)
  | cons n p ih =>
      obtain ⟨es, c, hes, hc, rfl⟩ := update_cons_ok h
      have hclean : cleanEntries es = true := by
        rcases hes with ⟨-, rfl⟩ | rfl
        · rfl
        · exact ht _ rfl
      exact clean_setEntry (ih (fun u hu => clean_lookup hclean hu) hc) hclean

end Update

/-! ### Parts -/

/-- The tree has directories and files only, and those of `whole`. -/
def Part (t whole : Tree) : Prop :=
  ∀ p x, t.get p = some x →
    (x.isDir = true ∧ ∃ y, whole.get p = some y ∧ y.isDir = true) ∨
      ∃ bytes, x = file bytes ∧ whole.get p = some (file bytes)

theorem part_empty {whole : Tree} (h : whole.isDir = true) : Part (dir []) whole := by
  intro p x hx
  cases p with
  | nil =>
      cases hx
      exact .inl ⟨rfl, whole, rfl, h⟩
  | cons n p => cases hx

theorem Part.child {n : String} {es ws : List (String × Tree)} {c : Tree}
    (h : Part (dir es) (dir ws)) (hc : es.lookup n = some c) :
    ∃ w, ws.lookup n = some w ∧ Part c w := by
  have hget : ∀ p, (dir es).get (n :: p) = c.get p := fun p => get_cons_of_child hc
  cases hw : ws.lookup n with
  | none =>
      have hnone : ∀ p, (dir ws).get (n :: p) = none := by
        intro p
        rw [get, show (dir ws).child n = none from hw]
        rfl
      rcases h [n] c (hget []) with ⟨-, y, hy, -⟩ | ⟨bytes, -, hy⟩
      · rw [hnone] at hy; cases hy
      · rw [hnone] at hy; cases hy
  | some w =>
      refine ⟨w, rfl, fun p x hx => ?_⟩
      have hwget : (dir ws).get (n :: p) = w.get p := get_cons_of_child hw
      rw [← hwget]
      exact h (n :: p) x ((hget p).trans hx)

/-- A file of `whole` can be copied into a part of it, which stays one. -/
theorem update_part {ε : Type} {blocked : ε} {f : Option Tree → Except ε Tree}
    {bytes : List UInt8} (hf : ∀ t, t.isNone ∨ (∃ b, t = some (file b)) → f t = .ok (file bytes))
    {p : List String} {t : Option Tree} {whole : Tree} (ht : ∀ u, t = some u → Part u whole)
    (hp : whole.get p = some (file bytes)) :
    ∃ t', update blocked f p t = .ok t' ∧ Part t' whole := by
  induction p generalizing t whole with
  | nil =>
      cases hp
      have hok : f t = .ok (file bytes) := by
        refine hf t ?_
        cases t with
        | none => exact .inl rfl
        | some u =>
            rcases ht u rfl [] u rfl with ⟨-, y, hy, hdir⟩ | ⟨b, rfl, -⟩
            · cases hy; cases hdir
            · exact .inr ⟨b, rfl⟩
      refine ⟨file bytes, by cases t <;> exact hok, fun q x hx => ?_⟩
      cases q with
      | nil => cases hx; exact .inr ⟨bytes, rfl, rfl⟩
      | cons m q => cases hx
  | cons n p ih =>
      cases whole with
      | file b => cases hp
      | other => cases hp
      | dir ws =>
          -- what is there is a directory, or nothing
          obtain ⟨es, hes, hpart⟩ : ∃ es, (t = none ∧ es = [] ∨ t = some (dir es)) ∧
              Part (dir es) (dir ws) := by
            cases t with
            | none => exact ⟨[], .inl ⟨rfl, rfl⟩, part_empty rfl⟩
            | some u =>
                rcases ht u rfl [] u rfl with ⟨hdir, -⟩ | ⟨b, -, hb⟩
                · cases u with
                  | dir es => exact ⟨es, .inr rfl, ht _ rfl⟩
                  | file b => cases hdir
                  | other => cases hdir
                · cases hb
          rw [get] at hp
          cases hw : (dir ws).child n with
          | none => rw [hw] at hp; cases hp
          | some w =>
              rw [hw] at hp
              have hchild : ∀ u, es.lookup n = some u → Part u w := by
                intro u hu
                obtain ⟨w', hw', hu'⟩ := hpart.child hu
                cases hw.symm.trans hw'
                exact hu'
              obtain ⟨c, hc, hcw⟩ := ih hchild hp
              refine ⟨dir (setEntry n c es), ?_, ?_⟩
              · rcases hes with ⟨rfl, rfl⟩ | rfl
                · rw [update, show update blocked f p none = .ok c from hc]; rfl
                · rw [update, hc]; rfl
              · intro q x hx
                cases q with
                | nil => cases hx; exact .inl ⟨rfl, dir ws, rfl, rfl⟩
                | cons m q =>
                    by_cases hmn : m = n
                    · obtain rfl := hmn
                      rw [get_setEntry_self] at hx
                      rw [get_cons_of_child hw]
                      exact hcw q x hx
                    · rw [get_setEntry_of_ne hmn] at hx
                      exact hpart (m :: q) x hx

end Tree

end Phragma.Lib
