import Mathlib.Data.List.Nodup
import Phragma.Go.AddrText
import Phragma.Go.PrefixOrder
import Phragma.Renderers.Unbroken

/-!
# Phragma.Renderers.Suppressions

**What the suppressions of a configuration are about**: a signature, a direction and a network.

The validator rejects a second active exception of one signature and scope. It compares the
networks by the text of the address object, the rendered line is read by its masked prefix. So
two suppressions collide exactly when two active exceptions spell one network in two ways
(`suppressions_nodup_iff`).
-/

namespace Phragma.Renderers.Suricata

open Lib Go Policy Compiler Engines

/-! ### Reading a suppression

A line names a signature and, if it is for one side, a network, which is read with its bits beyond
the length cut off. -/

/-- The signature, the direction and the network of a suppression. -/
structure SuppressScope where
  signatureID : Nat
  track : String
  network : Option Prefix
  deriving DecidableEq

/-- Read a suppression. The network counts without its host bits. -/
def readSuppress (line : String) : Option SuppressScope := do
  let rest ← cutPrefix line "suppress gen_id 1, sig_id "
  match splitOn ',' rest.toList with
  | [sid] => (digitsValue sid).map fun n => ⟨n, "", none⟩
  | [sid, track, ip] =>
      let n ← digitsValue sid
      let track ← cutPrefix (String.ofList track) " track "
      let ip ← cutPrefix (String.ofList ip) " ip "
      let pfx ← parsePrefix ip
      some ⟨n, track, some pfx.masked⟩
  | _ => none

/-- The suppressions of a configuration, as the engine takes them over. -/
def suppressions (ir : IR) : List String := (ir.ids.elim [] IDsIR.exceptions).map suppressLine

/-- What an exception of the IR is about. -/
def exceptionScope (ex : IDSExceptionIR) : SuppressScope :=
  ⟨ex.signatureID.toNat, ex.track, ex.address.map Prefix.masked⟩

/-- An exception is about all traffic, or about one side of it. -/
def Scoped (ex : IDSExceptionIR) : Prop :=
  0 < ex.signatureID ∧ ((ex.track = "" ∧ ex.address = none) ∨
    ((ex.track = "by_src" ∨ ex.track = "by_dst") ∧ ex.address.isSome))

theorem comma_notMem_prefix (p : Prefix) : ',' ∉ p.string.toList := by
  unfold Prefix.string
  rw [String.toList_append, String.toList_append]
  simp only [List.mem_append, not_or]
  refine ⟨⟨?_, by decide⟩, notMem_decimal rfl p.bits⟩
  cases h : p.addr with
  | v4 a => exact notMem_quadString rfl (by decide) _
  | v6 a zone =>
      have hzone : zone = "" := by simpa [h, Addr.zone] using p.zone_eq
      simp only [Addr.string, hzone, if_true]
      split
      · rw [toList_mapped]
        exact notMem_mappedText (by decide) rfl _
      · exact notMem_string6 (by decide) (by decide) _

/-- **A rendered suppression is read back.** -/
theorem readSuppress_suppressLine {ex : IDSExceptionIR} (h : Scoped ex) :
    readSuppress (suppressLine ex) = some (exceptionScope ex) := by
  obtain ⟨hpos, hscope⟩ := h
  have hsid : toString ex.signatureID = decimal ex.signatureID.toNat := by
    obtain ⟨n, hn⟩ := Int.eq_ofNat_of_zero_le hpos.le
    rw [hn]
    rfl
  have hcomma := notMem_decimal (c := ',') rfl ex.signatureID.toNat
  unfold readSuppress suppressLine exceptionScope
  rw [hsid, String.append_assoc, cutPrefix_append]
  rcases hscope with ⟨htrack, haddress⟩ | ⟨htrack, haddress⟩
  · simp [htrack, haddress, splitOn_of_notMem hcomma, digitsValue_decimal]
  · obtain ⟨pfx, hpfx⟩ := Option.isSome_iff_exists.mp haddress
    have hne : ex.track ≠ "" := by rcases htrack with h | h <;> rw [h] <;> decide
    have htrackComma : ',' ∉ ex.track.toList := by
      rcases htrack with h | h <;> rw [h] <;> decide
    have hsplit : splitOn ',' (decimal ex.signatureID.toNat ++
        (", track " ++ ex.track ++ ", ip " ++ pfx.string)).toList =
        [(decimal ex.signatureID.toNat).toList, (" track " ++ ex.track).toList,
          (" ip " ++ pfx.string).toList] := by
      rw [← @splitOn_intercalate ',' [_, _, _] (List.cons_ne_nil _ _) ?_]
      · simp [List.intercalate]
      · simp [hcomma, htrackComma, comma_notMem_prefix]
    simp only [if_neg hne, hpfx, Option.map_some, Option.getD_some, Option.bind_some,
      Option.bind_eq_bind,
      hsplit, digitsValue_decimal, String.ofList_toList, cutPrefix_append, parsePrefix_string]

/-! ### What the validator compares

Two active exceptions may not have one key. The key has the text of the address object. -/

/-- The key of an active exception: its signature, and the text of its scope. -/
def semanticKey (v : Objects) (e : IdsException) : String :=
  toString e.signatureId ++ "/" ++ idsExceptionScopeKey v e

/-- The exceptions that are not disabled. -/
def activeExceptions (p : Phragma.Policy) : List IdsException :=
  p.getIds.exceptions.filter fun e => !e.disabled

/-- The active exceptions of an accepted list have different keys. -/
theorem semanticKeys_nodup {v : Objects} {exceptions : List IdsException}
    (h : checkIDSExceptions v exceptions = []) :
    ((exceptions.filter fun e => !e.disabled).map (semanticKey v)).Nodup := by
  refine (collect_quiet_all _ _ (fun pre (s : ExceptionState) =>
    s.activeScopes.map Prod.fst = ((pre.filter fun e => !e.disabled).map (semanticKey v)).reverse ∧
      ((pre.filter fun e => !e.disabled).map (semanticKey v)).Nodup) ?_ ⟨rfl, List.nodup_nil⟩ h).2
  rintro pre s e ⟨hkeys, hnodup⟩ hq
  obtain ⟨-, -, hbody, hsnd⟩ := named_quiet hq
  rw [hsnd]
  unfold checkIDSException at hbody ⊢
  cases hactive : e.disabled with
  | true => simpa [hactive] using ⟨hkeys, hnodup⟩
  | false =>
      simp only [hactive, Bool.false_eq_true, if_false] at hbody ⊢
      cases hl : s.activeScopes.lookup (toString e.signatureId ++ "/" ++ idsExceptionScopeKey v e) with
      | some other =>
          rw [hl] at hbody
          exact absurd (List.append_eq_nil_iff.mp hbody).2 (List.cons_ne_nil _ _)
      | none =>
          have hnew : semanticKey v e ∉ (pre.filter fun e => !e.disabled).map (semanticKey v) := by
            rw [← List.mem_reverse, ← hkeys]
            rw [List.lookup_eq_none_iff] at hl
            intro hmem
            obtain ⟨entry, hentry, hkey⟩ := List.mem_map.mp hmem
            exact bne_iff_ne.mp (hl entry hentry) hkey.symm
          simp only [List.filter_append, List.filter_cons, hactive, Bool.not_false, if_true,
            List.filter_nil, List.map_append, List.map_cons, List.map_nil, List.reverse_append,
            List.reverse_cons, List.reverse_nil, List.nil_append, List.singleton_append, hkeys]
          exact ⟨rfl, nodup_snoc hnodup hnew⟩

/-! ### What is compiled

An exception is compiled to its signature and to the prefix of its address, unmasked. -/

/-- What an active exception is compiled to. -/
inductive ScopedBy (p : Phragma.Policy) (e : IdsException) (ex : IDSExceptionIR) : Prop
  | all (source : e.sourceAddress = "") (destination : e.destinationAddress = "")
      (track : ex.track = "") (address : ex.address = none)
  | source {a : Address} (mem : a ∈ p.addresses) (source : a.name = e.sourceAddress)
      (destination : e.destinationAddress = "") (track : ex.track = "by_src")
      (address : ex.address = parsePrefix a.cidr)
  | destination {a : Address} (mem : a ∈ p.addresses) (source : e.sourceAddress = "")
      (destination : a.name = e.destinationAddress) (track : ex.track = "by_dst")
      (address : ex.address = parsePrefix a.cidr)

section Compiled

variable {p : Phragma.Policy} (hA : Accepted p) {c : Compilation} (hT : TablesOf p c)
include hA hT

theorem scopedBy_of_compileIDSException {e : IdsException} (he : e ∈ activeExceptions p)
    {ex : IDSExceptionIR} (h : compileIDSException c.addrs e = .ok ex) :
    0 < e.signatureId ∧ ex.signatureID = e.signatureId ∧ ScopedBy p e ex := by
  obtain ⟨hmem, hactive⟩ := List.mem_filter.mp he
  obtain ⟨-, hpos, hone, -⟩ := exception_quiet hA hmem (by simpa using hactive)
  refine ⟨hpos, ?_⟩
  unfold compileIDSException at h
  simp only at h
  split at h
  · next hs =>
      have hd := hone.resolve_left hs
      split at h
      · cases h
      · next pfx hpfx =>
          cases h
          obtain ⟨a, ha, hname, hcidr⟩ := (lookup_addrs_iff hA hT).mp hpfx
          exact ⟨rfl, .source ha hname hd rfl hcidr.symm⟩
  · next hs =>
      have hs := not_ne_iff.mp hs
      split at h
      · next hd =>
          split at h
          · cases h
          · next pfx hpfx =>
              cases h
              obtain ⟨a, ha, hname, hcidr⟩ := (lookup_addrs_iff hA hT).mp hpfx
              exact ⟨rfl, .destination ha hs hname rfl hcidr.symm⟩
      · next hd =>
          cases h
          exact ⟨rfl, .all hs (not_ne_iff.mp hd) rfl rfl⟩

theorem scoped_of_compileIDSException {e : IdsException} (he : e ∈ activeExceptions p)
    {ex : IDSExceptionIR} (h : compileIDSException c.addrs e = .ok ex) : Scoped ex := by
  obtain ⟨hpos, hsid, hby⟩ := scopedBy_of_compileIDSException hA hT he h
  refine ⟨hsid ▸ hpos, ?_⟩
  cases hby with
  | all _ _ track address => exact .inl ⟨track, address⟩
  | source mem _ _ track address => exact .inr ⟨.inl track, address ▸ hA.address_cidr _ mem⟩
  | destination mem _ _ track address => exact .inr ⟨.inr track, address ▸ hA.address_cidr _ mem⟩

end Compiled

/-! ### Networks with two spellings

Two texts of one network are the only way for two keys to differ where the networks do not. -/

/-- Two references to address objects whose texts differ and whose networks do not. -/
def SpelledTwice (p : Phragma.Policy) (ref ref' : String) : Prop :=
  ∃ a ∈ p.addresses, ∃ a' ∈ p.addresses, a.name = ref ∧ a'.name = ref' ∧ a.cidr ≠ a'.cidr ∧
    (parsePrefix a.cidr).map Prefix.masked = (parsePrefix a'.cidr).map Prefix.masked

/-- Two exceptions of one signature and direction that spell their network in two ways. -/
def Respelled (p : Phragma.Policy) (e e' : IdsException) : Prop :=
  e.signatureId = e'.signatureId ∧ (SpelledTwice p e.sourceAddress e'.sourceAddress ∨
    SpelledTwice p e.destinationAddress e'.destinationAddress)

theorem addressCIDROrRef_of_mem {p : Phragma.Policy} (hA : Accepted p) {a : Address}
    (ha : a ∈ p.addresses) : addressCIDROrRef (collectAll p).2 a.name = a.cidr := by
  unfold addressCIDROrRef
  rw [hA.addresses_eq, lookup_tableOf_of_mem hA.address_names ha]
  rfl

/-- Nothing is called by the empty name. -/
theorem not_spelledTwice_empty {p : Phragma.Policy} (hA : Accepted p) {ref ref' : String}
    (h : ref = "" ∨ ref' = "") : ¬ SpelledTwice p ref ref' := by
  rintro ⟨a, ha, a', ha', hname, hname', -⟩
  rcases h with rfl | rfl
  · exact (hA.address_usable a ha).ne_empty hname
  · exact (hA.address_usable a' ha').ne_empty hname'

theorem spelledTwice_iff {p : Phragma.Policy} (hA : Accepted p) {a a' : Address}
    (ha : a ∈ p.addresses) (ha' : a' ∈ p.addresses) :
    SpelledTwice p a.name a'.name ↔ a.cidr ≠ a'.cidr ∧
      (parsePrefix a.cidr).map Prefix.masked = (parsePrefix a'.cidr).map Prefix.masked := by
  constructor
  · rintro ⟨b, hb, b', hb', hname, hname', hne, heq⟩
    obtain rfl := List.inj_on_of_nodup_map hA.address_names hb ha hname
    obtain rfl := List.inj_on_of_nodup_map hA.address_names hb' ha' hname'
    exact ⟨hne, heq⟩
  · rintro ⟨hne, heq⟩
    exact ⟨a, ha, a', ha', rfl, rfl, hne, heq⟩

/-- **When two active exceptions with different keys are about the same thing.** -/
theorem exceptionScope_eq_iff {p : Phragma.Policy} (hA : Accepted p) {e e' : IdsException}
    {ex ex' : IDSExceptionIR} (hsid : ex.signatureID = e.signatureId) (hby : ScopedBy p e ex)
    (hsid' : ex'.signatureID = e'.signatureId) (hby' : ScopedBy p e' ex')
    (hpos : 0 < e.signatureId) (hpos' : 0 < e'.signatureId)
    (hkey : semanticKey (collectAll p).2 e ≠ semanticKey (collectAll p).2 e') :
    exceptionScope ex = exceptionScope ex' ↔ Respelled p e e' := by
  have hnat : ex.signatureID.toNat = ex'.signatureID.toNat ↔ e.signatureId = e'.signatureId := by
    omega
  unfold exceptionScope Respelled
  rw [SuppressScope.mk.injEq, hnat]
  refine and_congr_right fun hsame => ?_
  have hscope : idsExceptionScopeKey (collectAll p).2 e ≠ idsExceptionScopeKey (collectAll p).2 e' :=
    fun h => hkey (by rw [semanticKey, semanticKey, hsame, h])
  have hnone : ∀ {ref ref' : String}, ref = "" ∨ ref' = "" → (SpelledTwice p ref ref' ↔ False) :=
    fun h => iff_of_false (not_spelledTwice_empty hA h) id
  -- one side: the texts differ, so the networks are equal only if spelled twice
  have hside : ∀ {a a' : Address}, a ∈ p.addresses → a' ∈ p.addresses →
      (a.cidr = a'.cidr → False) →
      ((parsePrefix a.cidr).map Prefix.masked = (parsePrefix a'.cidr).map Prefix.masked ↔
        SpelledTwice p a.name a'.name) := fun ha ha' hne => by
    rw [spelledTwice_iff hA ha ha']
    exact ⟨fun h => ⟨hne, h⟩, And.right⟩
  have hname : ∀ {a : Address}, a ∈ p.addresses → a.name ≠ "" := fun ha =>
    (hA.address_usable _ ha).ne_empty
  unfold idsExceptionScopeKey at hscope
  cases hby with
  | all hs hd ht ha =>
      rw [hnone (.inl hs), hnone (.inl hd), ht, ha]
      cases hby' with
      | all hs' hd' ht' ha' => simp [hs, hd, hs', hd'] at hscope
      | source _ _ _ ht' _ => simp [ht']
      | destination _ _ _ ht' _ => simp [ht']
  | source hmem hs hd ht ha =>
      rw [hnone (.inl hd), ht, ha, or_false]
      cases hby' with
      | all hs' _ ht' _ => simp [hnone (.inr hs'), ht']
      | source hmem' hs' hd' ht' ha' =>
          rw [← hs, ← hs'] at hscope ⊢
          rw [ht', ha', ← hside hmem hmem']
          · simp
          · intro heq
            simp only [ne_eq, hname hmem, hname hmem', not_false_eq_true, if_true,
              addressCIDROrRef_of_mem hA hmem, addressCIDROrRef_of_mem hA hmem', heq,
              not_true_eq_false] at hscope
      | destination _ hs' _ ht' _ => simp [hnone (.inr hs'), ht']
  | destination hmem hs hd ht ha =>
      rw [hnone (.inl hs), ht, ha, false_or]
      cases hby' with
      | all _ hd' ht' _ => simp [hnone (.inr hd'), ht']
      | source _ _ hd' ht' _ => simp [hnone (.inr hd'), ht']
      | destination hmem' hs' hd' ht' ha' =>
          rw [hs, hs', ← hd, ← hd'] at hscope
          rw [← hd, ← hd', ht', ha', ← hside hmem hmem']
          · simp
          · intro heq
            simp only [ne_eq, hname hmem, hname hmem', not_false_eq_true, not_true_eq_false, if_true,
              if_false, addressCIDROrRef_of_mem hA hmem, addressCIDROrRef_of_mem hA hmem',
              heq] at hscope

/-- Conditions on pairs of two related lists, where a third one holds of all pairs. -/
theorem pairwise_iff_of_forall₂ {α β : Type} {R : α → β → Prop} {K P : α → α → Prop}
    {Q : β → β → Prop}
    (h : ∀ {a a' b b'}, R a b → R a' b' → K a a' → (P a a' ↔ Q b b')) {as : List α} {bs : List β}
    (hR : List.Forall₂ R as bs) (hK : as.Pairwise K) : as.Pairwise P ↔ bs.Pairwise Q := by
  induction hR with
  | nil => exact iff_of_true .nil .nil
  | @cons a b as bs hab hR ih =>
      rw [List.pairwise_cons] at hK ⊢
      rw [List.pairwise_cons, ih hK.2]
      refine and_congr_left fun _ => ⟨fun hP b' hb' => ?_, fun hQ a' ha' => ?_⟩
      · obtain ⟨a', ha', hab'⟩ := exists_of_forall₂_right hR hb'
        exact (h hab hab' (hK.1 a' ha')).mp (hP a' ha')
      · obtain ⟨b', hb', hab'⟩ := exists_of_forall₂_left hR ha'
        exact (h hab hab' (hK.1 a' ha')).mpr (hQ b' hb')

/-- Every suppression of a compiled policy is read back as what its exception is about. -/
theorem readSuppress_suppressions {H : IdentityHash} {p : Phragma.Policy} {ir : IR}
    (h : Compile H p = .ok ir) :
    (suppressions ir).map readSuppress =
      ((ir.ids.elim [] IDsIR.exceptions).map exceptionScope).map some := by
  obtain ⟨hvalid, c, hC⟩ := Compile_ok h
  have hA := accepted_of_Validate hvalid
  unfold suppressions
  cases hir : ir.ids with
  | none => rfl
  | some ids =>
      have hrel := compileIDs_exceptions (hir ▸ hC.ids)
      rw [Option.elim_some, List.map_map, List.map_map]
      refine List.map_congr_left fun ex hex => ?_
      obtain ⟨e, he, hcompile⟩ := exists_of_forall₂_right
        ((List.forall₂_and_left _ _).mpr ⟨fun e he => he, hrel⟩) hex |>.imp fun _ h => h.2
      exact readSuppress_suppressLine (scoped_of_compileIDSException hA hC.toTablesOf he hcompile)

/-- **When suppressions collide**: two active exceptions spell one network in two ways. -/
theorem suppressions_nodup_iff {H : IdentityHash} {p : Phragma.Policy} {ir : IR}
    (h : Compile H p = .ok ir) :
    ((suppressions ir).map readSuppress).Nodup ↔
      (p.getIds.enabled = true → (activeExceptions p).Pairwise fun e e' => ¬ Respelled p e e') := by
  obtain ⟨hvalid, c, hC⟩ := Compile_ok h
  have hA := accepted_of_Validate hvalid
  have hids : (normalizeIdentities H p).getIds = p.getIds := rfl
  rw [readSuppress_suppressions h]
  cases hir : ir.ids with
  | none =>
      have hdisabled := compileIDs_none (hir ▸ hC.ids)
      simp [← hids, hdisabled]
  | some ids =>
      have hcompiled := hir ▸ hC.ids
      have henabled := (compileIDs_ok hcompiled).1
      have hrel := (List.forall₂_and_left _ _).mpr ⟨fun e he => he, compileIDs_exceptions hcompiled⟩
      have hkeys : (activeExceptions p).Pairwise fun e e' =>
          semanticKey (collectAll (normalizeIdentities H p)).2 e ≠
            semanticKey (collectAll (normalizeIdentities H p)).2 e' :=
        List.pairwise_map.mp (semanticKeys_nodup (exceptions_quiet hA))
      rw [Option.elim_some, List.nodup_map_iff (fun _ _ => Option.some.inj), ← hids]
      simp only [henabled, true_implies]
      refine List.pairwise_map.trans (pairwise_iff_of_forall₂ ?_ hrel hkeys).symm
      intro e e' ex ex' ⟨he, hcompile⟩ ⟨he', hcompile'⟩ hkey
      obtain ⟨hpos, hsid, hby⟩ := scopedBy_of_compileIDSException hA hC.toTablesOf he hcompile
      obtain ⟨hpos', hsid', hby'⟩ := scopedBy_of_compileIDSException hA hC.toTablesOf he' hcompile'
      exact not_congr (exceptionScope_eq_iff hA hsid hby hsid' hby' hpos hpos' hkey).symm

/-! ### A network with host bits -/

/-- Two exceptions for one signature, whose sources are the addresses given. -/
def twoExceptions (cidr cidr' : String) : Phragma.Policy where
  zones := [{ name := "lan", interfaces := ["eth0"] }]
  addresses := [{ name := "office", cidr }, { name := "branch", cidr := cidr' }]
  ids := some {
    enabled := true, mode := .detect
    exceptions := [{ name := "ex-1", signatureId := 2100498, sourceAddress := "office" },
      { name := "ex-2", signatureId := 2100498, sourceAddress := "branch" }] }

/-- Networks that differ: the policy is compiled, and nothing is spelled twice. -/
theorem suppressions_twoExceptions : ∃ ir,
    Compile .zero (twoExceptions "10.0.0.0/24" "10.0.1.0/24") = .ok ir ∧
    (((suppressions ir).map readSuppress).Nodup ↔
      ((twoExceptions "10.0.0.0/24" "10.0.1.0/24").getIds.enabled = true →
        (activeExceptions (twoExceptions "10.0.0.0/24" "10.0.1.0/24")).Pairwise fun e e' =>
          ¬ Respelled (twoExceptions "10.0.0.0/24" "10.0.1.0/24") e e')) := by
  have hok : (Compile .zero (twoExceptions "10.0.0.0/24" "10.0.1.0/24")).isOk = true := by
    decide +kernel
  cases h : Compile .zero (twoExceptions "10.0.0.0/24" "10.0.1.0/24") with
  | error e => simp [h, Except.isOk, Except.toBool] at hok
  | ok ir => exact ⟨ir, rfl, suppressions_nodup_iff h⟩

/-- A host of a network and the network itself: both exceptions are accepted, and their
suppressions are about the same thing. -/
theorem suppressions_collide : ∃ ir,
    Compile .zero (twoExceptions "10.0.0.5/24" "10.0.0.0/24") = .ok ir ∧
    (suppressions ir).length = 2 ∧ ¬ ((suppressions ir).map readSuppress).Nodup := by
  have hok : (match Compile .zero (twoExceptions "10.0.0.5/24" "10.0.0.0/24") with
      | .ok ir => decide ((suppressions ir).length = 2 ∧
          ¬ (((ir.ids.elim [] IDsIR.exceptions).map exceptionScope).map some).Nodup)
      | .error _ => false) = true := by decide +kernel
  cases h : Compile .zero (twoExceptions "10.0.0.5/24" "10.0.0.0/24") with
  | error e => simp [h] at hok
  | ok ir =>
      rw [h] at hok
      refine ⟨ir, rfl, ?_⟩
      rw [readSuppress_suppressions h]
      exact of_decide_eq_true hok

end Phragma.Renderers.Suricata
