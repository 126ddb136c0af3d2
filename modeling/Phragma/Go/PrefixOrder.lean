import Mathlib.Data.Set.Disjoint
import Phragma.Go.Netip

/-!
# Phragma.Go.PrefixOrder

`netip` prefixes as **sets of addresses**: masking, comparison and containment.

Two prefixes of one family are nested or disjoint. Masked prefixes that are nested are ordered by
their addresses: the larger one starts no later than the smaller one (`order_of_meet`). So in
increasing order, and the shorter one first among equal addresses, a prefix covers every later one
that it meets.
-/

namespace Phragma.Go

/-! ### Masking -/

/-- The address with its host bits cleared. -/
def Addr.masked (bits : Nat) : Addr → Addr
  | .v4 a => .v4 (a &&& Prefix.mask 32 bits)
  | .v6 a _ => .v6 (a &&& Prefix.mask 128 bits) ""

/-- `Addr.Compare`: by length, value and zone. -/
def Addr.compare : Addr → Addr → Ordering
  | .v4 a, .v4 b => Ord.compare a.toNat b.toNat
  | .v4 _, .v6 _ _ => .lt
  | .v6 _ _, .v4 _ => .gt
  | .v6 a za, .v6 b zb => (Ord.compare a.toNat b.toNat).then (Ord.compare za zb)

/-- The value of an address. -/
def Addr.value : Addr → Nat
  | .v4 a => a.toNat
  | .v6 a _ => a.toNat

namespace Prefix

/-- `Prefix.Masked`: the prefix without the bits beyond its length. -/
def masked (p : Prefix) : Prefix :=
  match p with
  | ⟨.v4 a, bits, hbits, hzone⟩ => ⟨.v4 (a &&& mask 32 bits), bits, hbits, hzone⟩
  | ⟨.v6 a zone, bits, hbits, hzone⟩ => ⟨.v6 (a &&& mask 128 bits) zone, bits, hbits, hzone⟩

@[simp] theorem masked_bits (p : Prefix) : p.masked.bits = p.bits := by
  obtain ⟨addr, bits, hbits, hzone⟩ := p
  cases addr <;> rfl

@[simp] theorem addr_masked (p : Prefix) : p.masked.addr = p.addr.masked p.bits := by
  obtain ⟨addr, bits, hbits, hzone⟩ := p
  cases addr with
  | v4 a => rfl
  | v6 a zone =>
      obtain rfl : zone = "" := hzone
      rfl

/-- The addresses of a prefix. -/
def addrs (p : Prefix) : Set Addr := {a | p.contains a = true}

/-! ### Masks -/

section Words

variable {w n m : Nat} {a b x : BitVec w}

/-- A shorter mask after a longer one. -/
theorem mask_and_mask (h : n ≤ m) : mask w m &&& mask w n = mask w n := by
  apply BitVec.eq_of_getLsbD_eq
  intro i hi
  simp only [BitVec.getLsbD_and, getLsbD_mask]
  by_cases hn : w - n ≤ i
  · have hm : w - m ≤ i := by omega
    simp [hi, hn, hm]
  · simp [hn]

theorem and_mask_mask (h : n ≤ m) (x : BitVec w) : x &&& mask w m &&& mask w n = x &&& mask w n := by
  rw [BitVec.and_assoc, mask_and_mask h]

theorem maskedEq_iff : maskedEq n a b = true ↔ a &&& mask w n = b &&& mask w n := by
  rw [maskedEq, beq_iff_eq]

end Words

end Prefix

namespace Addr

@[simp] theorem is4_masked (n : Nat) (a : Addr) : (a.masked n).is4 = a.is4 := by
  cases a <;> rfl

@[simp] theorem zone_masked (n : Nat) (a : Addr) : (a.masked n).zone = "" := by
  cases a <;> rfl

/-- A shorter mask after a longer one. -/
theorem masked_masked {n m : Nat} (h : n ≤ m) (a : Addr) : (a.masked m).masked n = a.masked n := by
  cases a with
  | v4 a => exact congrArg Addr.v4 (Prefix.and_mask_mask h a)
  | v6 a zone => exact congrArg (Addr.v6 · "") (Prefix.and_mask_mask h a)

/-- Masking does not increase an address. -/
theorem value_masked_le (n : Nat) (a : Addr) : (a.masked n).value ≤ a.value := by
  cases a with
  | v4 a =>
      rw [masked, value, value, BitVec.toNat_and]
      exact Nat.and_le_left
  | v6 a zone =>
      rw [masked, value, value, BitVec.toNat_and]
      exact Nat.and_le_left

theorem value_lt (a : Addr) : a.value < 2 ^ 128 := by
  cases a with
  | v4 a => exact a.isLt.trans (by decide)
  | v6 a zone => exact a.isLt

/-- A family, a value and a zone make an address. -/
theorem ext_value {a b : Addr} (hfamily : a.is4 = b.is4) (hvalue : a.value = b.value)
    (hzone : a.zone = b.zone) : a = b := by
  cases a with
  | v4 a =>
      cases b with
      | v4 b => exact congrArg Addr.v4 (BitVec.eq_of_toNat_eq hvalue)
      | v6 b zone => cases hfamily
  | v6 a za =>
      cases b with
      | v4 b => cases hfamily
      | v6 b zb =>
          obtain rfl : a = b := BitVec.eq_of_toNat_eq hvalue
          exact congrArg (Addr.v6 a) hzone

/-- The value decides the comparison of addresses of one family without zones. -/
theorem compare_eq {a b : Addr} (hfamily : a.is4 = b.is4) (hzone : a.zone = b.zone) :
    a.compare b = Ord.compare a.value b.value := by
  cases a with
  | v4 a =>
      cases b with
      | v4 b => rfl
      | v6 b zone => cases hfamily
  | v6 a za =>
      cases b with
      | v4 b => cases hfamily
      | v6 b zb =>
          obtain rfl : za = zb := hzone
          rw [compare, show Ord.compare za za = .eq from Std.ReflOrd.compare_self]
          cases h : Ord.compare a.toNat b.toNat <;> simp [value, h, Ordering.then]

end Addr

/-! ### Containment -/

namespace Prefix

variable {p q : Prefix} {a : Addr}

/-- **An address is in a prefix** when it is of its family, has no zone and agrees with it under
its mask. -/
theorem contains_iff : p.contains a = true ↔
    a.is4 = p.addr.is4 ∧ a.zone = "" ∧ a.masked p.bits = p.addr.masked p.bits := by
  unfold contains
  cases hp : p.addr with
  | v4 x =>
      cases a with
      | v4 y =>
          dsimp only
          rw [shift_xor_eq_zero, maskedEq_iff]
          simp [Addr.is4, Addr.zone, Addr.masked]
      | v6 y zone => simp [Addr.is4]
  | v6 x z =>
      cases a with
      | v4 y => simp [Addr.is4]
      | v6 y zone =>
          dsimp only
          rw [Bool.and_eq_true, and_xor_eq_zero, maskedEq_iff, beq_iff_eq]
          simp [Addr.is4, Addr.zone, Addr.masked]

/-- A prefix holds the address it is written with. -/
theorem addr_mem_addrs (p : Prefix) : p.addr ∈ p.addrs :=
  contains_iff.mpr ⟨rfl, p.zone_eq, rfl⟩

/-- Masking a prefix keeps its addresses. -/
theorem contains_masked (p : Prefix) (a : Addr) : p.masked.contains a = p.contains a := by
  rw [Bool.eq_iff_iff, contains_iff, contains_iff]
  simp [Addr.masked_masked le_rfl]

@[ext] theorem ext_addr {p q : Prefix} (haddr : p.addr = q.addr) (hbits : p.bits = q.bits) :
    p = q := by
  cases p
  cases q
  cases haddr
  cases hbits
  rfl

theorem masked_masked (p : Prefix) : p.masked.masked = p.masked :=
  ext_addr (by simp [Addr.masked_masked le_rfl p.addr]) (by simp)

/-- A prefix of the same family that is no longer and holds the address of the other one. -/
def covers (p q : Prefix) : Bool :=
  p.addr.is4 == q.addr.is4 && decide (p.bits ≤ q.bits) && p.contains q.addr

/-- What is covered is contained. -/
theorem subset_of_covers (h : p.covers q = true) : q.addrs ⊆ p.addrs := by
  simp only [covers, Bool.and_eq_true, beq_iff_eq, decide_eq_true_eq] at h
  obtain ⟨⟨hfamily, hbits⟩, hin⟩ := h
  intro a ha
  obtain ⟨hf, hz, hmask⟩ := contains_iff.mp ha
  obtain ⟨-, -, hq⟩ := contains_iff.mp hin
  refine contains_iff.mpr ⟨hf.trans hfamily.symm, hz, ?_⟩
  rw [← Addr.masked_masked hbits a, hmask, Addr.masked_masked hbits, hq]

/-- Masked prefixes that meet: **the shorter one covers the longer one and starts no later**. -/
theorem covers_of_meet (hp : p.masked = p) (hq : q.masked = q) (hbits : p.bits ≤ q.bits)
    (hpa : a ∈ p.addrs) (hqa : a ∈ q.addrs) :
    p.covers q = true ∧ p.addr.value ≤ q.addr.value := by
  obtain ⟨hpf, hz, hpm⟩ := contains_iff.mp hpa
  obtain ⟨hqf, -, hqm⟩ := contains_iff.mp hqa
  have hpaddr : p.addr.masked p.bits = p.addr := by rw [← addr_masked, hp]
  have hqaddr : q.addr.masked q.bits = q.addr := by rw [← addr_masked, hq]
  have hmask : q.addr.masked p.bits = p.addr.masked p.bits := by
    rw [← hqaddr, Addr.masked_masked hbits, ← Addr.masked_masked hbits, ← hqm,
      Addr.masked_masked hbits, hpm]
  constructor
  · simp only [covers, Bool.and_eq_true, beq_iff_eq, decide_eq_true_eq]
    exact ⟨⟨hpf.symm.trans hqf, hbits⟩, contains_iff.mpr ⟨hqf.symm.trans hpf, q.zone_eq, hmask⟩⟩
  · rw [← hpaddr, ← hmask]
    exact Addr.value_masked_le _ _

end Prefix

end Phragma.Go
