import Mathlib.Data.Nat.Bitwise

/-!
# Addresses a preview must not be fetched from

The image of a linked page is fetched from wherever the page says, so the addresses of internal networks
are refused. Which these are is told by the octets or segments of an address; they are the addresses of
some networks, where an address of version 4 is the same as the one of version 6 that it is mapped to.
-/

namespace Rellm.Previews

inductive IpAddr where
  | v4 (a b c d : UInt8)
  | v6 (s₀ s₁ s₂ s₃ s₄ s₅ s₆ s₇ : UInt16)
  deriving DecidableEq, Repr

/-- Loopback, private, link-local, broadcast, multicast, unspecified or CGNAT. -/
def isForbiddenV4 (a b c d : UInt8) : Bool :=
  a = 127 ||
    (a = 10 || (a = 172 && 16 ≤ b && b ≤ 31) || (a = 192 && b = 168)) ||
    (a = 169 && b = 254) ||
    (a = 255 && b = 255 && c = 255 && d = 255) ||
    (224 ≤ a && a ≤ 239) ||
    (a = 0 && b = 0 && c = 0 && d = 0) ||
    (a = 100 && 64 ≤ b && b < 128)

/-- Whether the segments are those of a mapped address of version 4. -/
def isMapped (s₀ s₁ s₂ s₃ s₄ s₅ : UInt16) : Bool :=
  s₀ = 0 && s₁ = 0 && s₂ = 0 && s₃ = 0 && s₄ = 0 && s₅ = 0xffff

/-- An address that a preview must never be fetched from. -/
def isForbiddenIp : IpAddr → Bool
  | .v4 a b c d => isForbiddenV4 a b c d
  | .v6 s₀ s₁ s₂ s₃ s₄ s₅ s₆ s₇ =>
    if isMapped s₀ s₁ s₂ s₃ s₄ s₅ then
      isForbiddenV4 (s₆ / 256).toUInt8 (s₆ % 256).toUInt8 (s₇ / 256).toUInt8 (s₇ % 256).toUInt8
    else
      (s₀ = 0 && s₁ = 0 && s₂ = 0 && s₃ = 0 && s₄ = 0 && s₅ = 0 && s₆ = 0 && s₇ = 1) ||
        (s₀ = 0 && s₁ = 0 && s₂ = 0 && s₃ = 0 && s₄ = 0 && s₅ = 0 && s₆ = 0 && s₇ = 0) ||
        s₀ &&& 0xff00 = 0xff00 || s₀ &&& 0xfe00 = 0xfc00 || s₀ &&& 0xffc0 = 0xfe80

/-! ## Networks -/

/-- The 128 bits of an address; one of version 4 has those of the address it is mapped to. -/
def IpAddr.bits : IpAddr → Nat
  | .v4 a b c d =>
    0xffff * 2 ^ 32 + a.toNat * 2 ^ 24 + b.toNat * 2 ^ 16 + c.toNat * 2 ^ 8 + d.toNat
  | .v6 s₀ s₁ s₂ s₃ s₄ s₅ s₆ s₇ =>
    s₀.toNat * 2 ^ 112 + s₁.toNat * 2 ^ 96 + s₂.toNat * 2 ^ 80 + s₃.toNat * 2 ^ 64 +
      s₄.toNat * 2 ^ 48 + s₅.toNat * 2 ^ 32 + s₆.toNat * 2 ^ 16 + s₇.toNat

/-- The addresses that begin with the bits of a base. -/
structure Network where
  base : Nat
  /-- The number of bits that are not fixed. -/
  free : Nat

def Network.Contains (network : Network) (ip : IpAddr) : Prop :=
  ip.bits / 2 ^ network.free = network.base

/-- Loopback, private, link-local, broadcast, multicast, unspecified and CGNAT networks of version 4. -/
def forbiddenV4Networks : List Network :=
  [⟨0xffff * 2 ^ 8 + 127, 24⟩, ⟨0xffff * 2 ^ 8 + 10, 24⟩, ⟨0xffff * 2 ^ 12 + 172 * 2 ^ 4 + 1, 20⟩,
    ⟨0xffff * 2 ^ 16 + 192 * 2 ^ 8 + 168, 16⟩, ⟨0xffff * 2 ^ 16 + 169 * 2 ^ 8 + 254, 16⟩,
    ⟨0xffff * 2 ^ 32 + 0xffffffff, 0⟩, ⟨0xffff * 2 ^ 4 + 14, 28⟩, ⟨0xffff * 2 ^ 32, 0⟩,
    ⟨0xffff * 2 ^ 10 + 100 * 2 ^ 2 + 1, 22⟩]

/-- Loopback, unspecified, multicast, unique-local and link-local networks of version 6. -/
def forbiddenV6Networks : List Network :=
  [⟨1, 0⟩, ⟨0, 0⟩, ⟨0xff, 120⟩, ⟨0x7e, 121⟩, ⟨0x3fa, 118⟩]

/-- A mask of leading bits compares a quotient. -/
theorem and_leading_eq_iff {free width : Nat} {x value : Nat} (hx : x < 2 ^ (free + width)) :
    x &&& (2 ^ width - 1) * 2 ^ free = value * 2 ^ free ↔ x / 2 ^ free = value := by
  have hpos : 0 < 2 ^ free := Nat.two_pow_pos free
  have hquotient : (x &&& (2 ^ width - 1) * 2 ^ free) / 2 ^ free = x / 2 ^ free := by
    rw [Nat.and_div_two_pow, Nat.mul_div_cancel _ hpos, Nat.and_two_pow_sub_one_eq_mod,
      Nat.mod_eq_of_lt]
    exact Nat.div_lt_of_lt_mul (by rwa [← Nat.pow_add])
  have hrest : (x &&& (2 ^ width - 1) * 2 ^ free) % 2 ^ free = 0 := by
    rw [Nat.and_mod_two_pow, Nat.mul_mod_left, Nat.and_zero]
  constructor
  · intro h
    rw [← hquotient, h, Nat.mul_div_cancel _ hpos]
  · intro h
    rw [← hquotient] at h
    rw [← Nat.div_add_mod' (x &&& (2 ^ width - 1) * 2 ^ free) (2 ^ free), hrest, h, Nat.add_zero]

section

variable {a b c d : UInt8} {s₀ s₁ s₂ s₃ s₄ s₅ s₆ s₇ : UInt16}

theorem segment_and_eq_iff {s : UInt16} (free width value : Nat) (hwidth : free + width = 16)
    (hvalue : value * 2 ^ free < 2 ^ 16) :
    s &&& UInt16.ofNat ((2 ^ width - 1) * 2 ^ free) = UInt16.ofNat (value * 2 ^ free) ↔
      s.toNat / 2 ^ free = value := by
  have hmask : (2 ^ width - 1) * 2 ^ free < 2 ^ 16 := by
    have hlt : 2 ^ width - 1 < 2 ^ width := Nat.sub_lt (Nat.two_pow_pos _) Nat.one_pos
    calc (2 ^ width - 1) * 2 ^ free < 2 ^ width * 2 ^ free :=
          Nat.mul_lt_mul_of_pos_right hlt (Nat.two_pow_pos _)
      _ = 2 ^ 16 := by rw [← Nat.pow_add, Nat.add_comm, hwidth]
  rw [← UInt16.toNat_inj, UInt16.toNat_and, UInt16.toNat_ofNat_of_lt' hmask,
    UInt16.toNat_ofNat_of_lt' hvalue, and_leading_eq_iff]
  rw [hwidth]
  exact s.toNat_lt

theorem isForbiddenV4_iff : isForbiddenV4 a b c d = true ↔
    ∃ network ∈ forbiddenV4Networks, network.Contains (.v4 a b c d) := by
  have ha := a.toNat_lt
  have hb := b.toNat_lt
  have hc := c.toNat_lt
  have hd := d.toNat_lt
  -- How an address begins, down to each of the lengths that occur.
  have h₂₈ : (IpAddr.v4 a b c d).bits / 2 ^ 28 = 0xffff * 2 ^ 4 + a.toNat / 2 ^ 4 := by
    rw [IpAddr.bits]; omega
  have h₂₄ : (IpAddr.v4 a b c d).bits / 2 ^ 24 = 0xffff * 2 ^ 8 + a.toNat := by
    rw [IpAddr.bits]; omega
  have h₂₂ : (IpAddr.v4 a b c d).bits / 2 ^ 22 =
      0xffff * 2 ^ 10 + a.toNat * 2 ^ 2 + b.toNat / 2 ^ 6 := by
    rw [IpAddr.bits]; omega
  have h₂₀ : (IpAddr.v4 a b c d).bits / 2 ^ 20 =
      0xffff * 2 ^ 12 + a.toNat * 2 ^ 4 + b.toNat / 2 ^ 4 := by
    rw [IpAddr.bits]; omega
  have h₁₆ : (IpAddr.v4 a b c d).bits / 2 ^ 16 = 0xffff * 2 ^ 16 + a.toNat * 2 ^ 8 + b.toNat := by
    rw [IpAddr.bits]; omega
  simp only [isForbiddenV4, Bool.or_eq_true, Bool.and_eq_true, decide_eq_true_eq,
    ← UInt8.toNat_inj, UInt8.le_iff_toNat_le, UInt8.lt_iff_toNat_lt, forbiddenV4Networks,
    List.mem_cons, List.not_mem_nil, or_false, exists_eq_or_imp, exists_eq_left, Network.Contains, h₂₈,
    h₂₄, h₂₂, h₂₀, h₁₆, UInt8.reduceToNat, or_assoc]
  refine or_congr (by omega) (or_congr (by omega) (or_congr (by omega) (or_congr (by omega)
    (or_congr (by omega) (or_congr ?_ (or_congr (by omega) (or_congr ?_ (by omega))))))))
  · rw [IpAddr.bits]
    omega
  · rw [IpAddr.bits]
    omega

/-- A mapped address has the bits of the address it is mapped to. -/
theorem bits_mapped (h : isMapped s₀ s₁ s₂ s₃ s₄ s₅ = true) :
    (IpAddr.v6 s₀ s₁ s₂ s₃ s₄ s₅ s₆ s₇).bits =
      (IpAddr.v4 (s₆ / 256).toUInt8 (s₆ % 256).toUInt8 (s₇ / 256).toUInt8
        (s₇ % 256).toUInt8).bits := by
  have h₆ := s₆.toNat_lt
  have h₇ := s₇.toNat_lt
  simp only [isMapped, Bool.and_eq_true, decide_eq_true_eq, ← UInt16.toNat_inj,
    UInt16.reduceToNat] at h
  simp only [IpAddr.bits, UInt16.toNat_toUInt8, UInt16.toNat_div, UInt16.toNat_mod, UInt16.reduceToNat]
  omega

/-- The others have other leading bits. -/
theorem isMapped_iff : isMapped s₀ s₁ s₂ s₃ s₄ s₅ = true ↔
    (IpAddr.v6 s₀ s₁ s₂ s₃ s₄ s₅ s₆ s₇).bits / 2 ^ 32 = 0xffff := by
  have h₀ := s₀.toNat_lt
  have h₁ := s₁.toNat_lt
  have h₂ := s₂.toNat_lt
  have h₃ := s₃.toNat_lt
  have h₄ := s₄.toNat_lt
  have h₅ := s₅.toNat_lt
  have h₆ := s₆.toNat_lt
  have h₇ := s₇.toNat_lt
  simp only [isMapped, Bool.and_eq_true, decide_eq_true_eq, ← UInt16.toNat_inj,
    UInt16.reduceToNat, IpAddr.bits]
  omega

theorem forbiddenV6_iff :
    ((s₀ = 0 && s₁ = 0 && s₂ = 0 && s₃ = 0 && s₄ = 0 && s₅ = 0 && s₆ = 0 && s₇ = 1) ||
      (s₀ = 0 && s₁ = 0 && s₂ = 0 && s₃ = 0 && s₄ = 0 && s₅ = 0 && s₆ = 0 && s₇ = 0) ||
      s₀ &&& 0xff00 = 0xff00 || s₀ &&& 0xfe00 = 0xfc00 || s₀ &&& 0xffc0 = 0xfe80) = true ↔
    ∃ network ∈ forbiddenV6Networks, network.Contains (.v6 s₀ s₁ s₂ s₃ s₄ s₅ s₆ s₇) := by
  have h₀ := s₀.toNat_lt
  have h₁ := s₁.toNat_lt
  have h₂ := s₂.toNat_lt
  have h₃ := s₃.toNat_lt
  have h₄ := s₄.toNat_lt
  have h₅ := s₅.toNat_lt
  have h₆ := s₆.toNat_lt
  have h₇ := s₇.toNat_lt
  have hmulticast : s₀ &&& 0xff00 = 0xff00 ↔ s₀.toNat / 2 ^ 8 = 0xff :=
    segment_and_eq_iff 8 8 0xff rfl (by decide)
  have hlocal : s₀ &&& 0xfe00 = 0xfc00 ↔ s₀.toNat / 2 ^ 9 = 0x7e :=
    segment_and_eq_iff 9 7 0x7e rfl (by decide)
  have hlink : s₀ &&& 0xffc0 = 0xfe80 ↔ s₀.toNat / 2 ^ 6 = 0x3fa :=
    segment_and_eq_iff 6 10 0x3fa rfl (by decide)
  simp only [Bool.or_eq_true, Bool.and_eq_true, decide_eq_true_eq, hmulticast, hlocal, hlink,
    ← UInt16.toNat_inj, UInt16.reduceToNat, forbiddenV6Networks, List.mem_cons, List.not_mem_nil,
    or_false, exists_eq_or_imp, exists_eq_left, Network.Contains, IpAddr.bits, or_assoc]
  exact or_congr (by omega) (or_congr (by omega) (or_congr (by omega) (or_congr (by omega)
    (by omega))))

end

/-- An address is forbidden exactly if it is one of a forbidden network. -/
theorem isForbiddenIp_iff {ip : IpAddr} : isForbiddenIp ip = true ↔
    ∃ network ∈ forbiddenV4Networks ++ forbiddenV6Networks, network.Contains ip := by
  -- Networks of version 4 have mapped addresses only, and the others none.
  have hmapped : ∀ network ∈ forbiddenV4Networks, network.Contains ip → ip.bits / 2 ^ 32 = 0xffff := by
    simp only [forbiddenV4Networks, List.forall_mem_cons, Network.Contains]
    refine ⟨?_, ?_, ?_, ?_, ?_, ?_, ?_, ?_, ?_, fun _ h => absurd h List.not_mem_nil⟩ <;> omega
  have hother : ip.bits / 2 ^ 32 = 0xffff → ¬ ∃ network ∈ forbiddenV6Networks, network.Contains ip := by
    simp only [forbiddenV6Networks, List.mem_cons, List.not_mem_nil, or_false, exists_eq_or_imp,
      exists_eq_left, Network.Contains]
    omega
  simp only [List.mem_append, or_and_right, exists_or]
  cases ip with
  | v4 a b c d =>
    have hbits : (IpAddr.v4 a b c d).bits / 2 ^ 32 = 0xffff := by
      have ha := a.toNat_lt
      have hb := b.toNat_lt
      have hc := c.toNat_lt
      have hd := d.toNat_lt
      rw [IpAddr.bits]
      omega
    rw [or_iff_left (hother hbits)]
    exact isForbiddenV4_iff
  | v6 s₀ s₁ s₂ s₃ s₄ s₅ s₆ s₇ =>
    rw [isForbiddenIp]
    by_cases hv4 : isMapped s₀ s₁ s₂ s₃ s₄ s₅ = true
    · rw [if_pos hv4, or_iff_left (hother (isMapped_iff.mp hv4)), isForbiddenV4_iff]
      simp only [Network.Contains, bits_mapped hv4]
    · rw [if_neg hv4, or_iff_right, forbiddenV6_iff]
      rintro ⟨network, hnetwork, hcontains⟩
      exact hv4 (isMapped_iff.mpr (hmapped network hnetwork hcontains))

end Rellm.Previews
