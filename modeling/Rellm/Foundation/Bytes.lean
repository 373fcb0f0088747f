import Mathlib.Data.List.TakeWhile
import Mathlib.Data.Nat.Digits.Lemmas
import Mathlib.Tactic.Ring

/-!
# Bytes and numerals

The little-endian bytes of a fixed-width integer, and numerals of one base rewritten in
another with their leading zeros kept.
-/

namespace Rellm.Foundation

/-- The lowest bytes of a number, the least first. -/
def leBytes : Nat → Nat → List UInt8
  | 0, _ => []
  | width + 1, n => UInt8.ofNat n :: leBytes width (n / 256)

/-- The number with some bytes, the least first. -/
def ofLeBytes : List UInt8 → Nat
  | [] => 0
  | byte :: bytes => byte.toNat + 256 * ofLeBytes bytes

@[simp] theorem length_leBytes (width n : Nat) : (leBytes width n).length = width := by
  induction width generalizing n with
  | zero => rfl
  | succ width ih => rw [leBytes, List.length_cons, ih]

theorem ofLeBytes_leBytes (width n : Nat) : ofLeBytes (leBytes width n) = n % 256 ^ width := by
  induction width generalizing n with
  | zero => rw [leBytes, ofLeBytes, pow_zero, Nat.mod_one]
  | succ width ih =>
    have hbyte : (UInt8.ofNat n).toNat = n % 256 := UInt8.toNat_ofNat'
    rw [leBytes, ofLeBytes, ih, hbyte, pow_succ', Nat.mod_mul]

/-- A number that fits is read back. -/
theorem ofLeBytes_leBytes_of_lt {width n : Nat} (h : n < 256 ^ width) :
    ofLeBytes (leBytes width n) = n := by
  rw [ofLeBytes_leBytes, Nat.mod_eq_of_lt h]

/-- The zeros a numeral starts with. -/
def leadingZeros (numeral : List Nat) : List Nat := numeral.takeWhile (· = 0)

/-- A numeral of one base in another, the leading zeros kept. -/
def rebase (base base' : Nat) (numeral : List Nat) : List Nat :=
  leadingZeros numeral ++ (Nat.digits base' (Nat.ofDigits base numeral.reverse)).reverse

section

variable {base : Nat}

theorem eq_zero_of_mem_leadingZeros {numeral : List Nat} {digit : Nat}
    (h : digit ∈ leadingZeros numeral) : digit = 0 := by
  unfold leadingZeros at h
  have hzero := List.mem_takeWhile_imp h
  simpa using hzero

theorem leadingZeros_eq_replicate (numeral : List Nat) :
    leadingZeros numeral = List.replicate (leadingZeros numeral).length 0 := by
  rw [List.eq_replicate_iff]
  exact ⟨rfl, fun _ hmem => eq_zero_of_mem_leadingZeros hmem⟩

/-- Leading zeros do not change the number. -/
theorem ofDigits_reverse (numeral : List Nat) :
    Nat.ofDigits base numeral.reverse =
      Nat.ofDigits base (numeral.dropWhile (· = 0)).reverse := by
  conv_lhs => rw [← List.takeWhile_append_dropWhile (p := (· = 0)) (l := numeral)]
  rw [List.reverse_append, Nat.ofDigits_append]
  have hzeros : (numeral.takeWhile (· = 0)).reverse =
      List.replicate (leadingZeros numeral).length 0 := by
    rw [show numeral.takeWhile (· = 0) = _ from leadingZeros_eq_replicate numeral,
      List.reverse_replicate]
  rw [hzeros, Nat.ofDigits_replicate_zero, mul_zero, add_zero]

/-- The digits of a number without leading zeros. -/
theorem digits_ofDigits_reverse (hbase : 1 < base) {numeral : List Nat}
    (hdigits : ∀ digit ∈ numeral, digit < base) :
    Nat.digits base (Nat.ofDigits base numeral.reverse) =
      (numeral.dropWhile (· = 0)).reverse := by
  rw [ofDigits_reverse]
  apply Nat.digits_ofDigits base hbase
  · intro digit hmem
    rw [List.mem_reverse] at hmem
    exact hdigits digit ((List.dropWhile_sublist _).mem hmem)
  · intro hne
    rw [List.getLast_reverse]
    have hhead := List.head_dropWhile_not (fun digit => decide (digit = 0))
      (List.reverse_eq_nil_iff.not.mp hne)
    simpa using hhead

/-- A numeral is found again in its own base. -/
theorem rebase_rebase (base' : Nat) (hbase : 1 < base) {numeral : List Nat}
    (hdigits : ∀ digit ∈ numeral, digit < base) :
    rebase base' base (rebase base base' numeral) = numeral := by
  set number := Nat.ofDigits base numeral.reverse with hnumber
  have hhead : leadingZeros (Nat.digits base' number).reverse = [] := by
    unfold leadingZeros
    cases hrev : (Nat.digits base' number).reverse with
    | nil => rfl
    | cons digit digits =>
      have hne : Nat.digits base' number ≠ [] := by
        intro hnil
        rw [hnil] at hrev
        cases hrev
      have hlast := Nat.getLast_digit_ne_zero base' (Nat.digits_ne_nil_iff_ne_zero.mp hne)
      rw [List.takeWhile_cons_of_neg]
      rw [decide_eq_true_eq]
      intro hzero
      apply hlast
      rw [← List.head_reverse (by simpa using hne)]
      simp only [hrev, List.head_cons, hzero]
  have hzeros : leadingZeros (rebase base base' numeral) = leadingZeros numeral := by
    unfold rebase
    rw [leadingZeros, List.takeWhile_append_of_pos]
    · rw [← hnumber]
      change leadingZeros numeral ++ leadingZeros (Nat.digits base' number).reverse = _
      rw [hhead, List.append_nil]
    · intro digit hmem
      exact decide_eq_true (eq_zero_of_mem_leadingZeros hmem)
  have hvalue : Nat.ofDigits base' (rebase base base' numeral).reverse = number := by
    unfold rebase
    rw [List.reverse_append, List.reverse_reverse, Nat.ofDigits_append,
      leadingZeros_eq_replicate, List.reverse_replicate, Nat.ofDigits_replicate_zero, mul_zero,
      add_zero, Nat.ofDigits_digits]
  rw [rebase, hzeros, hvalue, hnumber, digits_ofDigits_reverse hbase hdigits,
    List.reverse_reverse]
  exact List.takeWhile_append_dropWhile

/-- The digits of a numeral that is rewritten are those of its base. -/
theorem lt_of_mem_rebase {base' : Nat} (hbase' : 1 < base') {numeral : List Nat} {digit : Nat}
    (h : digit ∈ rebase base base' numeral) : digit < base' := by
  rcases List.mem_append.mp h with hzero | hdigit
  · rw [eq_zero_of_mem_leadingZeros hzero]
    omega
  · exact Nat.digits_lt_base hbase' (List.mem_reverse.mp hdigit)

end

/-- A text form of byte strings that is read back as they were. -/
structure ByteCodec where
  encode : List UInt8 → String
  decode : String → Option (List UInt8)
  decode_encode : ∀ bytes, decode (encode bytes) = some bytes

/-- Letters and digits that are not taken for each other. -/
def base58Alphabet : List Char :=
  "123456789ABCDEFGHJKLMNPQRSTUVWXYZabcdefghijkmnopqrstuvwxyz".toList

def base58Char (digit : Nat) : Char := base58Alphabet.getD digit '1'

def base58Digit (c : Char) : Option Nat := base58Alphabet.findIdx? (· = c)

theorem base58Digit_char {digit : Nat} (h : digit < 58) :
    base58Digit (base58Char digit) = some digit := by
  revert digit
  decide +kernel

def base58Encode (bytes : List UInt8) : String :=
  String.ofList ((rebase 256 58 (bytes.map UInt8.toNat)).map base58Char)

def base58Decode (text : String) : Option (List UInt8) := do
  let numeral ← text.toList.mapM base58Digit
  return (rebase 58 256 numeral).map UInt8.ofNat

/-- The characters of a numeral are read back. -/
theorem mapM_base58Digit {numeral : List Nat} (h : ∀ digit ∈ numeral, digit < 58) :
    (numeral.map base58Char).mapM base58Digit = some numeral := by
  induction numeral with
  | nil => rfl
  | cons digit numeral ih =>
    rw [List.map_cons, List.mapM_cons, base58Digit_char (h digit List.mem_cons_self),
      ih fun other hmem => h other (List.mem_cons_of_mem _ hmem)]
    rfl

theorem base58Decode_encode (bytes : List UInt8) :
    base58Decode (base58Encode bytes) = some bytes := by
  have hread : ((rebase 256 58 (bytes.map UInt8.toNat)).map base58Char).mapM base58Digit =
      some (rebase 256 58 (bytes.map UInt8.toNat)) :=
    mapM_base58Digit fun _ hmem => lt_of_mem_rebase (by omega) hmem
  have hbytes : ∀ digit ∈ bytes.map UInt8.toNat, digit < 256 := by
    intro digit hmem
    obtain ⟨byte, _, rfl⟩ := List.mem_map.mp hmem
    exact byte.toNat_lt
  unfold base58Decode base58Encode
  rw [String.toList_ofList, hread, Option.bind_eq_bind, Option.bind_some,
    rebase_rebase 58 (by omega) hbytes, List.map_map]
  have hround : UInt8.ofNat ∘ UInt8.toNat = id := by
    funext byte
    exact UInt8.ofNat_toNat
  rw [hround, List.map_id]
  rfl

/-- The text form of ids. -/
def base58 : ByteCodec := ⟨base58Encode, base58Decode, base58Decode_encode⟩

end Rellm.Foundation
