import Mathlib.Data.List.Basic

/-!
# Percent encoding

Bytes are written as text: the plain ones as the ASCII characters that they are, every other one as a
percent sign and two hex digits.

A component of an address may hold bytes that are written with percent signs. The bytes of a character
beyond ASCII follow each other, the first of them telling how many there are. A separator that is no hex
digit splits a component before it is decoded as well as afterwards.
-/

namespace Rellm.Foundation

/-! ## Bytes -/

/-- The digit of a number below sixteen, in upper case. -/
def percentDigit (n : Nat) : Char := if n < 10 then Char.ofNat (48 + n) else Char.ofNat (55 + n)

def percentValue (c : Char) : Option Nat :=
  if c.isDigit then some (c.toNat - 48)
  else if 65 ≤ c.toNat ∧ c.toNat ≤ 70 then some (c.toNat - 55)
  else if 97 ≤ c.toNat ∧ c.toNat ≤ 102 then some (c.toNat - 87)
  else none

def percentEncodeByte (plain : UInt8 → Bool) (byte : UInt8) : List Char :=
  if plain byte then [Char.ofNat byte.toNat]
  else ['%', percentDigit (byte.toNat / 16), percentDigit (byte.toNat % 16)]

def percentEncode (plain : UInt8 → Bool) (bytes : List UInt8) : List Char :=
  bytes.flatMap (percentEncodeByte plain)

def percentDecode : List Char → Option (List UInt8)
  | [] => some []
  | '%' :: high :: low :: rest =>
    match percentValue high, percentValue low with
    | some high, some low => (percentDecode rest).map (UInt8.ofNat (16 * high + low) :: ·)
    | _, _ => none
  | c :: rest =>
    if c = '%' ∨ 128 ≤ c.toNat then none
    else (percentDecode rest).map (UInt8.ofNat c.toNat :: ·)

theorem percentValue_percentDigit {n : Nat} (h : n < 16) : percentValue (percentDigit n) = some n := by
  have hall : ∀ n : Fin 16, percentValue (percentDigit n) = some n.val := by decide +kernel
  exact hall ⟨n, h⟩

theorem toNat_ofNat_of_lt {n : Nat} (h : n < 128) : (Char.ofNat n).toNat = n := by
  have hall : ∀ n : Fin 128, (Char.ofNat n).toNat = n.val := by decide +kernel
  exact hall ⟨n, h⟩

/-- Plain bytes are ASCII characters other than the percent sign. -/
def PlainAscii (plain : UInt8 → Bool) : Prop :=
  ∀ byte, plain byte = true → byte.toNat < 128 ∧ byte.toNat ≠ 37

section

variable {plain : UInt8 → Bool}

theorem percentDecode_encodeByte (h : PlainAscii plain) (byte : UInt8) (rest : List Char) :
    percentDecode (percentEncodeByte plain byte ++ rest) =
      (percentDecode rest).map (byte :: ·) := by
  unfold percentEncodeByte
  split
  · rename_i hplain
    obtain ⟨hlt, hne⟩ := h byte hplain
    have hchar : (Char.ofNat byte.toNat).toNat = byte.toNat := toNat_ofNat_of_lt hlt
    have hpercent : Char.ofNat byte.toNat ≠ '%' := by
      intro heq
      rw [heq] at hchar
      exact hne hchar.symm
    rw [List.singleton_append, percentDecode, if_neg, hchar, UInt8.ofNat_toNat]
    · rintro (heq | hge)
      · exact hpercent heq
      · omega
    · intro _ _ _ heq
      exact absurd heq hpercent
  · have hbyte := byte.toNat_lt
    have hhigh : byte.toNat / 16 < 16 := by omega
    have hlow : byte.toNat % 16 < 16 := by omega
    have hnumber : 16 * (byte.toNat / 16) + byte.toNat % 16 = byte.toNat := Nat.div_add_mod _ 16
    simp only [List.cons_append, List.nil_append, percentDecode, percentValue_percentDigit hhigh,
      percentValue_percentDigit hlow, hnumber, UInt8.ofNat_toNat]

/-- What is encoded decodes to the bytes. -/
theorem percentDecode_percentEncode (h : PlainAscii plain) (bytes : List UInt8) :
    percentDecode (percentEncode plain bytes) = some bytes := by
  induction bytes with
  | nil => rfl
  | cons byte bytes ih =>
    unfold percentEncode at ih ⊢
    rw [List.flatMap_cons, percentDecode_encodeByte h, ih, Option.map_some]

/-- The characters of encoded bytes are the plain ones, percent signs and hex digits. -/
theorem forall_mem_percentEncode {p : Char → Prop}
    (hplain : ∀ byte, plain byte = true → p (Char.ofNat byte.toNat)) (hpercent : p '%')
    (hdigit : ∀ n < 16, p (percentDigit n)) (bytes : List UInt8) :
    ∀ c ∈ percentEncode plain bytes, p c := by
  intro c hc
  obtain ⟨byte, _, hc⟩ := List.mem_flatMap.mp hc
  have hbyte := byte.toNat_lt
  unfold percentEncodeByte at hc
  split at hc
  · rename_i h
    rw [List.mem_singleton.mp hc]
    exact hplain byte h
  · simp only [List.mem_cons, List.not_mem_nil, or_false] at hc
    rcases hc with rfl | rfl | rfl
    · exact hpercent
    · exact hdigit _ (by omega)
    · exact hdigit _ (by omega)

end

/-! ## Components of addresses -/

/-- A character of which bytes are still to come: how many after the next one, the least number that
takes so many bytes, and the bits so far. -/
structure Pending where
  left : Nat
  least : Nat
  value : Nat

/-- What the first byte of a character beyond ASCII leaves pending. -/
def Pending.lead (byte : Nat) : Option Pending :=
  if 192 ≤ byte ∧ byte < 224 then some ⟨0, 128, byte - 192⟩
  else if 224 ≤ byte ∧ byte < 240 then some ⟨1, 2048, byte - 224⟩
  else if 240 ≤ byte ∧ byte < 248 then some ⟨2, 65536, byte - 240⟩
  else none

/-- The character that a byte completes, if any, and what is pending after it. -/
def takeByte : Option Pending → Nat → Option (Option Char × Option Pending)
  | none, byte =>
    if byte < 128 then some (some (Char.ofNat byte), none)
    else (Pending.lead byte).map fun pending => (none, some pending)
  | some pending, byte =>
    if byte < 128 ∨ 192 ≤ byte then none
    else
      let value := 64 * pending.value + (byte - 128)
      match pending.left with
      | left + 1 => some (none, some ⟨left, pending.least, value⟩)
      | 0 =>
        if pending.least ≤ value ∧ value.isValidChar then some (some (Char.ofNat value), none)
        else none

/-- The rest of a component after what is pending. -/
def decodeFrom : Option Pending → List Char → Option (List Char)
  | pending, '%' :: high :: low :: rest =>
    match percentValue high, percentValue low with
    | some high, some low =>
      (takeByte pending (16 * high + low)).bind fun taken =>
        (decodeFrom taken.2 rest).map (taken.1.toList ++ ·)
    | _, _ => none
  | none, c :: rest => if c = '%' then none else (decodeFrom none rest).map (c :: ·)
  | none, [] => some []
  | some _, _ => none

/-- A component without percent signs for bytes. -/
def decodeComponent (component : List Char) : Option (List Char) := decodeFrom none component

section

variable {c separator : Char} {pending : Option Pending} {rest before after decoded : List Char}

theorem decodeFrom_cons (h : c ≠ '%') (rest : List Char) :
    decodeFrom none (c :: rest) = (decodeFrom none rest).map (c :: ·) := by
  rw [decodeFrom, if_neg h]
  rintro _ _ _ rfl
  exact absurd rfl h

theorem decodeFrom_escape {high low : Char} {h l : Nat} (hhigh : percentValue high = some h)
    (hlow : percentValue low = some l) :
    decodeFrom pending ('%' :: high :: low :: rest) =
      (takeByte pending (16 * h + l)).bind fun taken =>
        (decodeFrom taken.2 rest).map (taken.1.toList ++ ·) := by
  rw [decodeFrom, hhigh, hlow]

/-- A percent sign that no two hex digits follow cannot be decoded. -/
theorem decodeFrom_percent_eq_none (h : ∀ high low tail, rest = high :: low :: tail →
    percentValue high = none ∨ percentValue low = none) :
    decodeFrom pending ('%' :: rest) = none := by
  rcases rest with _ | ⟨high, _ | ⟨low, tail⟩⟩
  · cases pending <;> rfl
  · cases pending <;> simp [decodeFrom]
  · rw [decodeFrom]
    obtain hhigh | hlow := h high low tail rfl
    · rw [hhigh]
    · rw [hlow]
      cases percentValue high <;> rfl

/-- A character that is pending is not completed by another one. -/
theorem decodeFrom_pending_eq_none {pending : Pending} (h : c ≠ '%') (rest : List Char) :
    decodeFrom (some pending) (c :: rest) = none := by
  rw [decodeFrom]
  rintro _ _ _ heq
  exact absurd (List.cons.inj heq).1 h

/-- A separator is no percent sign and no hex digit. -/
structure Separates (separator : Char) : Prop where
  noPercent : separator ≠ '%'
  noDigit : percentValue separator = none

theorem Separates.percent_eq_none (h : Separates separator)
    (hshort : ∀ high low tail, before = high :: low :: tail → False) (after : List Char) :
    decodeFrom pending ('%' :: (before ++ separator :: after)) = none := by
  refine decodeFrom_percent_eq_none fun high low tail heq => ?_
  rcases before with _ | ⟨c, _ | ⟨d, before⟩⟩
  · obtain ⟨rfl, _⟩ := List.cons.inj heq
    exact .inl h.noDigit
  · obtain ⟨rfl, _⟩ := List.cons.inj (List.cons.inj heq).2
    exact .inr h.noDigit
  · exact absurd rfl (hshort c d before)

/-- What stands before a separator and what stands after it are decoded on their own. -/
theorem decodeFrom_append_cons (h : Separates separator) (before after : List Char) :
    decodeFrom pending (before ++ separator :: after) =
      (decodeFrom pending before).bind fun first =>
        (decodeFrom none after).map fun last => first ++ separator :: last := by
  fun_induction decodeFrom pending before with
  | case1 pending high low rest h l hlow hhigh ih =>
    rw [List.cons_append, List.cons_append, List.cons_append, decodeFrom_escape hhigh hlow]
    cases htaken : takeByte pending (16 * h + l) with
    | none => rfl
    | some taken =>
      rw [Option.bind_some, Option.bind_some, ih taken]
      cases decodeFrom taken.2 rest with
      | none => rfl
      | some first =>
        cases decodeFrom none after with
        | none => rfl
        | some last => simp
  | case2 pending high low rest hnot =>
    refine decodeFrom_percent_eq_none fun high' low' tail heq => ?_
    simp only [List.append_eq, List.cons_append, List.cons.injEq] at heq
    obtain ⟨rfl, rfl, _⟩ := heq
    cases hhigh : percentValue high with
    | none => exact .inl rfl
    | some h =>
      cases hlow : percentValue low with
      | none => exact .inr rfl
      | some l => exact absurd hlow (hnot h l hhigh)
  | case3 rest hshort =>
    exact h.percent_eq_none (fun high low tail heq => hshort high low tail rfl heq) after
  | case4 c rest hshort hne ih =>
    rw [List.cons_append, decodeFrom_cons hne, ih]
    cases decodeFrom none rest with
    | none => rfl
    | some first => cases decodeFrom none after <;> rfl
  | case5 =>
    rw [List.nil_append, decodeFrom_cons h.noPercent]
    rfl
  | case6 before pending hshort =>
    rcases before with _ | ⟨c, rest⟩
    · exact decodeFrom_pending_eq_none h.noPercent after
    · by_cases hc : c = '%'
      · subst hc
        exact h.percent_eq_none (fun high low tail heq => hshort high low tail (by rw [heq])) after
      · exact decodeFrom_pending_eq_none hc _

/-- A component without percent signs stays as it is. -/
theorem decodeComponent_of_noPercent (h : '%' ∉ rest) : decodeComponent rest = some rest := by
  induction rest with
  | nil => rfl
  | cons c rest ih =>
    rw [List.mem_cons, not_or] at h
    rw [decodeComponent, decodeFrom_cons (Ne.symm h.1), ← decodeComponent, ih h.2]
    rfl

theorem decodeComponent_append_cons (h : Separates separator) (before after : List Char) :
    decodeComponent (before ++ separator :: after) =
      (decodeComponent before).bind fun first =>
        (decodeComponent after).map fun last => first ++ separator :: last :=
  decodeFrom_append_cons h before after

/-- Plain characters at the start of a component stay as they are. -/
theorem decodeComponent_append (h : '%' ∉ before) (after : List Char) :
    decodeComponent (before ++ after) = (decodeComponent after).map (before ++ ·) := by
  induction before with
  | nil =>
    rw [List.nil_append]
    cases decodeComponent after <;> rfl
  | cons c before ih =>
    rw [List.mem_cons, not_or] at h
    rw [List.cons_append, decodeComponent, decodeFrom_cons (Ne.symm h.1), ← decodeComponent, ih h.2]
    cases decodeComponent after <;> rfl

/-- A character in ASCII may be written as its byte. -/
theorem decodeComponent_escape {high low : Char} {h l : Nat} (hhigh : percentValue high = some h)
    (hlow : percentValue low = some l) (hlt : 16 * h + l < 128) (rest : List Char) :
    decodeComponent ('%' :: high :: low :: rest) =
      (decodeComponent rest).map (Char.ofNat (16 * h + l) :: ·) := by
  rw [decodeComponent, decodeFrom_escape hhigh hlow, takeByte, if_pos hlt]
  rfl

/-- A byte that completes no character leaves one pending. -/
theorem isSome_of_takeByte {byte : Nat} {next : Option Pending}
    (h : takeByte pending byte = some (none, next)) : next.isSome = true := by
  cases pending with
  | none =>
    rw [takeByte] at h
    split at h
    · cases h
    · obtain ⟨pending, _, heq⟩ := Option.map_eq_some_iff.mp h
      cases heq
      rfl
  | some pending =>
    rw [takeByte] at h
    split at h
    · cases h
    · dsimp only at h
      split at h
      · cases h
        rfl
      · split at h <;> cases h

/-- What is decoded is not empty, unless the component is. -/
theorem decodeFrom_ne_nil (h : decodeFrom pending rest = some decoded)
    (hsome : rest ≠ [] ∨ pending.isSome = true) : decoded ≠ [] := by
  fun_induction decodeFrom pending rest generalizing decoded with
  | case1 pending high low rest h l hlow hhigh ih =>
    obtain ⟨taken, htaken, hrest⟩ := Option.bind_eq_some_iff.mp h
    obtain ⟨last, hlast, rfl⟩ := Option.map_eq_some_iff.mp hrest
    cases hfirst : taken.1 with
    | some c => exact List.cons_ne_nil _ _
    | none =>
      rw [show taken = (none, taken.2) by rw [← hfirst]] at htaken
      exact ih taken hlast (.inr (isSome_of_takeByte htaken))
  | case2 => cases h
  | case3 => cases h
  | case4 c rest hshort hne ih =>
    obtain ⟨last, _, rfl⟩ := Option.map_eq_some_iff.mp h
    exact List.cons_ne_nil _ _
  | case5 => simp at hsome
  | case6 => cases h

end

end Rellm.Foundation
