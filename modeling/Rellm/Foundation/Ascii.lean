import Mathlib.Data.List.Basic

/-!
# Characters of ASCII

What holds of all characters of ASCII is decided by going through them. Letters, digits and lower case
are those of ASCII.
-/

namespace Rellm.Foundation

variable {c : Char}

theorem forall_ascii (p : Char → Prop) (h : ∀ n : Fin 128, p (Char.ofNat n))
    (hc : c.toNat < 128) : p c := by
  have hascii := h ⟨c.toNat, hc⟩
  rwa [Char.ofNat_toNat] at hascii

theorem lt_of_isAlphanum (h : c.isAlphanum = true) : c.toNat < 128 := by
  rcases Bool.or_eq_true_iff.mp h with hletter | hdigit
  · rcases Bool.or_eq_true_iff.mp hletter with hupper | hlower
    · have hle : c.val ≤ 'Z'.val := (of_decide_eq_true hupper).2
      exact Nat.lt_of_le_of_lt (UInt32.le_iff_toNat_le.mp hle) (by decide)
    · have hle : c.val ≤ 'z'.val := of_decide_eq_true (Bool.and_eq_true_iff.mp hlower).2
      exact Nat.lt_of_le_of_lt (UInt32.le_iff_toNat_le.mp hle) (by decide)
  · have hle : c.val ≤ '9'.val := of_decide_eq_true (Bool.and_eq_true_iff.mp hdigit).2
    exact Nat.lt_of_le_of_lt (UInt32.le_iff_toNat_le.mp hle) (by decide)

/-- Lower case leaves characters beyond ASCII alone. -/
theorem toLower_of_ge (h : 128 ≤ c.toNat) : c.toLower = c := by
  unfold Char.toLower
  refine dif_neg fun hupper => ?_
  have hle : c.toNat ≤ 'Z'.val.toNat := UInt32.le_iff_toNat_le.mp hupper.2
  exact absurd (Nat.le_trans h hle) (by decide)

theorem isAlphanum_toLower (c : Char) : c.toLower.isAlphanum = c.isAlphanum := by
  by_cases h : c.toNat < 128
  · exact forall_ascii (fun c => c.toLower.isAlphanum = c.isAlphanum) (by decide +kernel) h
  · rw [toLower_of_ge (by omega)]

theorem isDigit_toLower (c : Char) : c.toLower.isDigit = c.isDigit := by
  by_cases h : c.toNat < 128
  · exact forall_ascii (fun c => c.toLower.isDigit = c.isDigit) (by decide +kernel) h
  · rw [toLower_of_ge (by omega)]

/-- Lower case makes no character that is no letter. -/
theorem toLower_eq_iff {d : Char} (hd : d.isAlpha = false) : c.toLower = d ↔ c = d := by
  by_cases h : c.toNat < 128
  · have hletters : c.toLower ≠ c → c.isAlpha = true ∧ c.toLower.isAlpha = true :=
      forall_ascii (fun c => c.toLower ≠ c → c.isAlpha = true ∧ c.toLower.isAlpha = true)
        (by decide +kernel) h
    by_cases hsame : c.toLower = c
    · rw [hsame]
    · obtain ⟨hletter, hletter'⟩ := hletters hsame
      constructor
      · rintro rfl
        rw [hd] at hletter'
        cases hletter'
      · rintro rfl
        rw [hd] at hletter
        cases hletter
  · rw [toLower_of_ge (by omega)]

end Rellm.Foundation
