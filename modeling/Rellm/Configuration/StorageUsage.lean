import Mathlib.Algebra.GroupWithZero.Nat
import Mathlib.Algebra.Ring.Int.Defs
import Rellm.Configuration.Marshaling

/-!
# Media usage accounting

The usage totals live in the media settings of the active configuration row and
are rewritten there in place. Every writer starts from the normalized settings,
so a stored blob without a user allocation loses the usage it held.
-/

namespace Rellm

/-- Rewrites the media settings of a row in place, from their normalized form. -/
def updateMediaSettings (config : ServerConfigurationRow) (f : MediaSettings → MediaSettings) :
    ServerConfigurationRow :=
  { config with
    mediaSettings := some (.toValue (f (normalizedMediaSettings config.mediaSettings))) }

/-- A usage after a change by some bytes, in wrapping `i64` arithmetic, never negative. -/
def adjustedUsageBytes (usageBytes : UInt64) (deltaBytes : Int64) : UInt64 :=
  (max (usageBytes.toInt64 + deltaBytes) 0).toUInt64

/-- Stores the usage summed over all media. -/
def recomputeServerMediaUsageBytes (total : Int64) (now : Timestamp)
    (config : ServerConfigurationRow) : ServerConfigurationRow :=
  updateMediaSettings config fun settings => { settings with
    serverMediaUsageBytes := (max total 0).toUInt64
    serverMediaUsageCalculatedAt := some now }

/-- Adjusts the stored usage; a change by zero bytes writes nothing. -/
def adjustServerMediaUsageBytes (deltaBytes : Int64) (now : Timestamp)
    (config : ServerConfigurationRow) : ServerConfigurationRow :=
  if deltaBytes = 0 then config
  else updateMediaSettings config fun settings => { settings with
    serverMediaUsageBytes := adjustedUsageBytes settings.serverMediaUsageBytes deltaBytes
    serverMediaUsageCalculatedAt := some now }

/-- Stores the total size of the objects in storage. -/
def recomputeServerObjectStorageUsageBytes (total : UInt64) (now : Timestamp)
    (config : ServerConfigurationRow) : ServerConfigurationRow :=
  updateMediaSettings config fun settings => { settings with
    serverObjectStorageUsageBytes := total
    serverObjectStorageUsageCalculatedAt := some now }

/-- One accounting write. -/
inductive UsageUpdate where
  | recompute (total : Int64)
  | adjust (deltaBytes : Int64)
  | objectStorage (total : UInt64)
  deriving DecidableEq, Repr

namespace UsageUpdate

/-- The row after a write. -/
def apply (update : UsageUpdate) (now : Timestamp) (config : ServerConfigurationRow) :
    ServerConfigurationRow :=
  match update with
  | recompute total => recomputeServerMediaUsageBytes total now config
  | adjust deltaBytes => adjustServerMediaUsageBytes deltaBytes now config
  | objectStorage total => recomputeServerObjectStorageUsageBytes total now config

/-- The usage a write is meant to leave, given the usage before it. -/
def account : UsageUpdate → UInt64 → UInt64
  | recompute total, _ => (max total 0).toUInt64
  | adjust deltaBytes, usageBytes =>
    if deltaBytes = 0 then usageBytes else adjustedUsageBytes usageBytes deltaBytes
  | objectStorage _, usageBytes => usageBytes

end UsageUpdate

/-- The usage a row stores. -/
def storedUsageBytes (config : ServerConfigurationRow) : UInt64 :=
  config.storedMediaSettings.serverMediaUsageBytes

/-- The stored settings have no user allocation, so writers take them for stale. -/
def StaleMediaSettings (config : ServerConfigurationRow) : Prop :=
  config.storedMediaSettings.defaultUserMediaAllocationBytes = 0

/-- The write keeps the stored usage: it replaces it, or the settings are not stale,
or the usage is zero, or the change brings it to zero anyway. -/
def KeepsUsage (config : ServerConfigurationRow) : UsageUpdate → Prop
  | .recompute _ => True
  | .adjust deltaBytes => deltaBytes = 0 ∨ ¬ StaleMediaSettings config ∨
      storedUsageBytes config = 0 ∨
      (deltaBytes ≤ 0 ∧ (storedUsageBytes config).toInt64 + deltaBytes ≤ 0)
  | .objectStorage _ => ¬ StaleMediaSettings config ∨ storedUsageBytes config = 0

@[simp] theorem storedUsageBytes_updateMediaSettings (config : ServerConfigurationRow)
    (f : MediaSettings → MediaSettings) :
    storedUsageBytes (updateMediaSettings config f) =
      (f (normalizedMediaSettings config.mediaSettings)).serverMediaUsageBytes := rfl

/-- A usage write leaves the conductor state alone. -/
@[simp] theorem apply_conductorState (update : UsageUpdate) (now : Timestamp)
    (config : ServerConfigurationRow) :
    (update.apply now config).conductorState = config.conductorState := by
  cases update with
  | recompute total => rfl
  | objectStorage total => rfl
  | adjust deltaBytes =>
    by_cases h : deltaBytes = 0
    · simp only [UsageUpdate.apply, adjustServerMediaUsageBytes, if_pos h]
    · simp only [UsageUpdate.apply, adjustServerMediaUsageBytes, if_neg h]
      rfl

/-- Normalizing forgets the usage of stale settings and keeps any other. -/
theorem normalizedMediaSettings_usage (config : ServerConfigurationRow) :
    (normalizedMediaSettings config.mediaSettings).serverMediaUsageBytes =
      if config.storedMediaSettings.defaultUserMediaAllocationBytes = 0 then 0
      else storedUsageBytes config := by
  have hfallback (settings : MediaSettings) :
      (if settings.serverMediaAllocationBytes = 0 then
        { settings with serverMediaAllocationBytes := 5368709120 }
        else settings).serverMediaUsageBytes = settings.serverMediaUsageBytes := by
    split <;> rfl
  simp only [normalizedMediaSettings, hfallback, storedUsageBytes,
    ServerConfigurationRow.storedMediaSettings]
  rcases Option.eq_none_or_eq_some (readColumn config.mediaSettings) with
    hread | ⟨settings, hread⟩
  · simp only [hread, Option.filter_none, Option.getD_none]
    rfl
  · simp only [hread, Option.filter_some, Option.getD_some]
    by_cases h : settings.defaultUserMediaAllocationBytes = 0
    · simp only [h, ne_eq, not_true_eq_false, decide_false, Bool.false_eq_true, if_false,
        if_true, Option.getD_none]
      rfl
    · simp only [h, ne_eq, not_false_eq_true, decide_true, if_true, if_false, Option.getD_some]

/-- Forgetting a usage before a change shows, unless it was zero or ends at zero. -/
theorem adjustedUsageBytes_zero_iff (usageBytes : UInt64) (deltaBytes : Int64) :
    adjustedUsageBytes 0 deltaBytes = adjustedUsageBytes usageBytes deltaBytes ↔
      usageBytes = 0 ∨ (deltaBytes ≤ 0 ∧ usageBytes.toInt64 + deltaBytes ≤ 0) := by
  have hmax (a : Int64) : max a 0 = if a ≤ 0 then 0 else a := rfl
  have hinj {a b : Int64} : a.toUInt64 = b.toUInt64 ↔ a = b :=
    ⟨fun h => congrArg UInt64.toInt64 h, fun h => congrArg Int64.toUInt64 h⟩
  have hzero : usageBytes = 0 ↔ usageBytes.toInt64 = 0 :=
    ⟨fun h => congrArg UInt64.toInt64 h, fun h => congrArg Int64.toUInt64 h⟩
  have hforgotten : (0 : UInt64).toInt64 + deltaBytes = deltaBytes := Int64.zero_add deltaBytes
  rw [adjustedUsageBytes, adjustedUsageBytes, hinj, hforgotten, hzero, hmax, hmax]
  by_cases hdelta : deltaBytes ≤ 0
  · by_cases hsum : usageBytes.toInt64 + deltaBytes ≤ 0
    · simp only [hdelta, hsum, if_true, and_self, or_true]
    · rw [if_pos hdelta, if_neg hsum]
      constructor
      · intro h
        exact absurd (Int64.le_of_eq h.symm) hsum
      · rintro (h | h)
        · rw [h, Int64.zero_add] at hsum
          exact absurd hdelta hsum
        · exact absurd h.2 hsum
  · rw [if_neg hdelta]
    by_cases hsum : usageBytes.toInt64 + deltaBytes ≤ 0
    · rw [if_pos hsum]
      constructor
      · intro h
        exact absurd (Int64.le_of_eq h) hdelta
      · rintro (h | h)
        · rw [h, Int64.zero_add] at hsum
          exact absurd hsum hdelta
        · exact absurd h.1 hdelta
    · rw [if_neg hsum]
      constructor
      · intro h
        have hshift : 0 + deltaBytes = usageBytes.toInt64 + deltaBytes := by
          rw [Int64.zero_add, ← h]
        exact .inl ((Int64.add_left_inj deltaBytes).mp hshift).symm
      · rintro (h | h)
        · rw [h, Int64.zero_add]
        · exact absurd h.1 hdelta

/-- A write leaves the intended usage exactly if it keeps the stored one. -/
theorem apply_storedUsageBytes_iff (config : ServerConfigurationRow) (update : UsageUpdate)
    (now : Timestamp) :
    storedUsageBytes (update.apply now config) = update.account (storedUsageBytes config) ↔
      KeepsUsage config update := by
  have hnormalized := normalizedMediaSettings_usage config
  cases update with
  | recompute total => exact iff_of_true rfl trivial
  | objectStorage total =>
    change (normalizedMediaSettings config.mediaSettings).serverMediaUsageBytes =
      storedUsageBytes config ↔ _
    rw [hnormalized]
    by_cases hstale : config.storedMediaSettings.defaultUserMediaAllocationBytes = 0
    · rw [if_pos hstale]
      simp only [KeepsUsage, StaleMediaSettings, hstale, not_true_eq_false, false_or]
      exact eq_comm
    · simp [KeepsUsage, StaleMediaSettings, hstale]
  | adjust deltaBytes =>
    by_cases hdelta : deltaBytes = 0
    · simp only [UsageUpdate.apply, UsageUpdate.account, adjustServerMediaUsageBytes, hdelta,
        if_true, KeepsUsage, true_or]
    · rw [UsageUpdate.apply, UsageUpdate.account, adjustServerMediaUsageBytes, if_neg hdelta,
        if_neg hdelta, storedUsageBytes_updateMediaSettings, hnormalized]
      simp only [KeepsUsage, StaleMediaSettings, hdelta, false_or]
      by_cases hstale : config.storedMediaSettings.defaultUserMediaAllocationBytes = 0
      · rw [if_pos hstale, adjustedUsageBytes_zero_iff]
        simp only [hstale, not_true_eq_false, false_or]
      · rw [if_neg hstale]
        exact iff_of_true rfl (.inl hstale)

/-- A usage within the range of `i64` is read as it is. -/
theorem toInt_toInt64 {usageBytes : UInt64} (h : usageBytes.toNat < 2 ^ 63) :
    usageBytes.toInt64.toInt = usageBytes.toNat := by
  have hnat : usageBytes.toBitVec.toNat = usageBytes.toNat := rfl
  change usageBytes.toBitVec.toInt = usageBytes.toBitVec.toNat
  apply BitVec.toInt_eq_toNat_of_lt
  omega

theorem toNat_toUInt64 {a : Int64} (h : 0 ≤ a.toInt) : (a.toUInt64.toNat : Int) = a.toInt := by
  have hle : 0 ≤ a := by
    rw [Int64.le_iff_toInt_le]
    exact h
  rw [Int64.toNat_toUInt64_of_le hle, ← Int64.toNat_toInt]
  omega

/-- Within the range of `i64` an adjusted usage is the usage and the change. -/
theorem toNat_adjustedUsageBytes {usageBytes : UInt64} {total delta : Int}
    (htotal : (usageBytes.toNat : Int) = total) (hbound : total < 2 ^ 63)
    (hleft : 0 ≤ total + delta) (hbound' : total + delta < 2 ^ 63) :
    ((adjustedUsageBytes usageBytes (Int64.ofInt delta)).toNat : Int) = total + delta := by
  have hmax (a : Int64) : max a 0 = if a ≤ 0 then 0 else a := rfl
  have hzero : (0 : Int64).toInt = 0 := rfl
  have hsum : (usageBytes.toInt64 + Int64.ofInt delta).toInt = total + delta := by
    have husage : usageBytes.toInt64.toInt = usageBytes.toNat := toInt_toInt64 (by omega)
    rw [Int64.toInt_add, Int64.toInt_ofInt, husage, htotal, Int64.size, Int.add_bmod_bmod]
    apply Int.bmod_eq_of_le <;> omega
  rw [adjustedUsageBytes, hmax]
  split
  · rename_i hle
    rw [Int64.le_iff_toInt_le, hsum, hzero] at hle
    have hnothing : total + delta = 0 := by omega
    rw [hnothing]
    rfl
  · rw [toNat_toUInt64 (by omega), hsum]

/-- Normalized settings have both allocations. -/
theorem normalizedMediaSettings_allocations (raw : Option (Column MediaSettings)) :
    (normalizedMediaSettings raw).defaultUserMediaAllocationBytes ≠ 0 ∧
      (normalizedMediaSettings raw).serverMediaAllocationBytes ≠ 0 := by
  have hdefault : (((readColumn raw).filter fun m =>
      m.defaultUserMediaAllocationBytes ≠ 0).getD
        defaultMediaSettings).defaultUserMediaAllocationBytes ≠ 0 := by
    cases hfound : (readColumn raw).filter fun m => m.defaultUserMediaAllocationBytes ≠ 0 with
    | none => decide
    | some settings =>
      rw [Option.filter_eq_some_iff] at hfound
      exact of_decide_eq_true hfound.2
  unfold normalizedMediaSettings
  dsimp only
  split
  · have hfallback : (5368709120 : UInt64) ≠ 0 := by decide
    exact ⟨hdefault, hfallback⟩
  · rename_i hallocation
    exact ⟨hdefault, hallocation⟩

/-- Settings that have both allocations are normalized. -/
theorem normalizedMediaSettings_of_allocations {raw : Option (Column MediaSettings)}
    {settings : MediaSettings} (hraw : readColumn raw = some settings)
    (hdefault : settings.defaultUserMediaAllocationBytes ≠ 0)
    (hserver : settings.serverMediaAllocationBytes ≠ 0) :
    normalizedMediaSettings raw = settings := by
  have hkept : (some settings).filter (fun m => m.defaultUserMediaAllocationBytes ≠ 0) =
      some settings := by
    rw [Option.filter_some, if_pos (decide_eq_true hdefault)]
  unfold normalizedMediaSettings
  rw [hraw, hkept, Option.getD_some]
  exact if_neg hserver

end Rellm
