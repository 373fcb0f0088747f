import Mathlib.Data.String.Basic
import Rellm.Foundation.Overflow
import Rellm.Foundation.Words
import Rellm.Market.Signature
import Rellm.Protos.Common

/-!
# Signed deliveries of text messages

Three services deliver the replies of users. Each signs its deliveries in its own way; two of them
put a timestamp into what is signed, which has to be recent. Where the arithmetic of the comparison with
the clock overflows, nothing is decided.
-/

namespace Rellm.Users.ContactIntegrations

open Foundation
open Market (parseI64 unixSeconds)

def signatureToleranceSeconds : Int := 300

/-- What ends a request without an answer. -/
inductive Panic where
  | overflow
  | missingKey
  deriving DecidableEq, Repr

/-- What the libraries compute: codes under a key, signatures, and bytes from text. -/
structure Crypto where
  base64Decode : String → Option (List UInt8)
  hmacSha1 : String → String → List UInt8
  hmacSha256 : List UInt8 → String → List UInt8
  ed25519 : List UInt8 → String → List UInt8 → Bool

/-- The fields of a form, in some order. -/
structure Fields where
  entries : List (String × String)
  nodup : (entries.map Prod.fst).Nodup

/-- An `i64` as the result of a computation. -/
def checked (value : Int) : Except Panic Int64 :=
  match checked64 value with
  | some number => .ok number
  | none => .error .overflow

/-- A text without what it starts with. -/
def stripPrefix (start text : String) : Option String :=
  if start.toList.isPrefixOf text.toList then some (String.ofList (text.toList.drop start.length))
  else none

section

variable (crypto : Crypto) (sinceEpoch : Option UInt64)

/-- Appends the fields with some keys to a text. -/
def appendFields (fields : Fields) : List String → String → Except Panic String
  | [], result => .ok result
  | key :: keys, result =>
    match fields.entries.lookup key with
    | some value => appendFields fields keys (result ++ key ++ value)
    | none => .error .missingKey

/-- The address followed by the fields in ascending order of their keys. -/
def twilioSignedString (url : String) (fields : Fields) : Except Panic String :=
  appendFields fields ((fields.entries.map Prod.fst).mergeSort fun a b => decide (a ≤ b)) url

def verifyTwilioSignature (authToken url : String) (fields : Fields) (signatureB64 : String) :
    Except Panic Bool :=
  match crypto.base64Decode signatureB64 with
  | none => .ok false
  | some provided => do
    let signedString ← twilioSignedString url fields
    return provided = crypto.hmacSha1 authToken signedString

def withinTolerance (unixTimestampStr : String) : Except Panic Bool :=
  match parseI64 unixTimestampStr.toList with
  | none => .ok false
  | some timestamp => do
    let difference ← checked ((unixSeconds sinceEpoch).toInt - timestamp.toInt)
    let distance ← checked difference.toInt.natAbs
    .ok (decide (distance.toInt ≤ signatureToleranceSeconds))

def verifyTelnyxSignature (publicKeyB64 timestamp rawBody signatureB64 : String) :
    Except Panic Bool := do
  if !(← withinTolerance sinceEpoch timestamp) then return false
  match crypto.base64Decode publicKeyB64, crypto.base64Decode signatureB64 with
  | some publicKey, some signature =>
    return crypto.ed25519 publicKey (timestamp ++ "|" ++ rawBody) signature
  | _, _ => return false

/-- An entry of a header is a signature of the payload. -/
def signs (key : List UInt8) (signedPayload : String) (entry : List Char) : Bool :=
  ((stripPrefix "v1," (String.ofList entry)).bind crypto.base64Decode).any fun provided =>
    decide (provided = crypto.hmacSha256 key signedPayload)

def verifyBirdSignature (secret id timestamp rawBody signatureHeader : String) :
    Except Panic Bool := do
  if !(← withinTolerance sinceEpoch timestamp) then return false
  match (stripPrefix "whsec_" secret).bind crypto.base64Decode with
  | none => return false
  | some key =>
    let signedPayload := id ++ "." ++ timestamp ++ "." ++ rawBody
    return (words isWhitespace signatureHeader.toList).any (signs crypto key signedPayload)

end

/-- A text is a timestamp at most five minutes away from the clock. -/
def Fresh (sinceEpoch : Option UInt64) (text : String) : Prop :=
  ∃ timestamp, parseI64 text.toList = some timestamp ∧
    ((unixSeconds sinceEpoch).toInt - timestamp.toInt).natAbs ≤ 300

/-- A computation answers, and yes exactly if something holds. -/
def Decides (verified : Except Panic Bool) (holds : Prop) : Prop :=
  ∃ accepted, verified = .ok accepted ∧ (accepted = true ↔ holds)

/-- The signature of the timestamp and the body is by the key. -/
def TelnyxSigned (crypto : Crypto) (publicKeyB64 timestamp rawBody signatureB64 : String) : Prop :=
  ∃ publicKey signature, crypto.base64Decode publicKeyB64 = some publicKey ∧
    crypto.base64Decode signatureB64 = some signature ∧
    crypto.ed25519 publicKey (timestamp ++ "|" ++ rawBody) signature = true

/-- The secret is a key, and some word of the header is a code under it. -/
def BirdSigned (crypto : Crypto) (secret id timestamp rawBody signatureHeader : String) : Prop :=
  ∃ encodedKey key, secret = "whsec_" ++ encodedKey ∧ crypto.base64Decode encodedKey = some key ∧
    ∃ entry encoded, entry ≠ [] ∧ Between isWhitespace signatureHeader.toList entry ∧
      String.ofList entry = "v1," ++ encoded ∧ crypto.base64Decode encoded =
        some (crypto.hmacSha256 key (id ++ "." ++ timestamp ++ "." ++ rawBody))

/-- The address followed by every key and value in ascending order of the keys. -/
def SignedString (url : String) (fields : Fields) (text : String) : Prop :=
  ∃ sorted : List (String × String), sorted.Perm fields.entries ∧
    sorted.Pairwise (fun a b => a.1 < b.1) ∧
    text = sorted.foldl (fun result field => result ++ field.1 ++ field.2) url

def TwilioSigned (crypto : Crypto) (authToken url : String) (fields : Fields)
    (signatureB64 : String) : Prop :=
  ∃ text, SignedString url fields text ∧
    crypto.base64Decode signatureB64 = some (crypto.hmacSha1 authToken text)

/-- Deliveries with a timestamp are judged by their signature and the clock; those of the service that
signs none are judged by their signature, in whichever order the fields come. -/
structure Judged (crypto : Crypto) (sinceEpoch : Option UInt64) (timestamp : String) : Prop where
  tolerance : Decides (withinTolerance sinceEpoch timestamp) (Fresh sinceEpoch timestamp)
  telnyx : ∀ publicKeyB64 rawBody signatureB64,
    Decides (verifyTelnyxSignature crypto sinceEpoch publicKeyB64 timestamp rawBody signatureB64)
      (Fresh sinceEpoch timestamp ∧
        TelnyxSigned crypto publicKeyB64 timestamp rawBody signatureB64)
  bird : ∀ secret id rawBody signatureHeader,
    Decides (verifyBirdSignature crypto sinceEpoch secret id timestamp rawBody signatureHeader)
      (Fresh sinceEpoch timestamp ∧
        BirdSigned crypto secret id timestamp rawBody signatureHeader)
  twilio : ∀ authToken url fields signatureB64,
    Decides (verifyTwilioSignature crypto authToken url fields signatureB64)
      (TwilioSigned crypto authToken url fields signatureB64)
  unordered : ∀ authToken url (fields fields' : Fields) signatureB64,
    fields.entries.Perm fields'.entries →
      verifyTwilioSignature crypto authToken url fields signatureB64 =
        verifyTwilioSignature crypto authToken url fields' signatureB64

/-- The distance of a text from the clock, if it is a timestamp, has 64 bits. -/
def InRange (sinceEpoch : Option UInt64) (text : String) : Prop :=
  ∀ timestamp, parseI64 text.toList = some timestamp →
    -9223372036854775808 < (unixSeconds sinceEpoch).toInt - timestamp.toInt ∧
      (unixSeconds sinceEpoch).toInt - timestamp.toInt < 9223372036854775808

theorem checked_of_bounds {value : Int} (h : -9223372036854775808 ≤ value) (h' : value < 9223372036854775808) :
    ∃ number, checked value = .ok number ∧ number.toInt = value := by
  obtain ⟨number, hnumber, hvalue⟩ := checked64_of_bounds value (by omega) (by omega)
  exact ⟨number, by rw [checked, hnumber], hvalue⟩

theorem checked_of_overflow {value : Int} (h : ¬ (-9223372036854775808 ≤ value ∧ value < 9223372036854775808)) :
    checked value = .error .overflow := by
  rw [checked, checked64_eq_none_iff.mpr (by omega)]

/-- A number is compared with the clock exactly if the distance is in range. -/
theorem withinTolerance_of_range {sinceEpoch : Option UInt64} {text : String} {timestamp : Int64}
    (hparse : parseI64 text.toList = some timestamp)
    (hlow : -9223372036854775808 < (unixSeconds sinceEpoch).toInt - timestamp.toInt)
    (hhigh : (unixSeconds sinceEpoch).toInt - timestamp.toInt < 9223372036854775808) :
    withinTolerance sinceEpoch text =
      .ok (decide (((unixSeconds sinceEpoch).toInt - timestamp.toInt).natAbs ≤ 300)) := by
  obtain ⟨difference, hdifference, hvalue⟩ := checked_of_bounds (Int.le_of_lt hlow) hhigh
  obtain ⟨distance, hdistance, hvalue'⟩ : ∃ distance,
      checked difference.toInt.natAbs = .ok distance ∧ distance.toInt = difference.toInt.natAbs :=
    checked_of_bounds (by omega) (by omega)
  have hle : distance.toInt ≤ signatureToleranceSeconds ↔
      ((unixSeconds sinceEpoch).toInt - timestamp.toInt).natAbs ≤ 300 := by
    rw [hvalue', hvalue, signatureToleranceSeconds]
    omega
  rw [withinTolerance, hparse]
  dsimp only
  rw [checks_of_ok hdifference, checks_of_ok hdistance, decide_eq_decide.mpr hle]

theorem withinTolerance_of_overflow {sinceEpoch : Option UInt64} {text : String} {timestamp : Int64}
    (hparse : parseI64 text.toList = some timestamp)
    (h : ¬ (-9223372036854775808 < (unixSeconds sinceEpoch).toInt - timestamp.toInt ∧
      (unixSeconds sinceEpoch).toInt - timestamp.toInt < 9223372036854775808)) :
    withinTolerance sinceEpoch text = .error .overflow := by
  by_cases hbounds : -9223372036854775808 ≤ (unixSeconds sinceEpoch).toInt - timestamp.toInt ∧
      (unixSeconds sinceEpoch).toInt - timestamp.toInt < 9223372036854775808
  · -- the distance is one that has no absolute value
    obtain ⟨difference, hdifference, hvalue⟩ := checked_of_bounds hbounds.1 hbounds.2
    have hoverflow : checked difference.toInt.natAbs = .error .overflow :=
      checked_of_overflow (by omega)
    rw [withinTolerance, hparse]
    dsimp only
    rw [checks_of_ok hdifference, checks_of_error hoverflow]
  · rw [withinTolerance, hparse]
    dsimp only
    rw [checks_of_error (checked_of_overflow hbounds)]

theorem withinTolerance_of_none {sinceEpoch : Option UInt64} {text : String}
    (hparse : parseI64 text.toList = none) : withinTolerance sinceEpoch text = .ok false := by
  rw [withinTolerance, hparse]

theorem not_fresh_of_none {sinceEpoch : Option UInt64} {text : String}
    (hparse : parseI64 text.toList = none) : ¬ Fresh sinceEpoch text := by
  rintro ⟨timestamp, htimestamp, _⟩
  rw [hparse] at htimestamp
  cases htimestamp

theorem fresh_iff {sinceEpoch : Option UInt64} {text : String} {timestamp : Int64}
    (hparse : parseI64 text.toList = some timestamp) : Fresh sinceEpoch text ↔
      ((unixSeconds sinceEpoch).toInt - timestamp.toInt).natAbs ≤ 300 := by
  constructor
  · rintro ⟨other, hother, h⟩
    obtain rfl := Option.some.inj (hparse.symm.trans hother)
    exact h
  · exact fun h => ⟨timestamp, hparse, h⟩

/-- The comparison with the clock answers exactly if the distance is in range, and then rightly. -/
theorem decides_withinTolerance_iff (sinceEpoch : Option UInt64) (text : String) :
    Decides (withinTolerance sinceEpoch text) (Fresh sinceEpoch text) ↔ InRange sinceEpoch text := by
  cases hparse : parseI64 text.toList with
  | none =>
    refine iff_of_true ⟨false, withinTolerance_of_none hparse, ?_⟩ ?_
    · exact iff_of_false Bool.false_ne_true (not_fresh_of_none hparse)
    · intro timestamp htimestamp
      rw [hparse] at htimestamp
      cases htimestamp
  | some timestamp =>
    constructor
    · rintro ⟨accepted, hok, _⟩ other hother
      obtain rfl := Option.some.inj (hparse.symm.trans hother)
      by_contra hrange
      rw [withinTolerance_of_overflow hparse hrange] at hok
      cases hok
    · intro hrange
      obtain ⟨hlow, hhigh⟩ := hrange timestamp hparse
      refine ⟨_, withinTolerance_of_range hparse hlow hhigh, ?_⟩
      rw [decide_eq_true_iff, fresh_iff hparse]

theorem stripPrefix_eq_some_iff {start text rest : String} :
    stripPrefix start text = some rest ↔ text = start ++ rest := by
  unfold stripPrefix
  constructor
  · intro h
    split at h
    · rename_i hprefix
      obtain ⟨tail, htail⟩ := List.isPrefixOf_iff_prefix.mp hprefix
      rw [← Option.some.inj h, ← htail, ← String.length_toList, List.drop_left]
      apply String.toList_inj.mp
      rw [String.toList_append, String.toList_ofList, htail]
    · cases h
  · rintro rfl
    have hprefix : start.toList <+: (start ++ rest).toList :=
      ⟨rest.toList, String.toList_append.symm⟩
    rw [if_pos (List.isPrefixOf_iff_prefix.mpr hprefix), String.toList_append,
      ← String.length_toList, List.drop_left, String.ofList_toList]

theorem signs_eq_true_iff {crypto : Crypto} {key : List UInt8} {signedPayload : String}
    {entry : List Char} : signs crypto key signedPayload entry = true ↔
      ∃ encoded, String.ofList entry = "v1," ++ encoded ∧
        crypto.base64Decode encoded = some (crypto.hmacSha256 key signedPayload) := by
  rw [signs, Option.any_eq_true]
  constructor
  · rintro ⟨provided, hprovided, heq⟩
    obtain ⟨encoded, hencoded, hdecoded⟩ := Option.bind_eq_some_iff.mp hprovided
    rw [of_decide_eq_true heq] at hdecoded
    exact ⟨encoded, stripPrefix_eq_some_iff.mp hencoded, hdecoded⟩
  · rintro ⟨encoded, hencoded, hdecoded⟩
    exact ⟨_, Option.bind_eq_some_iff.mpr ⟨encoded, stripPrefix_eq_some_iff.mpr hencoded, hdecoded⟩,
      decide_eq_true rfl⟩

section

variable {crypto : Crypto} {sinceEpoch : Option UInt64} {timestamp : String} {accepted : Bool}

/-- Deliveries of the second service are judged once the timestamp is. -/
theorem decides_verifyTelnyxSignature
    (h : Decides (withinTolerance sinceEpoch timestamp) (Fresh sinceEpoch timestamp))
    (publicKeyB64 rawBody signatureB64 : String) :
    Decides (verifyTelnyxSignature crypto sinceEpoch publicKeyB64 timestamp rawBody signatureB64)
      (Fresh sinceEpoch timestamp ∧
        TelnyxSigned crypto publicKeyB64 timestamp rawBody signatureB64) := by
  obtain ⟨within, hwithin, hfresh⟩ := h
  rw [verifyTelnyxSignature, checks_of_ok hwithin]
  cases within with
  | false =>
    refine ⟨false, rfl, iff_of_false Bool.false_ne_true ?_⟩
    exact fun h => Bool.false_ne_true (hfresh.mpr h.1)
  | true =>
    have hfresh : Fresh sinceEpoch timestamp := hfresh.mp rfl
    unfold TelnyxSigned
    cases hkey : crypto.base64Decode publicKeyB64 with
    | none =>
      refine ⟨false, rfl, iff_of_false Bool.false_ne_true ?_⟩
      rintro ⟨_, _, _, h, _⟩
      cases h
    | some publicKey =>
      cases hsignature : crypto.base64Decode signatureB64 with
      | none =>
        refine ⟨false, rfl, iff_of_false Bool.false_ne_true ?_⟩
        rintro ⟨_, _, _, _, h, _⟩
        cases h
      | some signature =>
        refine ⟨crypto.ed25519 publicKey (timestamp ++ "|" ++ rawBody) signature, rfl, ?_⟩
        constructor
        · exact fun h => ⟨hfresh, publicKey, signature, rfl, rfl, h⟩
        · rintro ⟨_, _, _, hkey', hsignature', h⟩
          obtain rfl := Option.some.inj hkey'
          obtain rfl := Option.some.inj hsignature'
          exact h

/-- Deliveries of the third service are judged once the timestamp is, whatever else is in the
header. -/
theorem decides_verifyBirdSignature
    (h : Decides (withinTolerance sinceEpoch timestamp) (Fresh sinceEpoch timestamp))
    (secret id rawBody signatureHeader : String) :
    Decides (verifyBirdSignature crypto sinceEpoch secret id timestamp rawBody signatureHeader)
      (Fresh sinceEpoch timestamp ∧
        BirdSigned crypto secret id timestamp rawBody signatureHeader) := by
  obtain ⟨within, hwithin, hfresh⟩ := h
  rw [verifyBirdSignature, checks_of_ok hwithin]
  cases within with
  | false =>
    refine ⟨false, rfl, iff_of_false Bool.false_ne_true ?_⟩
    exact fun h => Bool.false_ne_true (hfresh.mpr h.1)
  | true =>
    have hfresh : Fresh sinceEpoch timestamp := hfresh.mp rfl
    unfold BirdSigned
    cases hkey : (stripPrefix "whsec_" secret).bind crypto.base64Decode with
    | none =>
      refine ⟨false, rfl, iff_of_false Bool.false_ne_true ?_⟩
      rintro ⟨_, encodedKey, key, hsecret, hdecoded, _⟩
      rw [stripPrefix_eq_some_iff.mpr hsecret, Option.bind_some, hdecoded] at hkey
      cases hkey
    | some key =>
      obtain ⟨encodedKey, hencoded, hdecoded⟩ := Option.bind_eq_some_iff.mp hkey
      refine ⟨_, rfl, ?_⟩
      rw [List.any_eq_true]
      constructor
      · rintro ⟨entry, hentry, hsigns⟩
        obtain ⟨encoded, hv1, hcode⟩ := signs_eq_true_iff.mp hsigns
        obtain ⟨hne, hbetween⟩ := mem_words_iff.mp hentry
        exact ⟨hfresh, encodedKey, key, stripPrefix_eq_some_iff.mp hencoded, hdecoded, entry,
          encoded, hne, hbetween, hv1, hcode⟩
      · rintro ⟨_, encodedKey', key', hsecret, hdecoded', entry, encoded, hne, hbetween, hv1, hcode⟩
        rw [stripPrefix_eq_some_iff.mpr hsecret, Option.bind_some, hdecoded'] at hkey
        obtain rfl := Option.some.inj hkey
        exact ⟨entry, mem_words_iff.mpr ⟨hne, hbetween⟩, signs_eq_true_iff.mpr ⟨encoded, hv1, hcode⟩⟩

end

section

variable {crypto : Crypto} {fields fields' : Fields} {sorted : List (String × String)}

theorem lookup_of_mem {α β : Type} [BEq α] [LawfulBEq α] {l : List (α × β)} {a : α} {b : β}
    (hnodup : (l.map Prod.fst).Nodup) (h : (a, b) ∈ l) : l.lookup a = some b := by
  induction l with
  | nil => cases h
  | cons entry l ih =>
    obtain ⟨a', b'⟩ := entry
    rw [List.map_cons, List.nodup_cons] at hnodup
    rcases List.mem_cons.mp h with heq | htail
    · obtain ⟨rfl, rfl⟩ := Prod.mk.inj heq
      exact List.lookup_cons_self
    · have hne : (a == a') = false := by
        rw [beq_eq_false_iff_ne]
        rintro rfl
        exact hnodup.1 (List.mem_map.mpr ⟨_, htail, rfl⟩)
      rw [List.lookup_cons, hne]
      exact ih hnodup.2 htail

/-- The keys of some fields are appended with their values. -/
theorem appendFields_map (hsub : sorted ⊆ fields.entries) (result : String) :
    appendFields fields (sorted.map Prod.fst) result =
      .ok (sorted.foldl (fun result field => result ++ field.1 ++ field.2) result) := by
  induction sorted generalizing result with
  | nil => rfl
  | cons field sorted ih =>
    obtain ⟨key, value⟩ := field
    have hlookup : fields.entries.lookup key = some value :=
      lookup_of_mem fields.nodup (hsub List.mem_cons_self)
    rw [List.map_cons, appendFields, hlookup, List.foldl_cons]
    exact ih (List.subset_of_cons_subset hsub) _

/-- The fields in ascending order of their keys. -/
def Fields.inOrder (fields : Fields) : List (String × String) :=
  fields.entries.mergeSort fun a b => decide (a.1 ≤ b.1)

theorem Fields.inOrder_perm (fields : Fields) : fields.inOrder.Perm fields.entries :=
  List.mergeSort_perm _ _

theorem Fields.inOrder_pairwise (fields : Fields) :
    fields.inOrder.Pairwise fun a b => a.1 < b.1 := by
  have hle : fields.inOrder.Pairwise fun a b => decide (a.1 ≤ b.1) = true := by
    apply List.pairwise_mergeSort
    · intro a b c hab hbc
      exact decide_eq_true (le_trans (of_decide_eq_true hab) (of_decide_eq_true hbc))
    · intro a b
      rcases le_total a.1 b.1 with h | h <;> simp [h]
  have hnodup : (fields.inOrder.map Prod.fst).Nodup :=
    (fields.inOrder_perm.map Prod.fst).nodup_iff.mpr fields.nodup
  rw [List.nodup_iff_pairwise_ne, List.pairwise_map] at hnodup
  exact hle.imp₂ (fun a b hab hne => lt_of_le_of_ne (of_decide_eq_true hab) hne) hnodup

/-- Fields in ascending order of their keys are the sorted fields. -/
theorem eq_inOrder (hperm : sorted.Perm fields.entries)
    (hsorted : sorted.Pairwise fun a b => a.1 < b.1) : sorted = fields.inOrder :=
  (hperm.trans fields.inOrder_perm.symm).eq_of_pairwise
    (fun _ _ _ _ hab hba => absurd hba (lt_asymm hab)) hsorted fields.inOrder_pairwise

/-- The signed string is the address followed by the sorted fields. -/
theorem twilioSignedString_eq (url : String) (fields : Fields) :
    twilioSignedString url fields =
      .ok (fields.inOrder.foldl (fun result field => result ++ field.1 ++ field.2) url) := by
  have hkeys : ((fields.entries.map Prod.fst).mergeSort fun a b => decide (a ≤ b)) =
      fields.inOrder.map Prod.fst := by
    refine ((List.mergeSort_perm _ _).trans (fields.inOrder_perm.map Prod.fst).symm).eq_of_pairwise
      (fun a b _ _ hab hba => le_antisymm (of_decide_eq_true hab) (of_decide_eq_true hba)) ?_ ?_
    · apply List.pairwise_mergeSort
      · intro a b c hab hbc
        exact decide_eq_true (le_trans (of_decide_eq_true hab) (of_decide_eq_true hbc))
      · intro a b
        rcases le_total a b with h | h <;> simp [h]
    · rw [List.pairwise_map]
      exact fields.inOrder_pairwise.imp fun h => decide_eq_true (le_of_lt h)
  rw [twilioSignedString, hkeys, appendFields_map fields.inOrder_perm.subset]

theorem signedString_iff {url text : String} : SignedString url fields text ↔
    twilioSignedString url fields = .ok text := by
  rw [twilioSignedString_eq, Except.ok.injEq]
  constructor
  · rintro ⟨sorted, hperm, hsorted, rfl⟩
    rw [eq_inOrder hperm hsorted]
  · intro h
    exact ⟨fields.inOrder, fields.inOrder_perm, fields.inOrder_pairwise, h.symm⟩

/-- Deliveries of the first service are judged in any case. -/
theorem decides_verifyTwilioSignature (authToken url : String) (fields : Fields)
    (signatureB64 : String) :
    Decides (verifyTwilioSignature crypto authToken url fields signatureB64)
      (TwilioSigned crypto authToken url fields signatureB64) := by
  unfold verifyTwilioSignature TwilioSigned
  cases hprovided : crypto.base64Decode signatureB64 with
  | none =>
    refine ⟨false, rfl, iff_of_false Bool.false_ne_true ?_⟩
    rintro ⟨_, _, h⟩
    cases h
  | some provided =>
    dsimp only
    rw [checks_of_ok (twilioSignedString_eq url fields)]
    refine ⟨_, rfl, ?_⟩
    rw [decide_eq_true_iff]
    constructor
    · intro h
      exact ⟨_, signedString_iff.mpr (twilioSignedString_eq url fields), congrArg some h⟩
    · rintro ⟨text, htext, h⟩
      rw [signedString_iff, twilioSignedString_eq, Except.ok.injEq] at htext
      rw [htext]
      exact Option.some.inj h

/-- The order of the fields does not matter. -/
theorem verifyTwilioSignature_congr (h : fields.entries.Perm fields'.entries)
    (authToken url signatureB64 : String) :
    verifyTwilioSignature crypto authToken url fields signatureB64 =
      verifyTwilioSignature crypto authToken url fields' signatureB64 := by
  have hsame : fields.inOrder = fields'.inOrder :=
    eq_inOrder (fields.inOrder_perm.trans h) fields.inOrder_pairwise
  unfold verifyTwilioSignature
  rw [twilioSignedString_eq, twilioSignedString_eq, hsame]

end

/-- Deliveries are judged rightly exactly if the distance of their timestamp from the clock has 64
bits. -/
theorem judged_iff (crypto : Crypto) (sinceEpoch : Option UInt64) (timestamp : String) :
    Judged crypto sinceEpoch timestamp ↔ InRange sinceEpoch timestamp := by
  rw [← decides_withinTolerance_iff]
  constructor
  · exact fun h => h.tolerance
  · intro h
    exact {
      tolerance := h
      telnyx := decides_verifyTelnyxSignature h
      bird := decides_verifyBirdSignature h
      twilio := decides_verifyTwilioSignature
      unordered := fun authToken url _ _ signatureB64 hperm =>
        verifyTwilioSignature_congr hperm authToken url signatureB64 }

/-- Wrapped to 64 bits, such a distance can pass for a small one. -/
example : ((0 : Int64) - Int64.minValue).abs ≤ 300 := by decide

/-- The least number of 64 bits as a timestamp is compared with no clock. -/
theorem least_timestamp_overflows :
    ¬ ∀ (crypto : Crypto) (sinceEpoch : Option UInt64) (timestamp : String),
      Judged crypto sinceEpoch timestamp := by
  intro h
  have hrange := (decides_withinTolerance_iff _ _).mp
    (h ⟨fun _ => none, fun _ _ => [], fun _ _ => [], fun _ _ _ => false⟩ (some 1700000000)
      "-9223372036854775808").tolerance
  have hdistance := (hrange Int64.minValue (by decide +kernel)).2
  exact absurd hdistance (by decide)

end Rellm.Users.ContactIntegrations
