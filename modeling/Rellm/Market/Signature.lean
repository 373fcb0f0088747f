import Mathlib.Algebra.GroupWithZero.Nat
import Mathlib.Data.List.Induction
import Rellm.Foundation.Checks

/-!
# Signed deliveries

Each delivery of Stripe has a header of comma-separated elements: a timestamp `t`, and signatures
`v1` in hex digits, of which there are several while a secret is rolled. Which of them is the message
authentication code of timestamp and body under the configured secret decides.
-/

namespace Rellm.Market

def signatureToleranceSeconds : Int64 := 300

/-- A text was sliced within a character. -/
inductive Panic where
  | charBoundary
  deriving DecidableEq, Repr

/-- The key and the value of an element, which is split at its first equals sign. -/
def splitElement (part : List Char) : List Char × Option (List Char) :=
  (part.takeWhile (· ≠ '='), (part.dropWhile (· ≠ '=')).tail?)

def headerElements (header : String) : List (List Char × Option (List Char)) :=
  (header.toList.splitOn ',').map splitElement

/-- The values of the elements with a key, in order. -/
def valuesOf (key header : String) : List (List Char) :=
  (headerElements header).filterMap fun element =>
    if element.1 = key.toList then element.2 else none

/-- A nonempty list of decimal digits as a number. -/
def decimal (digits : List Char) : Option Nat :=
  if digits.isEmpty then none
  else digits.foldlM (fun n c => if c.isDigit then some (10 * n + (c.toNat - '0'.toNat)) else none) 0

/-- A number of 64 bits: decimal digits, after a sign or without one. -/
def parseI64 : List Char → Option Int64
  | '-' :: digits =>
    (decimal digits).bind fun n => if n ≤ 2 ^ 63 then some (Int64.ofInt (-n)) else none
  | '+' :: digits =>
    (decimal digits).bind fun n => if n < 2 ^ 63 then some (Int64.ofNat n) else none
  | digits => (decimal digits).bind fun n => if n < 2 ^ 63 then some (Int64.ofNat n) else none

/-- What is read of a header: the timestamp and a signature. -/
structure SignatureHeader where
  timestamp : Option Int64
  v1Signature : Option (List Char)

/-- A later element takes the place of an earlier one. -/
def SignatureHeader.read (header : String) : SignatureHeader :=
  (headerElements header).foldl (fun read element =>
    match element with
    | (key, some value) =>
      if key = "t".toList then { read with timestamp := parseI64 value }
      else if key = "v1".toList then { read with v1Signature := some value }
      else read
    | (_, none) => read) ⟨none, none⟩

def hexDigit (c : Char) : Option Nat :=
  if c.isDigit then some (c.toNat - '0'.toNat)
  else if 'a' ≤ c ∧ c ≤ 'f' then some (c.toNat - 'a'.toNat + 10)
  else if 'A' ≤ c ∧ c ≤ 'F' then some (c.toNat - 'A'.toNat + 10)
  else none

/-- Two characters as a number in hex digits; the first may be a plus sign. -/
def fromStrRadix16 (high low : Char) : Option UInt8 :=
  match hexDigit high, hexDigit low with
  | some high, some low => some (UInt8.ofNat (16 * high + low))
  | none, some low => if high = '+' then some (UInt8.ofNat low) else none
  | _, none => none

/-- Slices of two bytes each, up to the first that is no number. -/
def decodePairs : List Char → Except Panic (Option (List UInt8))
  | [] => .ok (some [])
  | c :: rest =>
    if c.utf8Size = 2 then .ok none
    else if c.utf8Size = 1 then
      match rest with
      | [] => .error .charBoundary
      | d :: rest =>
        if d.utf8Size = 1 then
          match fromStrRadix16 c d with
          | some byte => (decodePairs rest).map fun bytes => bytes.map (byte :: ·)
          | none => .ok none
        else .error .charBoundary
    else .error .charBoundary

def decodeHex (text : List Char) : Except Panic (Option (List UInt8)) :=
  if (text.map Char.utf8Size).sum % 2 ≠ 0 then .ok none else decodePairs text

/-- The clock in seconds, which is zero before the epoch. -/
def unixSeconds (sinceEpoch : Option UInt64) : Int64 :=
  match sinceEpoch with
  | some seconds => seconds.toInt64
  | none => 0

section

variable (hmac : String → String → List UInt8) (header rawBody signingSecret : String)
variable (sinceEpoch : Option UInt64)

/-- Verifies the signature of a delivery by its last `v1` element. -/
def verifySignature : Except Panic Bool := do
  let read := SignatureHeader.read header
  match read.timestamp, read.v1Signature with
  | some timestamp, some v1Signature =>
    if signatureToleranceSeconds < (unixSeconds sinceEpoch - timestamp).abs then return false
    match ← decodeHex v1Signature with
    | none => return false
    | some signatureBytes =>
      return signatureBytes = hmac signingSecret (toString timestamp ++ "." ++ rawBody)
  | _, _ => return false

/-- Pairs of hex digits as bytes. -/
def hexBytes : List Char → Option (List UInt8)
  | [] => some []
  | high :: low :: rest => do
    let high ← hexDigit high
    let low ← hexDigit low
    let bytes ← hexBytes rest
    return UInt8.ofNat (16 * high + low) :: bytes
  | [_] => none

/-- Some `v1` element is the code, in hex digits, of the last timestamp as it is written and the
body. -/
def Signed (text : List Char) : Prop :=
  ∃ v1 ∈ valuesOf "v1" header,
    hexBytes v1 = some (hmac signingSecret (String.ofList text ++ "." ++ rawBody))

/-- A timestamp is within the tolerance of the clock. -/
def Recent (timestamp : Int64) : Prop :=
  ((unixSeconds sinceEpoch).toInt - timestamp.toInt).natAbs ≤ 300

/-- A delivery is authentic: signed with a secret, and recently. -/
def Authentic : Prop :=
  ∃ text timestamp, (valuesOf "t" header).getLast? = some text ∧ parseI64 text = some timestamp ∧
    Recent sinceEpoch timestamp ∧ signingSecret ≠ "" ∧ Signed hmac header rawBody signingSecret text

/-- The authentic deliveries are accepted and all others rejected. -/
def AcceptsAuthentic : Prop :=
  ∃ accepted, verifySignature hmac header rawBody signingSecret sinceEpoch = .ok accepted ∧
    (accepted = true ↔ Authentic hmac header rawBody signingSecret sinceEpoch)

/-- The last `v1` element decodes to the code of the timestamp, written as a number, and the body. -/
def LastSigned (timestamp : Int64) (v1 : List Char) : Prop :=
  decodeHex v1 = .ok (some (hmac signingSecret (toString timestamp ++ "." ++ rawBody)))

/-- The last `v1` element decides rightly: it is not sliced within a character; if it decodes to
the code, then the timestamp is recent, there is a secret, and an element is the code in hex digits;
and it decodes to the code if the delivery is authentic. -/
structure LastDecides (text : List Char) (timestamp : Int64) (v1 : List Char) : Prop where
  unsliced : decodeHex v1 ≠ .error .charBoundary
  recent : LastSigned hmac rawBody signingSecret timestamp v1 → Recent sinceEpoch timestamp
  keyed : LastSigned hmac rawBody signingSecret timestamp v1 → signingSecret ≠ ""
  plain : LastSigned hmac rawBody signingSecret timestamp v1 →
    Signed hmac header rawBody signingSecret text
  last : Recent sinceEpoch timestamp → signingSecret ≠ "" →
    Signed hmac header rawBody signingSecret text → LastSigned hmac rawBody signingSecret timestamp v1

end

/-- Later elements take the place of earlier ones. -/
theorem SignatureHeader.read_eq (header : String) :
    SignatureHeader.read header =
      ⟨(valuesOf "t" header).getLast?.bind parseI64, (valuesOf "v1" header).getLast?⟩ := by
  unfold read valuesOf
  induction headerElements header using List.reverseRecOn with
  | nil => rfl
  | append_singleton elements element ih =>
    rw [List.foldl_append, ih, List.filterMap_append, List.filterMap_append]
    obtain ⟨key, value⟩ := element
    cases value with
    | none => simp
    | some value =>
      by_cases ht : key = "t".toList
      · subst ht
        simp
      · by_cases hv1 : key = "v1".toList
        · subst hv1
          simp
        · simp only [List.foldl_cons, List.foldl_nil, if_neg ht, if_neg hv1, List.filterMap_cons,
            List.filterMap_nil, List.append_nil]

theorem hexBytes_of_odd {text : List Char} (h : text.length % 2 ≠ 0) : hexBytes text = none := by
  fun_induction hexBytes text with
  | case1 => exact absurd rfl h
  | case2 high low rest ih =>
    have hrest : rest.length % 2 ≠ 0 := by
      rw [List.length_cons, List.length_cons] at h
      omega
    rw [ih hrest]
    cases hexDigit high <;> cases hexDigit low <;> rfl
  | case3 => rfl

/-- Without characters of several bytes and plus signs, what is decoded are pairs of hex digits. -/
theorem decodeHex_of_plain {text : List Char} (h : ∀ c ∈ text, c.utf8Size = 1 ∧ c ≠ '+') :
    decodeHex text = .ok (hexBytes text) := by
  have hsize : (text.map Char.utf8Size).sum = text.length := by
    rw [List.map_congr_left fun c hc => (h c hc).1]
    simp
  rw [decodeHex, hsize]
  by_cases hodd : text.length % 2 ≠ 0
  · rw [if_pos hodd, hexBytes_of_odd hodd]
  · rw [if_neg hodd]
    clear hsize
    fun_induction hexBytes text with
    | case1 => rfl
    | case2 high low rest ih =>
      obtain ⟨hone, hplus⟩ := h high List.mem_cons_self
      obtain ⟨hone', _⟩ := h low (List.mem_cons_of_mem _ List.mem_cons_self)
      have hrest := ih (fun c hc => h c (List.mem_cons_of_mem _ (List.mem_cons_of_mem _ hc))) (by
        rw [List.length_cons, List.length_cons] at hodd
        omega)
      rw [decodePairs, if_neg (by omega), if_pos hone]
      rw [if_pos hone', fromStrRadix16, hrest]
      cases hhigh : hexDigit high with
      | none =>
        cases hexDigit low with
        | none => rfl
        | some low => simp [hplus]
      | some high =>
        cases hexDigit low with
        | none => rfl
        | some low => cases hexBytes rest <;> rfl
    | case3 => simp at hodd

example : decodeHex "+f".toList = .ok (some [15]) := by decide

example : decodeHex "0é0".toList = .error .charBoundary := by decide

/-- A recent timestamp passes the comparison with the clock. -/
theorem abs_le_of_recent {sinceEpoch : Option UInt64} {timestamp : Int64}
    (h : Recent sinceEpoch timestamp) :
    ¬ signatureToleranceSeconds < (unixSeconds sinceEpoch - timestamp).abs := by
  have hdiff : (unixSeconds sinceEpoch - timestamp).toInt =
      (unixSeconds sinceEpoch).toInt - timestamp.toInt := by
    rw [Int64.toInt_sub]
    unfold Recent at h
    exact Int.bmod_eq_of_le (by omega) (by omega)
  have habs : (unixSeconds sinceEpoch - timestamp).abs.toInt =
      ((unixSeconds sinceEpoch - timestamp).toInt.natAbs : Int) := by
    refine BitVec.toInt_abs_eq_natAbs_of_ne_intMin fun hmin => ?_
    have hvalue : (unixSeconds sinceEpoch - timestamp).toInt = -2 ^ 63 := by
      show (unixSeconds sinceEpoch - timestamp).toBitVec.toInt = _
      rw [hmin]
      decide
    unfold Recent at h
    omega
  have htolerance : signatureToleranceSeconds.toInt = 300 := by decide
  rw [Int64.lt_iff_toInt_lt, htolerance, habs, hdiff]
  unfold Recent at h
  omega

section

variable (hmac : String → String → List UInt8) (rawBody signingSecret : String)
variable {header : String} {sinceEpoch : Option UInt64} {text v1 : List Char} {timestamp : Int64}

/-- A delivery whose last timestamp passes the comparison with the clock is judged by the last
signature. -/
theorem verifySignature_of_last (htext : (valuesOf "t" header).getLast? = some text)
    (htimestamp : parseI64 text = some timestamp) (hv1 : (valuesOf "v1" header).getLast? = some v1)
    (hrecent : ¬ signatureToleranceSeconds < (unixSeconds sinceEpoch - timestamp).abs) :
    verifySignature hmac header rawBody signingSecret sinceEpoch =
      (decodeHex v1).map fun bytes =>
        decide (bytes = some (hmac signingSecret (toString timestamp ++ "." ++ rawBody))) := by
  rw [verifySignature, SignatureHeader.read_eq, htext, hv1, Option.bind_some, htimestamp]
  dsimp only
  rw [if_neg hrecent]
  cases decodeHex v1 with
  | error panic => rfl
  | ok bytes =>
    cases bytes with
    | none => rfl
    | some bytes => simp [Except.map]

theorem verifySignature_of_old (htext : (valuesOf "t" header).getLast? = some text)
    (htimestamp : parseI64 text = some timestamp) (hv1 : (valuesOf "v1" header).getLast? = some v1)
    (hold : signatureToleranceSeconds < (unixSeconds sinceEpoch - timestamp).abs) :
    verifySignature hmac header rawBody signingSecret sinceEpoch = .ok false := by
  rw [verifySignature, SignatureHeader.read_eq, htext, hv1, Option.bind_some, htimestamp]
  dsimp only
  rw [if_pos hold]
  rfl

/-- A delivery without a timestamp, or without a signature, is rejected. -/
theorem verifySignature_of_none (h : ¬ ∃ text timestamp v1,
      (valuesOf "t" header).getLast? = some text ∧ parseI64 text = some timestamp ∧
        (valuesOf "v1" header).getLast? = some v1) :
    verifySignature hmac header rawBody signingSecret sinceEpoch = .ok false := by
  rw [verifySignature, SignatureHeader.read_eq]
  dsimp only
  split
  · rename_i htimestamp hv1
    obtain ⟨text, htext, hparse⟩ := Option.bind_eq_some_iff.mp htimestamp
    exact absurd ⟨text, _, _, htext, hparse, hv1⟩ h
  · rfl

end

/-- Where the timestamp is written as a number and the last signature is plain, the last element
decides rightly exactly if it is the signature whenever one is. -/
theorem lastDecides_iff_of_plain (hmac : String → String → List UInt8)
    {header rawBody signingSecret : String} {sinceEpoch : Option UInt64} {timestamp : Int64}
    {v1 : List Char} (hv1 : (valuesOf "v1" header).getLast? = some v1)
    (hrecent : Recent sinceEpoch timestamp) (hkeyed : signingSecret ≠ "")
    (hplain : ∀ c ∈ v1, c.utf8Size = 1 ∧ c ≠ '+') :
    LastDecides hmac header rawBody signingSecret sinceEpoch (toString timestamp).toList timestamp v1 ↔
      (Signed hmac header rawBody signingSecret (toString timestamp).toList →
        hexBytes v1 = some (hmac signingSecret (toString timestamp ++ "." ++ rawBody))) := by
  have hlast : LastSigned hmac rawBody signingSecret timestamp v1 ↔
      hexBytes v1 = some (hmac signingSecret (toString timestamp ++ "." ++ rawBody)) := by
    rw [LastSigned, decodeHex_of_plain hplain, Except.ok.injEq]
  rw [← hlast]
  constructor
  · exact fun h hsigned => h.last hrecent hkeyed hsigned
  · intro h
    refine ⟨?_, fun _ => hrecent, fun _ => hkeyed, fun hs => ?_, fun _ _ => h⟩
    · rw [decodeHex_of_plain hplain]
      nofun
    · refine ⟨v1, List.mem_of_getLast? hv1, ?_⟩
      rw [String.ofList_toList]
      exact hlast.mp hs

/-- Deliveries are judged rightly exactly if the last element decides rightly on all whose timestamp
passes the comparison with the clock. -/
theorem acceptsAuthentic_iff (hmac : String → String → List UInt8)
    (header rawBody signingSecret : String) (sinceEpoch : Option UInt64) :
    AcceptsAuthentic hmac header rawBody signingSecret sinceEpoch ↔
      ∀ text timestamp v1, (valuesOf "t" header).getLast? = some text →
        parseI64 text = some timestamp → (valuesOf "v1" header).getLast? = some v1 →
        ¬ signatureToleranceSeconds < (unixSeconds sinceEpoch - timestamp).abs →
        LastDecides hmac header rawBody signingSecret sinceEpoch text timestamp v1 := by
  have hauthentic (timestamp : Int64) (text v1 : List Char)
      (htext : (valuesOf "t" header).getLast? = some text)
      (htimestamp : parseI64 text = some timestamp) :
      Authentic hmac header rawBody signingSecret sinceEpoch ↔
        Recent sinceEpoch timestamp ∧ signingSecret ≠ "" ∧
          Signed hmac header rawBody signingSecret text := by
    constructor
    · rintro ⟨text', timestamp', htext', htimestamp', hauthentic⟩
      obtain rfl := Option.some.inj (htext.symm.trans htext')
      obtain rfl := Option.some.inj (htimestamp.symm.trans htimestamp')
      exact hauthentic
    · exact fun h => ⟨text, timestamp, htext, htimestamp, h⟩
  constructor
  · rintro ⟨accepted, hok, haccepted⟩ text timestamp v1 htext htimestamp hv1 hrecent
    rw [hauthentic timestamp text v1 htext htimestamp] at haccepted
    rw [verifySignature_of_last hmac rawBody signingSecret htext htimestamp hv1 hrecent] at hok
    obtain ⟨bytes, hbytes⟩ : ∃ bytes, decodeHex v1 = .ok bytes := by
      cases hdecoded : decodeHex v1 with
      | error panic =>
        rw [hdecoded] at hok
        cases hok
      | ok bytes => exact ⟨bytes, rfl⟩
    rw [hbytes] at hok
    obtain rfl := Except.ok.inj hok
    have hsigned : LastSigned hmac rawBody signingSecret timestamp v1 ↔
        Recent sinceEpoch timestamp ∧ signingSecret ≠ "" ∧
          Signed hmac header rawBody signingSecret text := by
      rw [← haccepted, decide_eq_true_iff, LastSigned, hbytes, Except.ok.injEq]
    refine ⟨?_, fun h => (hsigned.mp h).1, fun h => (hsigned.mp h).2.1,
      fun h => (hsigned.mp h).2.2, fun hrecent hkeyed hplain => hsigned.mpr ⟨hrecent, hkeyed, hplain⟩⟩
    rw [hbytes]
    nofun
  · intro h
    by_cases hlast : ∃ text timestamp v1, (valuesOf "t" header).getLast? = some text ∧
        parseI64 text = some timestamp ∧ (valuesOf "v1" header).getLast? = some v1
    · obtain ⟨text, timestamp, v1, htext, htimestamp, hv1⟩ := hlast
      rw [AcceptsAuthentic, hauthentic timestamp text v1 htext htimestamp]
      by_cases hrecent : signatureToleranceSeconds < (unixSeconds sinceEpoch - timestamp).abs
      · refine ⟨false, verifySignature_of_old hmac rawBody signingSecret htext htimestamp hv1 hrecent,
          iff_of_false Bool.false_ne_true fun hall => abs_le_of_recent hall.1 hrecent⟩
      · have hdecides := h text timestamp v1 htext htimestamp hv1 hrecent
        rw [verifySignature_of_last hmac rawBody signingSecret htext htimestamp hv1 hrecent]
        cases hdecoded : decodeHex v1 with
        | error panic =>
          cases panic
          exact absurd hdecoded hdecides.unsliced
        | ok bytes =>
          refine ⟨_, rfl, ?_⟩
          have hsigned : LastSigned hmac rawBody signingSecret timestamp v1 ↔
              bytes = some (hmac signingSecret (toString timestamp ++ "." ++ rawBody)) := by
            rw [LastSigned, hdecoded, Except.ok.injEq]
          rw [decide_eq_true_iff, ← hsigned]
          exact ⟨fun hs => ⟨hdecides.recent hs, hdecides.keyed hs, hdecides.plain hs⟩,
            fun hall => hdecides.last hall.1 hall.2.1 hall.2.2⟩
    · refine ⟨false, verifySignature_of_none hmac rawBody signingSecret hlast,
        iff_of_false Bool.false_ne_true ?_⟩
      rintro ⟨text, timestamp, htext, htimestamp, _, _, v1, hv1, _⟩
      cases hgetLast : (valuesOf "v1" header).getLast? with
      | none =>
        rw [List.getLast?_eq_none_iff.mp hgetLast] at hv1
        cases hv1
      | some last => exact hlast ⟨text, timestamp, last, htext, htimestamp, hgetLast⟩

/-- A delivery with the signatures of two secrets is rejected if the last one is the other's. -/
theorem rolled_secret_rejected :
    ¬ ∀ (hmac : String → String → List UInt8) (header rawBody signingSecret : String)
      (sinceEpoch : Option UInt64),
      AcceptsAuthentic hmac header rawBody signingSecret sinceEpoch := by
  intro h
  obtain ⟨accepted, hok, haccepted⟩ := h
    (fun secret _ => if secret = "whsec_new" then [0xab] else [0xcd])
    "t=100,v1=ab,v1=cd" "body" "whsec_new" (some 100)
  have hrejected : verifySignature (fun secret _ => if secret = "whsec_new" then [0xab] else [0xcd])
      "t=100,v1=ab,v1=cd" "body" "whsec_new" (some 100) = .ok false := by
    decide +kernel
  have hrecent : Recent (some 100) 100 := by
    unfold Recent
    decide
  rw [hrejected] at hok
  obtain rfl := Except.ok.inj hok
  exact Bool.false_ne_true (haccepted.mpr ⟨"100".toList, 100, by decide +kernel, by decide +kernel,
    hrecent, by decide, "ab".toList, by decide +kernel, by decide +kernel⟩)

end Rellm.Market
