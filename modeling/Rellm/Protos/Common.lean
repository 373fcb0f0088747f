import Mathlib.Data.List.Dedup

/-!
# Wire conventions shared by the messages

Status replies, timestamps and enumerations. A message carries an enumeration as
its raw `i32`; a database column carries a list of enumeration names as a JSON
array, read leniently: anything that is not a known name is skipped.
-/

namespace Rellm

/-- The gRPC status codes the modelled handlers answer with. -/
inductive Code where
  | internal
  | invalidArgument
  | failedPrecondition
  | unauthenticated
  | unimplemented
  | notFound
  | aborted
  | permissionDenied
  | alreadyExists
  deriving DecidableEq, Repr

/-- An error reply of an RPC. -/
structure Status where
  code : Code
  message : String
  deriving DecidableEq, Repr

/-- The errors that HTTP endpoints answer with. -/
inductive HttpStatus where
  | badRequest
  | forbidden
  | notFound
  | payloadTooLarge
  | internalServerError
  deriving DecidableEq, Repr

/-- How a handler can fail to answer: an error reply, or an aborted process. -/
inductive Failure where
  | status (reply : Status)
  | panic
  deriving DecidableEq, Repr

/-- A `google.protobuf.Timestamp`. -/
structure Timestamp where
  seconds : Int64
  nanos : Int32
  deriving DecidableEq, Repr

/-- ASCII-only case-insensitive string comparison. -/
def eqIgnoreAsciiCase (a b : String) : Bool :=
  a.toList.map Char.toLower == b.toList.map Char.toLower

/-- A JSON column meant to hold an array of names; `none` entries are not strings. -/
inductive NamesJson where
  | array (entries : List (Option String))
  | other
  deriving DecidableEq, Repr

/-- Every entry of the array that is a known name, in order. -/
def NamesJson.decode {α : Type} (ofName : String → Option α) : NamesJson → List α
  | .array entries => entries.filterMap fun entry => entry.bind ofName
  | .other => []

/-- The JSON array of the given values' names. -/
def NamesJson.encode {α : Type} (name : α → String) (values : List α) : NamesJson :=
  .array (values.map fun value => some (name value))

/-- The characters with the Unicode `White_Space` property. -/
def isWhitespace (c : Char) : Bool :=
  (9 ≤ c.toNat && c.toNat ≤ 13) || c.toNat = 0x20 || c.toNat = 0x85 || c.toNat = 0xA0 ||
    c.toNat = 0x1680 || (0x2000 ≤ c.toNat && c.toNat ≤ 0x200A) || c.toNat = 0x2028 ||
    c.toNat = 0x2029 || c.toNat = 0x202F || c.toNat = 0x205F || c.toNat = 0x3000

/-- A text without the whitespace at both of its ends. -/
def trim (text : String) : String :=
  String.ofList (((text.toList.dropWhile isWhitespace).reverse.dropWhile isWhitespace).reverse)

/-- Keeps the first occurrence of every value, as `Itertools::unique` does. -/
def unique {α : Type} [DecidableEq α] : List α → List α
  | [] => []
  | a :: values => a :: (unique values).filter (· ≠ a)

@[simp] theorem mem_unique {α : Type} [DecidableEq α] {a : α} {values : List α} :
    a ∈ unique values ↔ a ∈ values := by
  induction values with
  | nil => simp [unique]
  | cons b values ih =>
    by_cases h : a = b
    · simp [unique, h]
    · simp [unique, h, ih]

theorem unique_nodup {α : Type} [DecidableEq α] (values : List α) : (unique values).Nodup := by
  induction values with
  | nil => exact List.nodup_nil
  | cons a values ih =>
    rw [unique, List.nodup_cons]
    exact ⟨fun h => by simpa using (List.mem_filter.mp h).2, ih.filter _⟩

/-- The visibility of a piece of content. -/
inductive Visibility where
  | unknown
  | «private»
  | limited
  | serverPublic
  | globalPublic
  | direct
  | licensed
  deriving DecidableEq, Repr

/-- The raw enumeration value of a visibility. -/
def Visibility.toI32 : Visibility → Int32
  | .unknown => 0
  | .«private» => 1
  | .limited => 2
  | .serverPublic => 3
  | .globalPublic => 4
  | .direct => 5
  | .licensed => 6

/-- The moderation state of a piece of content. -/
inductive Moderation where
  | unknown
  | unmoderated
  | pending
  | approved
  | rejected
  deriving DecidableEq, Repr

/-- The raw enumeration value of a moderation state. -/
def Moderation.toI32 : Moderation → Int32
  | .unknown => 0
  | .unmoderated => 1
  | .pending => 2
  | .approved => 3
  | .rejected => 4

end Rellm
