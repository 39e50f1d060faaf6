import Mathlib.Data.Rat.Defs
import RedcodeIm.Lib.Base64
import RedcodeIm.Database.Models

/-!
# Application payloads

What the three clients write into the plaintext of an encrypted message, and what they make of
it: `buildApplicationPayload` and `decodePayload` of H5, `sendText`, `sendAttachment` and
`decryptIncoming` of Android and iOS.  A payload is a JSON value; each client reads and writes
it with the library of its platform.

* `Json`, `partJson`, `payloadJson` — JSON values, and the shape all three write.
* `Ecma` — the numbers of H5, and how they are printed and read.
* `H5`, `Android`, `Ios` — the clients.
-/

namespace RedcodeIm

open Utf16

/-! ## JSON -/

/-- A JSON value.  A number is the decimal that is written. -/
inductive Json where
  | null
  | bool (value : Bool)
  | number (value : ℚ)
  | string (units : Units)
  | array (items : List Json)
  | object (members : List (String × Json))

namespace Json

def member (key : String) : Json → Option Json
  | object members => members.lookup key
  | _ => none

def string? : Json → Option Units
  | string units => some units
  | _ => none

def number? : Json → Option ℚ
  | number value => some value
  | _ => none

def array? : Json → Option (List Json)
  | array items => some items
  | _ => none

/-- The value is an object with no other keys. -/
def only (keys : List String) : Json → Bool
  | object members => members.all fun m => keys.contains m.1
  | _ => false

/-- The string under a key. -/
def text (key : String) (json : Json) : Option Units := (json.member key).bind string?

/-- The number under a key. -/
def digits (key : String) (json : Json) : Option ℚ := (json.member key).bind number?

/-- An integer within bounds. -/
def integer (least bound : ℤ) (value : ℚ) : Option ℤ :=
  if value.den = 1 ∧ least ≤ value.num ∧ value.num < bound then some value.num else none

end Json

/-- `E2eeAttachmentPart`, and what is stored and sent of it, for the types a client has for its
strings, sizes, positions and bytes. -/
@[ext] structure PayloadPart (T S P B : Type) where
  partKey : T
  objectKey : T
  name : T
  mimeType : T
  size : S
  partPosition : P
  nonce : B
  dek : B

/-- A number, or `null` for what no JSON number stands for. -/
def numberJson : Option ℚ → Json
  | some value => .number value
  | none => .null

/-- A part in a payload. -/
def partJson (part : PayloadPart Units (Option ℚ) (Option ℚ) Units) : Json :=
  .object [("partKey", .string part.partKey), ("objectKey", .string part.objectKey),
    ("name", .string part.name), ("mimeType", .string part.mimeType),
    ("size", numberJson part.size), ("partPosition", numberJson part.partPosition),
    ("nonce", .string part.nonce), ("dek", .string part.dek)]

/-- A payload; `text` and `parts` are left out where there are none. -/
def payloadJson (type : Units) (text : Option Units) (parts : Option (List Json)) : Json :=
  .object ([("version", .number 1), ("type", .string type)] ++
    text.toList.map (fun t => ("text", .string t)) ++
    parts.toList.map fun ps => ("parts", .array ps))

/-- `"text"`. -/
def textType : Units := ofString "text"

/-- `"attachment"`. -/
def attachmentType : Units := ofString "attachment"

/-- `"[加密附件]"`, which the native clients show for attachments without a caption. -/
def placeholder : Units := ofString "[加密附件]"

/-- What a client is asked to send: a text, or attachments that may have a caption. -/
inductive Sending (T P : Type) where
  | text (text : T)
  | attachment (text : Option T) (parts : List P)

def Sending.parts {T P : Type} : Sending T P → List P
  | text _ => []
  | attachment _ parts => parts

/-! ## White space -/

/-- The white space that `trim` of JavaScript takes off. -/
def ecmaSpace (u : UInt16) : Bool :=
  let n := u.toNat
  (0x09 ≤ n && n ≤ 0x0D) || n == 0x20 || n == 0xA0 || n == 0x1680 || (0x2000 ≤ n && n ≤ 0x200A) ||
    n == 0x2028 || n == 0x2029 || n == 0x202F || n == 0x205F || n == 0x3000 || n == 0xFEFF

/-- `Char.isWhitespace` of Kotlin on the JVM. -/
def jvmSpace (u : UInt16) : Bool :=
  let n := u.toNat
  (0x09 ≤ n && n ≤ 0x0D) || (0x1C ≤ n && n ≤ 0x20) || n == 0xA0 || n == 0x1680 ||
    (0x2000 ≤ n && n ≤ 0x200A) || n == 0x2028 || n == 0x2029 || n == 0x202F || n == 0x205F ||
    n == 0x3000

/-- `CharacterSet.whitespacesAndNewlines` of Swift. -/
def swiftSpace (u : UInt16) : Bool :=
  let n := u.toNat
  (0x09 ≤ n && n ≤ 0x0D) || n == 0x20 || n == 0x85 || n == 0xA0 || n == 0x1680 ||
    (0x2000 ≤ n && n ≤ 0x200A) || n == 0x2028 || n == 0x2029 || n == 0x202F || n == 0x205F ||
    n == 0x3000

/-! ## H5 -/

/-- The finite numbers of JavaScript: how one is printed and which one is read, if the decimal
is not too large for one. -/
structure Ecma where
  Number : Type
  value : Number → ℚ
  print : Number → ℚ
  read : ℚ → Option Number
  /-- What is printed stands for the number, and so does its exact value. -/
  read_print : ∀ x, read (print x) = some x
  read_value : ∀ x, read (value x) = some x
  /-- The integers up to `Number.MAX_SAFE_INTEGER` are numbers, and printed as they are. -/
  safe : ∀ n : ℤ, n.natAbs ≤ 9007199254740991 → ∃ x, value x = n ∧ print x = n

/-- A number of JavaScript: one of the finite ones, or else infinite or not a number. -/
inductive JsNumber (ecma : Ecma) where
  | finite (x : ecma.Number)
  | other

namespace H5

variable (ecma : Ecma)

abbrev Part : Type := PayloadPart Units (JsNumber ecma) (JsNumber ecma) Bytes

/-- `JSON.stringify` of a number. -/
def stringify : JsNumber ecma → Option ℚ
  | .finite x => some (ecma.print x)
  | .other => none

/-- `JSON.parse` of a number. -/
def parse (literal : ℚ) : JsNumber ecma :=
  match ecma.read literal with
  | some x => .finite x
  | none => .other

/-- `encodeAttachmentPart`. -/
def encodeAttachmentPart (part : Part ecma) :
    PayloadPart Units (Option ℚ) (Option ℚ) Units where
  partKey := part.partKey
  objectKey := part.objectKey
  name := part.name
  mimeType := part.mimeType
  size := stringify ecma part.size
  partPosition := stringify ecma part.partPosition
  nonce := Base64.encode part.nonce
  dek := Base64.encode part.dek

/-- `buildApplicationPayload`. -/
def buildApplicationPayload (text : Option Units) (parts : List (Part ecma)) : Json :=
  if 0 < parts.length then
    payloadJson attachmentType none
      (some (parts.map fun part => partJson (encodeAttachmentPart ecma part)))
  else payloadJson textType (some (trim ecmaSpace (text.getD []))) none

/-- The check of `preparePayload` on a part. -/
def complete (part : Part ecma) : Bool :=
  !part.partKey.isEmpty && !part.objectKey.isEmpty && part.nonce.length == 12 &&
    part.dek.length == 32

/-- The payload of `preparePayload`, unless it throws before. -/
def preparePayload (text : Option Units) (parts : List (Part ecma)) : Option Json :=
  if parts = [] then
    if (text.map (trim ecmaSpace)).getD [] = [] then none
    else some (buildApplicationPayload ecma text parts)
  else if parts.all (complete ecma) then some (buildApplicationPayload ecma text parts)
  else none

/-- The payload of `prepareText` and `prepareAttachment`. -/
def send : Sending Units (Part ecma) → Option Json
  | .text text => preparePayload ecma (some text) []
  | .attachment text parts => preparePayload ecma text parts

/-- The bytes of `atob`, which skips white space. -/
def base64ToBytes (value : Units) : Option Bytes :=
  Base64.decode false (value.filter fun u => !([9, 10, 12, 13, 32].contains u))

/-- `validateAttachmentPayloadPart` and `decodeAttachmentPart`. -/
def decodeAttachmentPart (row : Json) : Option (Part ecma) := do
  let partKey ← row.text "partKey"
  let objectKey ← row.text "objectKey"
  let name ← row.text "name"
  let mimeType ← row.text "mimeType"
  let size ← row.digits "size"
  let partPosition ← row.digits "partPosition"
  let nonce ← row.text "nonce"
  let dek ← row.text "dek"
  let nonce ← base64ToBytes nonce
  let dek ← base64ToBytes dek
  some { partKey := partKey, objectKey := objectKey, name := name, mimeType := mimeType,
         size := parse ecma size, partPosition := parse ecma partPosition, nonce := nonce,
         dek := dek }

/-- `payload.version !== 1` does not hold. -/
def versionOne (payload : Json) : Bool :=
  match (payload.digits "version").map (parse ecma) with
  | some (.finite x) => ecma.value x == 1
  | _ => false

/-- `decodePayload`: the text of a text message, or the parts of an attachment message. -/
def decodePayload (payload : Json) : Option (Option Units × List (Part ecma)) := do
  let type ← payload.text "type"
  if versionOne ecma payload = false ∨ type ≠ textType ∧ type ≠ attachmentType then none
  else if type = textType then
    let text ← payload.text "text"
    if trim ecmaSpace text = [] then none else some (some text, [])
  else
    let parts ← (payload.member "parts").bind Json.array?
    if parts = [] then none
    else
      let parts ← parts.mapM (decodeAttachmentPart ecma)
      some (none, parts)

end H5

/-! ## Android -/

namespace Android

abbrev Part : Type := PayloadPart Units Int64 Int32 Bytes

/-- `StoredAttachmentPart`. -/
abbrev StoredPart : Type := PayloadPart Units Int64 Int32 Units

/-- `requireValidAttachmentPart`. -/
def validAttachmentPart (part : Part) : Bool :=
  !(blank jvmSpace part.partKey || blank jvmSpace part.objectKey || blank jvmSpace part.name ||
    blank jvmSpace part.mimeType || part.size < 0 || part.partPosition < 0 ||
    part.nonce.length != 12 || part.dek.length != 32)

/-- `toStored`. -/
def toStored (part : Part) : StoredPart :=
  { part with nonce := Base64.encode part.nonce, dek := Base64.encode part.dek }

/-- `toAttachmentPart`. -/
def toAttachmentPart (stored : StoredPart) : Option Part := do
  let nonce ← Base64.decode false stored.nonce
  let dek ← Base64.decode false stored.dek
  some { stored with nonce := nonce, dek := dek }

/-- `ApplicationPayload`. -/
structure ApplicationPayload where
  version : Int32
  type : Units
  text : Option Units
  parts : List StoredPart

/-- `toByteArray` writes a question mark for a surrogate without its other half. -/
def utf8 (s : Units) : Units := replaceUnpaired 63 s

/-- A part in the bytes of `Json.encodeToString`. -/
def encodeStoredPart (stored : StoredPart) : PayloadPart Units (Option ℚ) (Option ℚ) Units where
  partKey := utf8 stored.partKey
  objectKey := utf8 stored.objectKey
  name := utf8 stored.name
  mimeType := utf8 stored.mimeType
  size := some stored.size.toInt
  partPosition := some stored.partPosition.toInt
  nonce := stored.nonce
  dek := stored.dek

/-- The bytes of `Json.encodeToString`, which leaves defaults out. -/
def encodeToString (payload : ApplicationPayload) : Json :=
  payloadJson payload.type (payload.text.map utf8)
    (if payload.parts = [] then none
      else some (payload.parts.map fun stored => partJson (encodeStoredPart stored)))

/-- The payload of `sendText` and of `sendAttachment`, unless they throw before. -/
def send : Sending Units Part → Option Json
  | .text text =>
    let normalized := trim jvmSpace text
    if normalized.isEmpty then none
    else some (encodeToString ⟨1, textType, some normalized, []⟩)
  | .attachment text parts =>
    if parts = [] then none
    else if parts.all validAttachmentPart then
      some (encodeToString ⟨1, attachmentType, (text.map (trim jvmSpace)).filter (! ·.isEmpty),
        parts.map toStored⟩)
    else none

/-- A `Long` and an `Int` in JSON. -/
def long (value : ℚ) : Option Int64 :=
  (Json.integer (-9223372036854775808) 9223372036854775808 value).map Int64.ofInt

def int (value : ℚ) : Option Int32 :=
  (Json.integer (-2147483648) 2147483648 value).map Int32.ofInt

/-- `Json.decodeFromString<StoredAttachmentPart>`: no key may be missing or unknown. -/
def decodeStoredPart (row : Json) : Option StoredPart := do
  if row.only ["partKey", "objectKey", "name", "mimeType", "size", "partPosition", "nonce",
      "dek"] then
    let partKey ← row.text "partKey"
    let objectKey ← row.text "objectKey"
    let name ← row.text "name"
    let mimeType ← row.text "mimeType"
    let size ← (row.digits "size").bind long
    let partPosition ← (row.digits "partPosition").bind int
    let nonce ← row.text "nonce"
    let dek ← row.text "dek"
    some { partKey := partKey, objectKey := objectKey, name := name, mimeType := mimeType,
           size := size, partPosition := partPosition, nonce := nonce, dek := dek }
  else none

/-- A string that may be missing or `null`. -/
def nullableText (key : String) (payload : Json) : Option (Option Units) :=
  match payload.member key with
  | none => some none
  | some .null => some none
  | some (.string units) => some (some units)
  | some _ => none

/-- `Json.decodeFromString<ApplicationPayload>`: `text` and `parts` may be missing. -/
def decodeFromString (payload : Json) : Option ApplicationPayload := do
  if payload.only ["version", "type", "text", "parts"] then
    let version ← (payload.digits "version").bind int
    let type ← payload.text "type"
    let text ← nullableText "text" payload
    let parts ← match payload.member "parts" with
      | none => some []
      | some parts => parts.array?.bind (·.mapM decodeStoredPart)
    some ⟨version, type, text, parts⟩
  else none

/-- What `decryptIncoming` makes of a payload: a text and the attachments. -/
def decryptIncoming (payload : Json) : Option (Units × List Part) := do
  let payload ← decodeFromString payload
  if payload.version ≠ 1 ∨ payload.type ≠ textType ∧ payload.type ≠ attachmentType then none
  else if payload.type = attachmentType then
    if payload.parts = [] then none
    else
      let parts ← payload.parts.mapM fun stored =>
        (toAttachmentPart stored).filter validAttachmentPart
      some (payload.text.getD placeholder, parts)
  else if blank jvmSpace (payload.text.getD []) ∨ payload.parts ≠ [] then none
  else some (payload.text.getD placeholder, [])

end Android

/-! ## iOS -/

namespace Ios

/-- A string of Swift has no surrogates without their other half. -/
abbrev Text : Type := { s : Units // wellFormed s = true }

abbrev Part : Type := PayloadPart Text Int64 UInt32 Bytes

/-- `StoredAttachmentPart`. -/
abbrev StoredPart : Type := PayloadPart Text Int64 UInt32 Units

def isHexDigit (u : UInt16) : Bool :=
  let n := u.toNat
  (48 ≤ n && n ≤ 57) || (65 ≤ n && n ≤ 70) || (97 ≤ n && n ≤ 102)

/-- `UUID(uuidString:)` is not `nil`. -/
def isUuidString (s : Units) : Bool :=
  s.length == 36 && (s.zipIdx.all fun p =>
    if [8, 13, 18, 23].contains p.2 then p.1 == 45 else isHexDigit p.1)

/-- `requireValidAttachmentPart`. -/
def validAttachmentPart (part : Part) : Bool :=
  isUuidString part.partKey.1 && !part.objectKey.1.isEmpty && !part.name.1.isEmpty &&
    !part.mimeType.1.isEmpty && 0 ≤ part.size && part.nonce.length == 12 &&
    part.dek.length == 32

/-- `StoredAttachmentPart.init`. -/
def toStored (part : Part) : StoredPart :=
  { part with nonce := Base64.encode part.nonce, dek := Base64.encode part.dek }

/-- `E2eeAttachmentPart.init`. -/
def toAttachmentPart (stored : StoredPart) : Option Part := do
  let nonce ← Base64.decode true stored.nonce
  let dek ← Base64.decode true stored.dek
  some { stored with nonce := nonce, dek := dek }

/-- `ApplicationPayload`. -/
structure ApplicationPayload where
  version : Int64
  type : Text
  text : Option Text
  parts : Option (List StoredPart)

/-- A part in `JSONEncoder().encode`. -/
def encodeStoredPart (stored : StoredPart) : PayloadPart Units (Option ℚ) (Option ℚ) Units where
  partKey := stored.partKey.1
  objectKey := stored.objectKey.1
  name := stored.name.1
  mimeType := stored.mimeType.1
  size := some stored.size.toInt
  partPosition := some (stored.partPosition.toNat : ℤ)
  nonce := stored.nonce
  dek := stored.dek

/-- `JSONEncoder().encode`, which leaves `nil` out. -/
def encodePayload (payload : ApplicationPayload) : Json :=
  payloadJson payload.type.1 (payload.text.map Subtype.val)
    (payload.parts.map fun parts => parts.map fun stored => partJson (encodeStoredPart stored))

theorem swiftSpace_not_surrogate (u : UInt16) (h : swiftSpace u = true) :
    isSurrogate u = false := by
  simp only [isSurrogate, isHigh, isLow, UInt16.le_iff_toNat_le, swiftSpace, Bool.or_eq_true,
    Bool.and_eq_true, decide_eq_true_eq, beq_iff_eq, Bool.or_eq_false_iff,
    Bool.and_eq_false_iff, decide_eq_false_iff_not, UInt16.reduceToNat] at h ⊢
  omega

/-- `trimmingCharacters(in: .whitespacesAndNewlines)`. -/
def trimmed (text : Text) : Text :=
  ⟨trim swiftSpace text.1, wellFormed_trim swiftSpace_not_surrogate text.2⟩

def textTypeText : Text := ⟨textType, by decide⟩

def attachmentTypeText : Text := ⟨attachmentType, by decide⟩

/-- The payload of `sendText` and of `sendAttachment`, unless they throw before. -/
def send : Sending Text Part → Option Json
  | .text text =>
    let text := trimmed text
    if text.1.isEmpty then none else some (encodePayload ⟨1, textTypeText, some text, none⟩)
  | .attachment text parts =>
    if parts = [] then none
    else if parts.all validAttachmentPart then
      some (encodePayload ⟨1, attachmentTypeText, (text.map trimmed).filter (! ·.1.isEmpty),
        some (parts.map toStored)⟩)
    else none

/-- A `String` in JSON. -/
def stringOf (units : Units) : Option Text :=
  if h : wellFormed units = true then some ⟨units, h⟩ else none

def text (key : String) (json : Json) : Option Text := (json.text key).bind stringOf

/-- An `Int64` and a `UInt32` in JSON. -/
def int64 (value : ℚ) : Option Int64 :=
  (Json.integer (-9223372036854775808) 9223372036854775808 value).map Int64.ofInt

def uint32 (value : ℚ) : Option UInt32 :=
  (Json.integer 0 4294967296 value).map fun n => UInt32.ofNat n.toNat

/-- `JSONDecoder().decode(StoredAttachmentPart.self, …)`. -/
def decodeStoredPart (row : Json) : Option StoredPart := do
  let partKey ← text "partKey" row
  let objectKey ← text "objectKey" row
  let name ← text "name" row
  let mimeType ← text "mimeType" row
  let size ← (row.digits "size").bind int64
  let partPosition ← (row.digits "partPosition").bind uint32
  let nonce ← text "nonce" row
  let dek ← text "dek" row
  some { partKey := partKey, objectKey := objectKey, name := name, mimeType := mimeType,
         size := size, partPosition := partPosition, nonce := nonce.1, dek := dek.1 }

/-- `decodeIfPresent`. -/
def ifPresent {α : Type} (decode : Json → Option α) : Option Json → Option (Option α)
  | none => some none
  | some .null => some none
  | some json => (decode json).map some

/-- `JSONDecoder().decode(ApplicationPayload.self, …)`. -/
def decodePayload (payload : Json) : Option ApplicationPayload := do
  let version ← (payload.digits "version").bind int64
  let type ← text "type" payload
  let text ← ifPresent (fun json => json.string?.bind stringOf) (payload.member "text")
  let parts ← ifPresent (fun json => json.array?.bind (·.mapM decodeStoredPart))
    (payload.member "parts")
  some ⟨version, type, text, parts⟩

/-- What `decryptIncoming` makes of a payload: a text and the attachments. -/
def decryptIncoming (payload : Json) : Option (Units × List Part) := do
  let payload ← decodePayload payload
  let text := payload.text.map Subtype.val
  if payload.version ≠ 1 ∨ payload.type.1 ≠ textType ∧ payload.type.1 ≠ attachmentType then none
  else if payload.type.1 = attachmentType then
    if payload.parts.getD [] = [] then none
    else
      let parts ← (payload.parts.getD []).mapM fun stored =>
        (toAttachmentPart stored).filter validAttachmentPart
      some (text.getD placeholder, parts)
  else if text.getD [] = [] ∨ payload.parts.getD [] ≠ [] then none
  else some (text.getD placeholder, [])

end Ios

end RedcodeIm
