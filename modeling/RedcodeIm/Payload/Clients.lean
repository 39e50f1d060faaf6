import RedcodeIm.Payload.Codecs

/-!
# What a message means to a client

A message that one client sends is to be read by each of the three as what was meant: the
text, or the caption, without the white space at its ends, and the parts in their order.

* `Client`, `Content` — the clients, and what is meant, in the terms of none of them.
* `Client.content`, `Client.shows` — what a message means, and what a client is to show of it.
* `GetsAcross` — when a message gets across from one client to another.
-/

namespace RedcodeIm

open Utf16

/-! ## What is meant -/

inductive Client where
  | h5
  | android
  | ios
  deriving DecidableEq

/-- A part, whatever client it is of; no number where it is infinite or not a number. -/
abbrev ContentPart : Type := PayloadPart Units (Option ℚ) (Option ℚ) Bytes

/-- What a message says. -/
structure Content where
  text : Option Units
  parts : List ContentPart

variable (ecma : Ecma)

namespace JsNumber

variable {ecma}

def value : JsNumber ecma → Option ℚ
  | finite x => some (ecma.value x)
  | other => none

/-- The number is printed as what it is. -/
def Exact : JsNumber ecma → Prop
  | finite x => ecma.print x = ecma.value x
  | other => True

end JsNumber

def H5.content (part : H5.Part ecma) : ContentPart :=
  { part with size := part.size.value, partPosition := part.partPosition.value }

def Android.content (part : Android.Part) : ContentPart :=
  { part with size := some part.size.toInt, partPosition := some part.partPosition.toInt }

def Ios.content (part : Ios.Part) : ContentPart where
  partKey := part.partKey.1
  objectKey := part.objectKey.1
  name := part.name.1
  mimeType := part.mimeType.1
  size := some part.size.toInt
  partPosition := some (part.partPosition.toNat : ℤ)
  nonce := part.nonce
  dek := part.dek

namespace Client

@[reducible] def Text : Client → Type
  | h5 => Units
  | android => Units
  | ios => Ios.Text

@[reducible] def Part : Client → Type
  | h5 => H5.Part ecma
  | android => Android.Part
  | ios => Ios.Part

/-- The payload a client writes, if it accepts the message. -/
def send : (c : Client) → Sending c.Text (c.Part ecma) → Option Json
  | h5 => H5.send ecma
  | android => Android.send
  | ios => Ios.send

def partContent : (c : Client) → c.Part ecma → ContentPart
  | h5 => H5.content ecma
  | android => Android.content
  | ios => Ios.content

/-- What a client reads in a payload. -/
def read : Client → Json → Option Content
  | h5, payload => (H5.decodePayload ecma payload).map fun read =>
    ⟨read.1, read.2.map (H5.content ecma)⟩
  | android, payload => (Android.decryptIncoming payload).map fun read =>
    ⟨some read.1, read.2.map Android.content⟩
  | ios, payload => (Ios.decryptIncoming payload).map fun read =>
    ⟨some read.1, read.2.map Ios.content⟩

/-- A text without the white space at its ends, as the client sees it. -/
def normalized : (c : Client) → c.Text → Units
  | h5, text => trim ecmaSpace text
  | android, text => trim jvmSpace text
  | ios, text => trim swiftSpace text.1

/-- What a message means.  Without parts it is its text. -/
def content (c : Client) (message : Sending c.Text (c.Part ecma)) : Content :=
  match message with
  | .text text => ⟨some (c.normalized text), []⟩
  | .attachment text [] => ⟨text.map c.normalized, []⟩
  | .attachment text parts =>
    ⟨(text.map c.normalized).filter (! ·.isEmpty), parts.map (c.partContent ecma)⟩

/-- What a client is to show of a message: the native ones have a text for attachments that
have no caption. -/
def shows : Client → Content → Content
  | h5, content => content
  | _, content => { content with text := some (content.text.getD placeholder) }

/-! ## What gets across -/

/-- The part is one of the client, and one it takes. -/
def Takes : Client → ContentPart → Prop
  | h5, content => ∃ part : H5.Part ecma, H5.content ecma part = content ∧
    part.size ≠ .other ∧ part.partPosition ≠ .other
  | android, content => ∃ part, Android.content part = content ∧
    Android.validAttachmentPart part = true
  | ios, content => ∃ part, Ios.content part = content ∧ Ios.validAttachmentPart part = true

end Client

/-- A string gets across: Android cannot write a surrogate without its other half, and iOS
cannot read one. -/
def StringFits (sender receiver : Client) (s : Units) : Prop :=
  sender = .android ∨ receiver = .ios → wellFormed s = true

/-- A text gets across if it is none that the receiver takes to be blank. -/
def TextFits (sender receiver : Client) (text : Units) : Prop :=
  StringFits sender receiver text ∧ match receiver with
    | .h5 => blank ecmaSpace text = false
    | .android => blank jvmSpace text = false
    | .ios => text ≠ []

/-- A caption gets across.  H5 neither writes nor reads one. -/
def CaptionFits (sender receiver : Client) (caption : Option Units) : Prop :=
  match sender, receiver with
  | _, .h5 => caption = none
  | .h5, _ => caption = none ∨ caption = some placeholder
  | _, _ => ∀ text ∈ caption, StringFits sender receiver text

/-- The sizes and positions of H5 are printed as what they are. -/
def ExactPart : (sender : Client) → sender.Part ecma → Prop
  | .h5, part => part.size.Exact ∧ part.partPosition.Exact
  | _, _ => True

/-- A part gets across: its strings do, the receiver takes it, and unless that is H5, its
numbers are printed as what they are. -/
structure PartFits (sender receiver : Client) (part : sender.Part ecma) : Prop where
  partKey : StringFits sender receiver (sender.partContent ecma part).partKey
  objectKey : StringFits sender receiver (sender.partContent ecma part).objectKey
  name : StringFits sender receiver (sender.partContent ecma part).name
  mimeType : StringFits sender receiver (sender.partContent ecma part).mimeType
  exact : receiver ≠ .h5 → ExactPart ecma sender part
  takes : receiver.Takes ecma (sender.partContent ecma part)

/-- **When a message gets across.** -/
def GetsAcross (sender receiver : Client)
    (message : Sending sender.Text (sender.Part ecma)) : Prop :=
  if message.parts = [] then
    ∀ text ∈ (sender.content ecma message).text, TextFits sender receiver text
  else CaptionFits sender receiver (sender.content ecma message).text ∧
    ∀ part ∈ message.parts, PartFits ecma sender receiver part

end RedcodeIm
