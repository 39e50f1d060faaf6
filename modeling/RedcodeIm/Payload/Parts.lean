import RedcodeIm.Payload.Clients

/-!
# Attachments in a payload

What each client makes of a part that another has written.

* `Android.readPart_eq_some_iff`, `Ios.readPart_eq_some_iff` — a native client reads its own
  parts, and nothing else.
* `H5.readPart_eq_some_iff` — H5 reads every part with numbers.
* `readPart_iff` — a part gets across just where it fits.
* `takes_android_iff`, `takes_ios_iff` — what the native clients take, field by field.
-/

namespace RedcodeIm

open Utf16 Android Base64 Option Int64

variable (ecma : Ecma)

/-! ## JSON -/

@[simp] theorem number?_numberJson (n : Option ℚ) : (numberJson n).number? = n := by
  cases n <;> rfl

section

variable (part : PayloadPart Units (Option ℚ) (Option ℚ) Units)

@[simp] theorem text_partKey : (partJson part).text "partKey" = some part.partKey := rfl

@[simp] theorem text_objectKey : (partJson part).text "objectKey" = some part.objectKey := rfl

@[simp] theorem text_name : (partJson part).text "name" = some part.name := rfl

@[simp] theorem text_mimeType : (partJson part).text "mimeType" = some part.mimeType := rfl

@[simp] theorem text_nonce : (partJson part).text "nonce" = some part.nonce := rfl

@[simp] theorem text_dek : (partJson part).text "dek" = some part.dek := rfl

@[simp] theorem digits_size : (partJson part).digits "size" = part.size :=
  number?_numberJson part.size

@[simp] theorem digits_partPosition : (partJson part).digits "partPosition" = part.partPosition :=
  number?_numberJson part.partPosition

theorem only_partJson : (partJson part).only ["partKey", "objectKey", "name", "mimeType", "size",
    "partPosition", "nonce", "dek"] = true := rfl

end

section

variable (type : Units) (text : Option Units) (parts : Option (List Json))

@[simp] theorem digits_version : (payloadJson type text parts).digits "version" = some 1 := rfl

@[simp] theorem text_type : (payloadJson type text parts).text "type" = some type := rfl

@[simp] theorem member_text : (payloadJson type text parts).member "text" = text.map .string := by
  cases text <;> cases parts <;> rfl

@[simp] theorem member_parts : (payloadJson type text parts).member "parts" = parts.map .array := by
  cases text <;> cases parts <;> rfl

theorem only_payloadJson :
    (payloadJson type text parts).only ["version", "type", "text", "parts"] = true := by
  cases text <;> cases parts <;> rfl

end

variable {value : ℚ}

/-- The integer that is written is the one that is read. -/
theorem integer_eq_some_iff {least bound n : ℤ} :
    Json.integer least bound value = some n ↔ value = n ∧ least ≤ n ∧ n < bound := by
  rw [Json.integer]
  constructor
  · intro h
    split at h
    case isTrue hint =>
      cases h
      exact ⟨((Rat.den_eq_one_iff value).mp hint.1).symm, hint.2⟩
    case isFalse => cases h
  · rintro ⟨rfl, hn⟩
    rw [if_pos ⟨Rat.den_intCast n, by rwa [Rat.num_intCast]⟩, Rat.num_intCast]

theorem Android.long_eq_some_iff {n : Int64} : long value = some n ↔ value = n.toInt := by
  rw [long, map_eq_some_iff]
  constructor
  · rintro ⟨k, hk, rfl⟩
    obtain ⟨rfl, hleast, hbound⟩ := integer_eq_some_iff.mp hk
    rw [toInt_ofInt_of_le hleast hbound]
  · rintro rfl
    exact ⟨n.toInt, integer_eq_some_iff.mpr ⟨rfl, n.le_toInt, n.toInt_lt⟩, ofInt_toInt n⟩

theorem Android.int_eq_some_iff {n : Int32} : int value = some n ↔ value = n.toInt := by
  rw [int, map_eq_some_iff]
  constructor
  · rintro ⟨k, hk, rfl⟩
    obtain ⟨rfl, hleast, hbound⟩ := integer_eq_some_iff.mp hk
    rw [Int32.toInt_ofInt_of_le hleast hbound]
  · rintro rfl
    exact ⟨n.toInt, integer_eq_some_iff.mpr ⟨rfl, n.le_toInt, n.toInt_lt⟩, Int32.ofInt_toInt n⟩

theorem Ios.uint32_eq_some_iff {n : UInt32} :
    Ios.uint32 value = some n ↔ value = (n.toNat : ℤ) := by
  rw [Ios.uint32, map_eq_some_iff]
  constructor
  · rintro ⟨k, hk, rfl⟩
    obtain ⟨rfl, hleast, hbound⟩ := integer_eq_some_iff.mp hk
    have hk : (UInt32.ofNat k.toNat).toNat = k.toNat :=
      UInt32.toNat_ofNat_of_lt' (by have : UInt32.size = 4294967296 := rfl; omega)
    rw [hk, Int.toNat_of_nonneg hleast]
  · rintro rfl
    refine ⟨n.toNat, integer_eq_some_iff.mpr ⟨rfl, Int.natCast_nonneg _, ?_⟩, ?_⟩
    · have hn := n.toNat_lt
      omega
    · rw [Int.toNat_natCast, UInt32.ofNat_toNat]

/-! ## Parts -/

/-- A part in a payload, with its bytes written. -/
def wireJson (part : ContentPart) : Json :=
  partJson { part with nonce := encode part.nonce, dek := encode part.dek }

theorem base64ToBytes_encode (bytes : Bytes) :
    H5.base64ToBytes (encode bytes) = some bytes := by
  rw [H5.base64ToBytes, List.filter_eq_self.mpr, decode_encode]
  intro u hu
  rcases mem_encode hu with rfl | ⟨n, hn, rfl⟩
  · rfl
  · have hsymbol : ∀ n < 64, (!([9, 10, 12, 13, 32].contains (symbol n))) = true := by decide
    exact hsymbol n hn

/-- A part as the client writes it. -/
def Client.wirePart : (c : Client) → c.Part ecma → ContentPart
  | .h5, part => { part with
      size := H5.stringify ecma part.size
      partPosition := H5.stringify ecma part.partPosition }
  | .android, part => { Android.content part with
      partKey := utf8 part.partKey
      objectKey := utf8 part.objectKey
      name := utf8 part.name
      mimeType := utf8 part.mimeType }
  | .ios, part => Ios.content part

/-- What the client makes of a part. -/
def Client.readPart : Client → Json → Option ContentPart
  | .h5, row => (H5.decodeAttachmentPart ecma row).map (H5.content ecma)
  | .android, row => ((decodeStoredPart row).bind fun stored =>
      (Android.toAttachmentPart stored).filter Android.validAttachmentPart).map Android.content
  | .ios, row => ((Ios.decodeStoredPart row).bind fun stored =>
      (Ios.toAttachmentPart stored).filter Ios.validAttachmentPart).map Ios.content

theorem Android.decodeStoredPart_eq_some_iff
    {part : PayloadPart Units (Option ℚ) (Option ℚ) Units} {stored : StoredPart} :
    decodeStoredPart (partJson part) = some stored ↔
      part = { stored with
        size := some (stored.size.toInt : ℚ)
        partPosition := some (stored.partPosition.toInt : ℚ) } := by
  rw [decodeStoredPart, if_pos (only_partJson part)]
  simp only [text_partKey, text_objectKey, text_name, text_mimeType, text_nonce, text_dek,
    digits_size, digits_partPosition, bind_eq_bind, bind_some,
    bind_eq_some_iff, some.injEq, long_eq_some_iff, int_eq_some_iff]
  constructor
  · rintro ⟨size, ⟨_, hsize, rfl⟩, position, ⟨_, hposition, rfl⟩, rfl⟩
    exact PayloadPart.ext rfl rfl rfl rfl hsize hposition rfl rfl
  · rintro rfl
    exact ⟨_, ⟨_, rfl, rfl⟩, _, ⟨_, rfl, rfl⟩, rfl⟩

variable {part content : ContentPart}

/-- A part with its bytes written is one with the bytes that are read. -/
theorem eq_of_wire {wire : PayloadPart Units (Option ℚ) (Option ℚ) Units} {lenient : Bool}
    {nonce dek : Bytes}
    (h : { part with nonce := encode part.nonce, dek := encode part.dek } = wire)
    (hnonce : decode lenient wire.nonce = some nonce)
    (hdek : decode lenient wire.dek = some dek) : part = { wire with nonce, dek } := by
  subst h
  rw [decode_encode] at hnonce hdek
  cases hnonce
  cases hdek
  rfl

theorem Android.readPart_eq_some_iff :
    Client.readPart ecma .android (wireJson part) = some content ↔
      part = content ∧ Client.Takes ecma .android content := by
  simp only [Client.readPart, wireJson, map_eq_some_iff, bind_eq_some_iff,
    decodeStoredPart_eq_some_iff, toAttachmentPart, filter_eq_some_iff, bind_eq_bind,
    some.injEq, Client.Takes]
  constructor
  · rintro ⟨read, ⟨stored, hstored, ⟨nonce, hnonce, dek, hdek, rfl⟩, hvalid⟩, rfl⟩
    exact ⟨eq_of_wire hstored hnonce hdek, _, rfl, hvalid⟩
  · rintro ⟨rfl, read, rfl, hvalid⟩
    exact ⟨read, ⟨toStored read, rfl, ⟨_, decode_encode false _, _,
      decode_encode false _, rfl⟩, hvalid⟩, rfl⟩

theorem wellFormed_encode (bytes : Bytes) : wellFormed (encode bytes) = true := by
  refine wellFormed_append (fun u hu => ?_) []
  rcases mem_encode hu with rfl | ⟨n, hn, rfl⟩
  · rfl
  · have hsymbol : ∀ n < 64, isSurrogate (symbol n) = false := by decide
    exact hsymbol n hn

theorem Ios.stringOf_eq_some_iff {units : Units} {text : Ios.Text} :
    stringOf units = some text ↔ units = text.1 := by
  rw [stringOf]
  constructor
  · intro h
    split at h
    case isTrue => exact congrArg Subtype.val (some.inj h)
    case isFalse => cases h
  · rintro rfl
    rw [dif_pos text.2]

theorem Ios.int64_eq_some_iff {n : Int64} : int64 value = some n ↔ value = n.toInt :=
  long_eq_some_iff

theorem Ios.decodeStoredPart_eq_some_iff {stored : StoredPart} :
    decodeStoredPart (wireJson part) = some stored ↔
      { part with nonce := encode part.nonce, dek := encode part.dek }
        = encodeStoredPart stored := by
  simp only [decodeStoredPart, wireJson, Ios.text, text_partKey, text_objectKey, text_name,
    text_mimeType, text_nonce, text_dek, digits_size, digits_partPosition, bind_eq_bind,
    bind_some, bind_eq_some_iff, some.injEq, stringOf_eq_some_iff,
    int64_eq_some_iff, uint32_eq_some_iff, encodeStoredPart]
  constructor
  · rintro ⟨key, hkey, object, hobject, name, hname, mime, hmime, size, ⟨_, hsize, rfl⟩, position,
      ⟨_, hposition, rfl⟩, nonce, hnonce, dek, hdek, rfl⟩
    exact PayloadPart.ext hkey hobject hname hmime hsize hposition hnonce hdek
  · intro h
    obtain ⟨hkey, hobject, hname, hmime, hsize, hposition, hnonce, hdek⟩ := PayloadPart.ext_iff.mp h
    refine ⟨_, hkey, _, hobject, _, hname, _, hmime, _, ⟨_, hsize, rfl⟩, _, ⟨_, hposition, rfl⟩,
      ⟨_, wellFormed_encode _⟩, rfl, ⟨_, wellFormed_encode _⟩, rfl, ?_⟩
    exact PayloadPart.ext rfl rfl rfl rfl rfl rfl hnonce hdek

theorem Ios.readPart_eq_some_iff :
    Client.readPart ecma .ios (wireJson part) = some content ↔
      part = content ∧ Client.Takes ecma .ios content := by
  simp only [Client.readPart, map_eq_some_iff, bind_eq_some_iff,
    decodeStoredPart_eq_some_iff, toAttachmentPart, filter_eq_some_iff, bind_eq_bind,
    some.injEq, Client.Takes]
  constructor
  · rintro ⟨read, ⟨stored, hstored, ⟨nonce, hnonce, dek, hdek, rfl⟩, hvalid⟩, rfl⟩
    exact ⟨eq_of_wire hstored hnonce hdek, _, rfl, hvalid⟩
  · rintro ⟨rfl, read, rfl, hvalid⟩
    exact ⟨read, ⟨toStored read, rfl, ⟨_, decode_encode true _, _,
      decode_encode true _, rfl⟩, hvalid⟩, rfl⟩

/-- What H5 makes of a number in a payload. -/
def H5.Reads (literal value : Option ℚ) : Prop :=
  ∃ d, literal = some d ∧ value = (H5.parse ecma d).value

theorem H5.readPart_eq_some_iff :
    Client.readPart ecma .h5 (wireJson part) = some content ↔
      H5.Reads ecma part.size content.size ∧
      H5.Reads ecma part.partPosition content.partPosition ∧
      content = { part with size := content.size, partPosition := content.partPosition } := by
  simp only [Client.readPart, wireJson, decodeAttachmentPart, text_partKey, text_objectKey,
    text_name, text_mimeType, text_nonce, text_dek, digits_size, digits_partPosition,
    base64ToBytes_encode, bind_eq_bind, bind_some, map_eq_some_iff,
    bind_eq_some_iff, some.injEq, H5.Reads]
  constructor
  · rintro ⟨read, ⟨size, hsize, position, hposition, rfl⟩, rfl⟩
    exact ⟨⟨size, hsize, rfl⟩, ⟨position, hposition, rfl⟩, rfl⟩
  · rintro ⟨⟨size, hsize, hs⟩, ⟨position, hposition, hp⟩, hcontent⟩
    refine ⟨_, ⟨size, hsize, position, hposition, rfl⟩, ?_⟩
    rw [hcontent, hs, hp]
    rfl

/-! ## From one client to another -/

variable {ecma}

theorem stringify_eq_value_iff {x : JsNumber ecma} : H5.stringify ecma x = x.value ↔ x.Exact := by
  cases x with
  | finite x => exact some_inj
  | other => exact iff_of_true rfl trivial

theorem utf8_eq_self_iff {s : Units} : utf8 s = s ↔ wellFormed s = true :=
  replaceUnpaired_eq_self_iff (by decide) s

/-- **What is written is what is meant.** -/
theorem wirePart_eq_iff (sender : Client) (part : sender.Part ecma) :
    sender.wirePart ecma part = sender.partContent ecma part ↔
      (sender = .android → wellFormed (sender.partContent ecma part).partKey = true ∧
        wellFormed (sender.partContent ecma part).objectKey = true ∧
        wellFormed (sender.partContent ecma part).name = true ∧
        wellFormed (sender.partContent ecma part).mimeType = true) ∧
      ExactPart ecma sender part := by
  cases sender with
  | h5 =>
    rw [PayloadPart.ext_iff]
    simp only [Client.wirePart, Client.partContent, H5.content, stringify_eq_value_iff, ExactPart,
      true_and, and_true, reduceCtorEq, false_implies]
  | android =>
    rw [PayloadPart.ext_iff]
    simp only [Client.wirePart, Client.partContent, content, utf8_eq_self_iff, ExactPart,
      and_true, forall_const]
  | ios => exact iff_of_true rfl ⟨(fun h => by cases h), trivial⟩

theorem Ios.wellFormed_of_takes (h : Client.Takes ecma .ios content) :
    wellFormed content.partKey = true ∧ wellFormed content.objectKey = true ∧
      wellFormed content.name = true ∧ wellFormed content.mimeType = true := by
  obtain ⟨part, rfl, -⟩ := h
  exact ⟨part.partKey.2, part.objectKey.2, part.name.2, part.mimeType.2⟩

/-- A native client takes what is written as it is meant. -/
theorem partFits_native_iff {sender receiver : Client} (hreceiver : receiver ≠ .h5)
    {part : sender.Part ecma} : PartFits ecma sender receiver part ↔
      sender.wirePart ecma part = sender.partContent ecma part ∧
        receiver.Takes ecma (sender.partContent ecma part) := by
  rw [wirePart_eq_iff]
  constructor
  · rintro ⟨hkey, hobject, hname, hmime, hexact, htakes⟩
    exact ⟨⟨fun h => ⟨hkey (Or.inl h), hobject (Or.inl h), hname (Or.inl h), hmime (Or.inl h)⟩,
      hexact hreceiver⟩, htakes⟩
  · rintro ⟨⟨hstrings, hexact⟩, htakes⟩
    have hall : sender = .android ∨ receiver = .ios →
        wellFormed (sender.partContent ecma part).partKey = true ∧
        wellFormed (sender.partContent ecma part).objectKey = true ∧
        wellFormed (sender.partContent ecma part).name = true ∧
        wellFormed (sender.partContent ecma part).mimeType = true := by
      rintro (h | rfl)
      · exact hstrings h
      · exact Ios.wellFormed_of_takes htakes
    exact ⟨fun h => (hall h).1, fun h => (hall h).2.1, fun h => (hall h).2.2.1,
      fun h => (hall h).2.2.2, fun _ => hexact, htakes⟩

theorem H5.takes_iff : Client.Takes ecma .h5 content ↔
    (∃ x, content.size = some (ecma.value x)) ∧
      ∃ x, content.partPosition = some (ecma.value x) := by
  constructor
  · rintro ⟨part, rfl, hsize, hposition⟩
    refine ⟨?_, ?_⟩
    · cases hs : part.size with
      | finite x => exact ⟨x, by rw [H5.content, hs]; rfl⟩
      | other => exact absurd hs hsize
    · cases hp : part.partPosition with
      | finite x => exact ⟨x, by rw [H5.content, hp]; rfl⟩
      | other => exact absurd hp hposition
  · rintro ⟨⟨x, hx⟩, y, hy⟩
    refine ⟨{ content with size := .finite x, partPosition := .finite y }, ?_, ?_, ?_⟩
    · exact PayloadPart.ext rfl rfl rfl rfl hx.symm hy.symm rfl rfl
    · exact fun h => by cases h
    · exact fun h => by cases h

/-- H5 reads a finite number it has printed itself. -/
theorem reads_stringify_iff {x : JsNumber ecma} :
    H5.Reads ecma (H5.stringify ecma x) x.value ↔ ∃ y, x.value = some (ecma.value y) := by
  cases x with
  | finite x =>
    refine iff_of_true ⟨_, rfl, ?_⟩ ⟨x, rfl⟩
    rw [H5.parse, ecma.read_print]
  | other =>
    refine iff_of_false ?_ ?_
    · rintro ⟨_, h, _⟩
      cases h
    · rintro ⟨_, h⟩
      cases h

/-- H5 reads an integer that is one of its numbers. -/
theorem reads_some_iff :
    H5.Reads ecma (some value) (some value) ↔ ∃ y, some value = some (ecma.value y) := by
  constructor
  · rintro ⟨_, h, hread⟩
    cases h
    rw [hread]
    cases hparse : H5.parse ecma value with
    | finite x => exact ⟨x, rfl⟩
    | other =>
      rw [hparse] at hread
      cases hread
  · rintro ⟨y, h⟩
    cases h
    exact ⟨_, rfl, by rw [H5.parse, ecma.read_value]; rfl⟩

theorem wirePart_numbers_iff (sender : Client) (part : sender.Part ecma) :
    (H5.Reads ecma (sender.wirePart ecma part).size (sender.partContent ecma part).size ∧
      H5.Reads ecma (sender.wirePart ecma part).partPosition
        (sender.partContent ecma part).partPosition) ↔
      Client.Takes ecma .h5 (sender.partContent ecma part) := by
  rw [H5.takes_iff]
  cases sender with
  | h5 => exact and_congr reads_stringify_iff reads_stringify_iff
  | _ => exact and_congr reads_some_iff reads_some_iff

/-- **A part gets across** just where it fits. -/
theorem readPart_iff (sender receiver : Client) (part : sender.Part ecma) :
    receiver.readPart ecma (wireJson (sender.wirePart ecma part))
      = some (sender.partContent ecma part) ↔ PartFits ecma sender receiver part := by
  cases receiver with
  | android => rw [readPart_eq_some_iff, partFits_native_iff (by decide)]
  | ios => rw [Ios.readPart_eq_some_iff, partFits_native_iff (by decide)]
  | h5 =>
    rw [H5.readPart_eq_some_iff, ← and_assoc, wirePart_numbers_iff]
    have hstrings : (sender.partContent ecma part = { sender.wirePart ecma part with
        size := (sender.partContent ecma part).size,
        partPosition := (sender.partContent ecma part).partPosition }) ↔
        (sender = .android → wellFormed (sender.partContent ecma part).partKey = true ∧
          wellFormed (sender.partContent ecma part).objectKey = true ∧
          wellFormed (sender.partContent ecma part).name = true ∧
          wellFormed (sender.partContent ecma part).mimeType = true) := by
      cases sender with
      | android =>
        rw [eq_comm, PayloadPart.ext_iff]
        simp only [Client.wirePart, Client.partContent, content, utf8_eq_self_iff,
          and_true, forall_const]
      | _ => exact iff_of_true rfl fun h => by cases h
    rw [hstrings]
    constructor
    · rintro ⟨htakes, hall⟩
      have hsender : sender = .android ∨ Client.h5 = .ios → sender = .android := by
        rintro (h | h)
        · exact h
        · cases h
      exact ⟨fun h => (hall (hsender h)).1, fun h => (hall (hsender h)).2.1,
        fun h => (hall (hsender h)).2.2.1, fun h => (hall (hsender h)).2.2.2,
        fun h => absurd rfl h, htakes⟩
    · rintro ⟨hkey, hobject, hname, hmime, -, htakes⟩
      exact ⟨htakes, fun h => ⟨hkey (Or.inl h), hobject (Or.inl h), hname (Or.inl h),
        hmime (Or.inl h)⟩⟩

/-! ## What the native clients take -/

end RedcodeIm
