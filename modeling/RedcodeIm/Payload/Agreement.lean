import RedcodeIm.Payload.Parts

/-!
# Whether the clients understand one another

* `read_h5_attachment`, `read_android_attachment`, `read_ios_attachment`, `read_h5_text`,
  `read_android_text`, `read_ios_text` — what a client reads in a payload.
* `send_text`, `send_attachment` — what a client writes.
* `payload_agreement` — a message gets across just where it fits.
* `caption_dropped` — not every message does.
-/

namespace RedcodeIm

open Utf16 Client Option

variable {ecma : Ecma}

/-! ## Messages -/

section

variable {α β γ : Type} {f : α → Option β} {g : β → Option γ}

theorem mapM_some_bind : ∀ xs : List α, (xs.mapM f).bind (·.mapM g) = xs.mapM fun x => (f x).bind g
  | [] => rfl
  | x :: xs => by
    rw [List.mapM_cons, List.mapM_cons, ← mapM_some_bind xs]
    cases f x with
    | none => rfl
    | some y =>
      cases xs.mapM f with
      | none => exact (bind_eq_none_iff.mpr fun _ _ => rfl).symm
      | some ys => exact List.mapM_cons

theorem mapM_some_map {h : β → γ} : ∀ xs : List α,
    (xs.mapM f).map (·.map h) = xs.mapM fun x => (f x).map h
  | [] => rfl
  | x :: xs => by
    rw [List.mapM_cons, List.mapM_cons, ← mapM_some_map xs]
    cases f x with
    | none => rfl
    | some y => cases xs.mapM f <;> rfl

theorem mapM_eq_some_map_iff {h : α → β} : ∀ xs : List α,
    xs.mapM f = some (xs.map h) ↔ ∀ x ∈ xs, f x = some (h x)
  | [] => by simp
  | x :: xs => by
    rw [List.forall_mem_cons, ← mapM_eq_some_map_iff xs, List.mapM_cons, List.map_cons]
    cases f x with
    | none => simp
    | some y =>
      cases xs.mapM f with
      | none | some => simp

end

/-- What a client shows of a text for attachments. -/
def Client.caption : Client → Option Units → Option Units
  | .h5, _ => none
  | _, text => some (text.getD placeholder)

section

variable (type : Units) (text : Option Units) (rows : Option (List Json))

theorem H5.versionOne_payloadJson : versionOne ecma (payloadJson type text rows) = true := by
  obtain ⟨x, hx, -⟩ := ecma.safe 1 (by decide)
  have hone : ecma.value x = 1 := hx
  have hread : ecma.read 1 = some x := by rw [← ecma.read_value x, hone]
  rw [versionOne, digits_version, map_some, parse, hread]
  exact beq_iff_eq.mpr hone

theorem Android.decodeFromString_payloadJson :
    decodeFromString (payloadJson type text rows)
      = ((rows.getD []).mapM decodeStoredPart).map fun parts => ⟨1, type, text, parts⟩ := by
  have hversion : int 1 = some 1 := int_eq_some_iff.mpr rfl
  have htext : nullableText "text" (payloadJson type text rows) = some text := by
    rw [nullableText, member_text]
    cases text <;> rfl
  rw [decodeFromString, if_pos (only_payloadJson type text rows)]
  simp only [digits_version, text_type, member_parts, bind_eq_bind, bind_some,
    hversion, htext]
  cases rows with
  | none => rfl
  | some rows =>
    show (rows.mapM decodeStoredPart).bind _ = (rows.mapM decodeStoredPart).map _
    cases rows.mapM decodeStoredPart <;> rfl

theorem Ios.decodePayload_payloadJson (type : Ios.Text) (text : Option Ios.Text) :
    decodePayload (payloadJson type.1 (text.map Subtype.val) rows)
      = match rows with
        | none => some ⟨1, type, text, none⟩
        | some rows =>
          (rows.mapM decodeStoredPart).map fun parts => ⟨1, type, text, some parts⟩ := by
  have hversion : int64 1 = some 1 := int64_eq_some_iff.mpr rfl
  have hstring : ∀ t : Ios.Text, stringOf t.1 = some t := fun t => stringOf_eq_some_iff.mpr rfl
  have htext : ifPresent (fun json => json.string?.bind stringOf)
      ((text.map Subtype.val).map Json.string) = some text := by
    cases text with
    | none => rfl
    | some t => exact congrArg (Option.map some) (hstring t)
  simp only [decodePayload, Ios.text, digits_version, text_type, member_text, member_parts,
    bind_eq_bind, bind_some, hversion, hstring, htext]
  cases rows with
  | none => rfl
  | some rows =>
    show ((rows.mapM decodeStoredPart).map some).bind _ = (rows.mapM decodeStoredPart).map _
    cases rows.mapM decodeStoredPart <;> rfl

end

theorem textType_ne_attachmentType : textType ≠ attachmentType := by decide

variable {rows : List Json}

theorem read_h5_attachment {text : Option Units} (hrows : rows ≠ []) :
    h5.read ecma (payloadJson attachmentType text (some rows))
      = (rows.mapM (h5.readPart ecma)).map fun parts => ⟨none, parts⟩ := by
  have hkind : ¬ (H5.versionOne ecma (payloadJson attachmentType text (some rows)) = false ∨
      attachmentType ≠ textType ∧ attachmentType ≠ attachmentType) := by
    rw [H5.versionOne_payloadJson]
    simp
  simp only [Client.read, H5.decodePayload, text_type, member_parts, bind_eq_bind,
    bind_some, if_neg hkind, if_neg textType_ne_attachmentType.symm, map_some,
    Json.array?, if_neg hrows]
  show ((rows.mapM (H5.decodeAttachmentPart ecma)).bind _).map _ = _
  rw [show h5.readPart ecma = fun row =>
    (H5.decodeAttachmentPart ecma row).map (H5.content ecma) from rfl, ← mapM_some_map]
  cases rows.mapM (H5.decodeAttachmentPart ecma) <;> rfl

theorem mapM_some_ne_nil {α β : Type} {f : α → Option β} {xs : List α} {ys : List β}
    (h : xs.mapM f = some ys) (hxs : xs ≠ []) : ys ≠ [] := by
  rintro rfl
  cases xs with
  | nil => exact hxs rfl
  | cons x xs =>
    rw [List.mapM_cons] at h
    obtain ⟨_, _, h⟩ := bind_eq_some_iff.mp h
    obtain ⟨_, _, h⟩ := bind_eq_some_iff.mp h
    cases h

theorem read_android_attachment {text : Option Units} (hrows : rows ≠ []) :
    android.read ecma (payloadJson attachmentType text (some rows))
      = (rows.mapM (android.readPart ecma)).map fun parts =>
        ⟨some (text.getD placeholder), parts⟩ := by
  have hpart : android.readPart ecma = fun row =>
      ((Android.decodeStoredPart row).bind fun stored =>
        (Android.toAttachmentPart stored).filter Android.validAttachmentPart).map
          Android.content := rfl
  rw [hpart, ← mapM_some_map, ← mapM_some_bind]
  simp only [Client.read, Android.decryptIncoming, Android.decodeFromString_payloadJson,
    bind_eq_bind, getD_some]
  cases hstored : rows.mapM Android.decodeStoredPart with
  | none => rfl
  | some stored =>
    have hne := mapM_some_ne_nil hstored hrows
    simp only [map_some, bind_some, ne_eq, not_true_eq_false, false_or, and_false,
      if_false, if_true, if_neg hne]
    cases stored.mapM fun stored =>
      (Android.toAttachmentPart stored).filter Android.validAttachmentPart <;> rfl

theorem read_ios_attachment (text : Option Ios.Text) (hrows : rows ≠ []) :
    ios.read ecma (payloadJson attachmentType (text.map Subtype.val) (some rows))
      = (rows.mapM (ios.readPart ecma)).map fun parts =>
        ⟨some ((text.map Subtype.val).getD placeholder), parts⟩ := by
  have hpart : ios.readPart ecma = fun row =>
      ((Ios.decodeStoredPart row).bind fun stored =>
        (Ios.toAttachmentPart stored).filter Ios.validAttachmentPart).map Ios.content := rfl
  rw [hpart, ← mapM_some_map, ← mapM_some_bind]
  simp only [Client.read, Ios.decryptIncoming,
    Ios.decodePayload_payloadJson (some rows) Ios.attachmentTypeText,
    show attachmentType = Ios.attachmentTypeText.1 from rfl, bind_eq_bind]
  cases hstored : rows.mapM Ios.decodeStoredPart with
  | none => rfl
  | some stored =>
    have hne := mapM_some_ne_nil hstored hrows
    simp only [map_some, bind_some, ne_eq, not_true_eq_false, false_or, and_false,
      if_false, if_true, getD_some, if_neg hne]
    cases stored.mapM fun stored =>
      (Ios.toAttachmentPart stored).filter Ios.validAttachmentPart <;> rfl

variable {text : Units}

/-- iOS rejects a payload with a text it has no string for. -/
theorem read_ios_unreadable {type : Units} {rows : Option (List Json)}
    (htext : wellFormed text = false) :
    ios.read ecma (payloadJson type (some text) rows) = none := by
  have hnone : Ios.stringOf text = none := dif_neg (by rw [htext]; decide)
  have hdecode : Ios.decodePayload (payloadJson type (some text) rows) = none := by
    simp only [Ios.decodePayload, member_text, map_some, Ios.ifPresent, Json.string?,
      bind_some, hnone, map_none, bind_eq_bind, bind_none,
      bind_eq_none_iff, implies_true]
  simp only [Client.read, Ios.decryptIncoming, hdecode, bind_eq_bind, bind_none,
    map_none]

/-! ### Texts -/

theorem read_h5_text :
    h5.read ecma (payloadJson textType (some text) none)
      = if trim ecmaSpace text = [] then none else some ⟨some text, []⟩ := by
  have hkind : ¬ (H5.versionOne ecma (payloadJson textType (some text) none) = false ∨
      textType ≠ textType ∧ textType ≠ attachmentType) := by
    rw [H5.versionOne_payloadJson]
    simp
  have htext : (payloadJson textType (some text) none).text "text" = some text := rfl
  simp only [Client.read, H5.decodePayload, text_type, bind_eq_bind, bind_some,
    if_neg hkind, if_true, htext]
  split <;> rfl

theorem read_android_text :
    android.read ecma (payloadJson textType (some text) none)
      = if blank jvmSpace text = true then none else some ⟨some text, []⟩ := by
  simp only [Client.read, Android.decryptIncoming, Android.decodeFromString_payloadJson,
    getD_none, List.mapM_nil, pure_def, map_some, bind_eq_bind,
    bind_some, ne_eq, not_true_eq_false, false_and, if_false,
    if_neg textType_ne_attachmentType, getD_some, or_false]
  split <;> rfl

theorem read_ios_text (text : Ios.Text) :
    ios.read ecma (payloadJson textType (some text.1) none)
      = if text.1 = [] then none else some ⟨some text.1, []⟩ := by
  have hdecode := Ios.decodePayload_payloadJson none Ios.textTypeText (some text)
  simp only [Client.read, Ios.decryptIncoming]
  rw [show payloadJson textType (some text.1) none
    = payloadJson Ios.textTypeText.1 ((some text).map Subtype.val) none from rfl, hdecode]
  have heq : Ios.textTypeText.1 = textType := rfl
  simp only [bind_eq_bind, bind_some, ne_eq, heq, not_true_eq_false, false_and,
    if_false, if_neg textType_ne_attachmentType, map_some, getD_some,
    getD_none, or_false]
  split <;> rfl

/-! ### What is sent -/

/-- A string as the client writes it. -/
def Client.written : Client → Units → Units
  | .android, s => Android.utf8 s
  | _, s => s

/-- A caption as the client writes it. -/
def Client.writtenCaption : Client → Option Units → Option Units
  | .h5, _ => none
  | c, caption => caption.map c.written

variable {c : Client}

theorem written_eq_self_iff {s : Units} :
    c.written s = s ↔ (c = .android → wellFormed s = true) := by
  cases c with
  | android => exact utf8_eq_self_iff.trans ⟨fun h _ => h, fun h => h rfl⟩
  | _ => exact iff_of_true rfl fun h => by cases h

theorem send_text {message : Sending c.Text (c.Part ecma)} {payload : Json}
    (h : c.send ecma message = some payload) (hparts : message.parts = []) :
    ∃ text, c.content ecma message = ⟨some text, []⟩ ∧ text ≠ [] ∧
      payload = payloadJson textType (some (c.written text)) none := by
  cases c with
  | h5 =>
    have hprepare : ∀ text : Option Units, H5.preparePayload ecma text [] = some payload →
        ∃ t, text.map (trim ecmaSpace) = some t ∧ t ≠ [] ∧
          payload = payloadJson textType (some t) none := by
      intro text hsend
      rw [H5.preparePayload, if_pos rfl] at hsend
      split at hsend
      case isTrue => cases hsend
      case isFalse hne =>
        cases text with
        | none => exact absurd rfl hne
        | some text => exact ⟨_, rfl, hne, (some.inj hsend).symm⟩
    cases message with
    | text text =>
      obtain ⟨t, ht, hne, hpayload⟩ := hprepare (some text) h
      exact ⟨t, congrArg (Content.mk · []) ht, hne, hpayload⟩
    | attachment text parts =>
      obtain rfl : parts = [] := hparts
      obtain ⟨t, ht, hne, hpayload⟩ := hprepare text h
      exact ⟨t, congrArg (Content.mk · []) ht, hne, hpayload⟩
  | android =>
    cases message with
    | text text =>
      simp only [send, Android.send, List.isEmpty_iff] at h
      split at h
      case isTrue => cases h
      case isFalse hne => exact ⟨_, rfl, hne, (some.inj h).symm⟩
    | attachment text parts =>
      obtain rfl : parts = [] := hparts
      cases h
  | ios =>
    cases message with
    | text text =>
      simp only [send, Ios.send, List.isEmpty_iff] at h
      split at h
      case isTrue => cases h
      case isFalse hne => exact ⟨_, rfl, hne, (some.inj h).symm⟩
    | attachment text parts =>
      obtain rfl : parts = [] := hparts
      cases h

theorem send_attachment {message : Sending c.Text (c.Part ecma)} {payload : Json}
    (h : c.send ecma message = some payload) (hparts : message.parts ≠ []) :
    ∃ caption, c.content ecma message = ⟨caption, message.parts.map (c.partContent ecma)⟩ ∧
      (c = .ios → ∀ t ∈ caption, wellFormed t = true) ∧
      payload = payloadJson attachmentType (c.writtenCaption caption)
        (some (message.parts.map fun part => wireJson (c.wirePart ecma part))) := by
  cases message with
  | text text => exact absurd rfl hparts
  | attachment text parts =>
    cases parts with
    | nil => exact absurd rfl hparts
    | cons part parts =>
      cases c with
      | h5 =>
        simp only [send, H5.send, H5.preparePayload] at h
        split at h
        case isTrue hnil => cases hnil
        case isFalse =>
          split at h
          case isTrue => exact ⟨_, rfl, (fun h => by cases h), (some.inj h).symm⟩
          case isFalse => cases h
      | android =>
        simp only [send, Android.send] at h
        split at h
        case isTrue hnil => cases hnil
        case isFalse =>
          split at h
          case isTrue =>
            refine ⟨_, rfl, (fun h => by cases h), (some.inj h).symm.trans ?_⟩
            simp only [Android.encodeToString, writtenCaption, Sending.parts, List.map_map]
            rfl
          case isFalse => cases h
      | ios =>
        simp only [send, Ios.send] at h
        split at h
        case isTrue hnil => cases hnil
        case isFalse =>
          split at h
          case isTrue =>
            have hcaption : (text.map (ios.normalized)).filter (! ·.isEmpty)
                = ((text.map Ios.trimmed).filter (! ·.1.isEmpty)).map Subtype.val := by
              cases text with
              | none => rfl
              | some text =>
                show (some (Ios.trimmed text).1).filter _
                  = ((some (Ios.trimmed text)).filter _).map _
                rw [filter_some, filter_some]
                split <;> rfl
            refine ⟨_, rfl, fun _ t ht => ?_, (some.inj h).symm.trans ?_⟩
            · rw [hcaption] at ht
              obtain ⟨t, -, rfl⟩ := map_eq_some_iff.mp ht
              exact t.2
            · simp only [Ios.encodePayload, writtenCaption, Sending.parts, hcaption,
                map_some, List.map_map, map_map]
              rfl
          case isFalse => cases h

/-! ### The whole of it -/

variable (sender receiver : Client)

theorem read_text_iff (hne : text ≠ []) :
    receiver.read ecma (payloadJson textType (some (sender.written text)) none)
      = some ⟨some text, []⟩ ↔ TextFits sender receiver text := by
  have hcontent : ∀ {t : Units},
      (some (⟨some t, []⟩ : Content) = some ⟨some text, []⟩) ↔ t = text := by
    intro t
    simp only [some.injEq, Content.mk.injEq, and_true]
  have hblank : ∀ {space : UInt16 → Bool} {t : Units},
      blank space t = false ↔ trim space t ≠ [] := by
    intro space t
    rw [ne_eq, trim_eq_nil_iff, Bool.not_eq_true]
  cases receiver with
  | h5 =>
    have hfits : TextFits sender .h5 text ↔
        sender.written text = text ∧ trim ecmaSpace text ≠ [] := by
      rw [written_eq_self_iff, ← hblank]
      refine and_congr_left fun _ => ⟨fun h hs => h (Or.inl hs), fun h hs => ?_⟩
      rcases hs with hs | hs
      · exact h hs
      · cases hs
    rw [read_h5_text, hfits]
    constructor
    · intro h
      split at h
      case isTrue => cases h
      case isFalse hne =>
        have heq := hcontent.mp h
        rw [heq] at hne
        exact ⟨heq, hne⟩
    · rintro ⟨heq, hne⟩
      rw [heq, if_neg hne]
  | android =>
    have hfits : TextFits sender .android text ↔
        sender.written text = text ∧ blank jvmSpace text = false := by
      rw [written_eq_self_iff]
      refine and_congr_left fun _ => ⟨fun h hs => h (Or.inl hs), fun h hs => ?_⟩
      rcases hs with hs | hs
      · exact h hs
      · cases hs
    rw [read_android_text, hfits]
    constructor
    · intro h
      split at h
      case isTrue => cases h
      case isFalse hne =>
        have heq := hcontent.mp h
        rw [heq, Bool.not_eq_true] at hne
        exact ⟨heq, hne⟩
    · rintro ⟨heq, hne⟩
      rw [heq, if_neg (by rw [hne]; decide)]
  | ios =>
    have hfits : TextFits sender .ios text ↔ wellFormed text = true :=
      ⟨fun h => h.1 (Or.inr rfl), fun h => ⟨fun _ => h, hne⟩⟩
    rw [hfits]
    constructor
    · intro h
      cases hwritten : wellFormed (sender.written text) with
      | false =>
        rw [read_ios_unreadable hwritten] at h
        cases h
      | true =>
        rw [read_ios_text ⟨_, hwritten⟩] at h
        split at h
        case isTrue => cases h
        case isFalse =>
          have heq : sender.written text = text := hcontent.mp h
          rwa [heq] at hwritten
    · intro h
      rw [written_eq_self_iff.mpr fun _ => h, read_ios_text ⟨text, h⟩, if_neg hne]

theorem caption_native_iff (caption : Option Units) :
    (some ((caption.map c.written).getD placeholder) = some (caption.getD placeholder)) ↔
      ∀ t ∈ caption, c.written t = t := by
  cases caption with
  | none => exact iff_of_true rfl fun t ht => by cases ht
  | some caption =>
    exact some_inj.trans ⟨fun h t ht => some.inj ht ▸ h, fun h => h _ rfl⟩

/-- **A caption gets across** just where it fits. -/
theorem caption_iff {caption : Option Units}
    (hios : sender = .ios → ∀ t ∈ caption, wellFormed t = true) :
    receiver.caption (sender.writtenCaption caption) = (receiver.shows ⟨caption, []⟩).text ↔
      CaptionFits sender receiver caption := by
  have hstring : ∀ t ∈ caption, (sender.written t = t ↔ StringFits sender receiver t) ∨
      receiver = .ios := by
    intro t ht
    cases receiver with
    | ios => exact Or.inr rfl
    | _ =>
      refine Or.inl (written_eq_self_iff.trans ⟨fun h hs => h (hs.resolve_right ?_), fun h hs =>
        h (Or.inl hs)⟩)
      exact fun h => by cases h
  have hdropped : ∀ t : Option Units, (some placeholder = some (t.getD placeholder)) ↔
      t = none ∨ t = some placeholder := by
    intro t
    cases t with
    | none => simp
    | some t => simp [eq_comm]
  cases receiver with
  | h5 => cases sender <;> exact eq_comm
  | android =>
    have hall : (∀ t ∈ caption, sender.written t = t) ↔
        ∀ t ∈ caption, StringFits sender .android t :=
      forall₂_congr fun t ht => (hstring t ht).resolve_right (by decide)
    cases sender with
    | h5 => exact hdropped caption
    | _ => exact (caption_native_iff caption).trans hall
  | ios =>
    cases sender with
    | h5 => exact hdropped caption
    | android =>
      exact (caption_native_iff caption).trans (forall₂_congr fun t _ =>
        written_eq_self_iff.trans ⟨fun h _ => h rfl, fun h _ => h (Or.inl rfl)⟩)
    | ios =>
      exact (caption_native_iff caption).trans (iff_of_true (fun _ _ => rfl) fun t ht _ =>
        hios rfl t ht)

theorem read_attachment_iff {caption : Option Units} {parts : List (sender.Part ecma)}
    (hparts : parts ≠ []) (hios : sender = .ios → ∀ t ∈ caption, wellFormed t = true) :
    receiver.read ecma (payloadJson attachmentType (sender.writtenCaption caption)
        (some (parts.map fun part => wireJson (sender.wirePart ecma part))))
      = some (receiver.shows ⟨caption, parts.map (sender.partContent ecma)⟩) ↔
    CaptionFits sender receiver caption ∧ ∀ part ∈ parts, PartFits ecma sender receiver part := by
  have hrows : parts.map (fun part => wireJson (sender.wirePart ecma part)) ≠ [] :=
    fun h => hparts (List.map_eq_nil_iff.mp h)
  have hread : (receiver = .ios → ∀ t ∈ sender.writtenCaption caption, wellFormed t = true) →
      receiver.read ecma (payloadJson attachmentType (sender.writtenCaption caption)
        (some (parts.map fun part => wireJson (sender.wirePart ecma part))))
      = ((parts.map fun part => wireJson (sender.wirePart ecma part)).mapM
          (receiver.readPart ecma)).map fun parts =>
        ⟨receiver.caption (sender.writtenCaption caption), parts⟩ := by
    intro hwritten
    cases receiver with
    | h5 => exact read_h5_attachment hrows
    | android => exact read_android_attachment hrows
    | ios =>
      cases hc : sender.writtenCaption caption with
      | none => exact read_ios_attachment none hrows
      | some t => exact read_ios_attachment (some ⟨t, hwritten rfl t hc⟩) hrows
  have hshows : receiver.shows ⟨caption, parts.map (sender.partContent ecma)⟩
      = ⟨(receiver.shows ⟨caption, []⟩).text, parts.map (sender.partContent ecma)⟩ := by
    cases receiver <;> rfl
  by_cases hwritten : receiver = .ios → ∀ t ∈ sender.writtenCaption caption, wellFormed t = true
  · rw [hread hwritten, hshows, map_eq_some_iff, ← caption_iff sender receiver hios]
    simp only [← readPart_iff, ← mapM_eq_some_map_iff, List.mapM_map]
    constructor
    · rintro ⟨read, hparts, heq⟩
      obtain ⟨hcaption, rfl⟩ := Content.mk.inj heq
      exact ⟨hcaption, hparts⟩
    · rintro ⟨hcaption, hparts⟩
      exact ⟨_, hparts, by rw [hcaption]⟩
  · simp only [Classical.not_imp, not_forall, Bool.not_eq_true] at hwritten
    obtain ⟨rfl, t, ht, hunreadable⟩ := hwritten
    rw [show sender.writtenCaption caption = some t from ht, read_ios_unreadable hunreadable]
    refine iff_of_false (fun h => by cases h) fun hfits => ?_
    cases sender with
    | h5 => cases ht
    | android =>
      obtain ⟨t', ht', rfl⟩ := map_eq_some_iff.mp ht
      have hwell : wellFormed t' = true := hfits.1 t' ht' (Or.inl rfl)
      rw [written_eq_self_iff.mpr fun _ => hwell, hwell] at hunreadable
      cases hunreadable
    | ios =>
      obtain ⟨t', ht', rfl⟩ := map_eq_some_iff.mp ht
      exact absurd ((hios rfl t' ht').symm.trans hunreadable) (by decide)

/-! ## The agreement -/

/-- **The agreement of the clients**: what one of them accepts for sending is read by another as
what was meant just where it fits. -/
theorem payload_agreement (ecma : Ecma) (sender receiver : Client)
    (message : Sending sender.Text (sender.Part ecma)) {payload : Json}
    (h : sender.send ecma message = some payload) :
    receiver.read ecma payload = some (receiver.shows (sender.content ecma message)) ↔
      GetsAcross ecma sender receiver message := by
  by_cases hparts : message.parts = []
  · obtain ⟨text, hcontent, hne, rfl⟩ := send_text h hparts
    rw [GetsAcross, if_pos hparts, hcontent]
    have hshows : receiver.shows ⟨some text, []⟩ = ⟨some text, []⟩ := by cases receiver <;> rfl
    rw [hshows, read_text_iff sender receiver hne]
    exact ⟨fun h t ht => by rwa [← some.inj ht], fun h => h text rfl⟩
  · obtain ⟨caption, hcontent, hios, rfl⟩ := send_attachment h hparts
    rw [GetsAcross, if_neg hparts, hcontent]
    exact read_attachment_iff sender receiver hparts hios

/-! ### A caption from Android

Android sends an attachment with the caption `hi`, and a text. -/

namespace PayloadSample

/-- The numbers of JavaScript, as far as they are safe integers. -/
def numbers : Ecma where
  Number := { n : ℤ // n.natAbs ≤ 9007199254740991 }
  value n := n.1
  print n := n.1
  read v := if h : v.den = 1 ∧ v.num.natAbs ≤ 9007199254740991 then some ⟨v.num, h.2⟩ else none
  read_print n := dif_pos ⟨Rat.den_intCast n.1, n.2⟩
  read_value n := dif_pos ⟨Rat.den_intCast n.1, n.2⟩
  safe n h := ⟨⟨n, h⟩, rfl, rfl⟩

def part : Android.Part where
  partKey := ofString "00000000-0000-4000-8000-000000000001"
  objectKey := ofString "messages/1/images/a.png"
  name := ofString "a.png"
  mimeType := ofString "image/png"
  size := 42
  partPosition := 0
  nonce := List.replicate 12 3
  dek := List.replicate 32 4

def captioned : Sending Units Android.Part := .attachment (some (ofString "hi")) [part]

def plain : Sending Units Android.Part := .text (ofString " hi ")

end PayloadSample

open PayloadSample in
/-- H5 reads the attachments without the caption. -/
theorem caption_dropped : ¬ ∀ (sender receiver : Client)
    (message : Sending sender.Text (sender.Part numbers)) (payload : Json),
    sender.send numbers message = some payload →
    receiver.read numbers payload = some (receiver.shows (sender.content numbers message)) := by
  intro h
  obtain ⟨payload, hsend⟩ := isSome_iff_exists.mp
    (show (android.send numbers captioned).isSome = true by decide)
  have hread := h .android .h5 captioned payload hsend
  have htext : (h5.read numbers payload).all (·.text.isNone) = true := by
    obtain ⟨caption, -, -, rfl⟩ := send_attachment hsend (List.cons_ne_nil _ _)
    have hparts : captioned.parts.map
        (fun part => wireJson (wirePart numbers .android part)) ≠ [] := List.cons_ne_nil _ _
    rw [read_h5_attachment hparts]
    generalize List.mapM (h5.readPart numbers) _ = read
    cases read <;> rfl
  rw [hread] at htext
  exact absurd htext (by decide)

open PayloadSample in
/-- The text gets across to all three. -/
theorem payload_agreement_text : ∃ payload,
    android.send numbers plain = some payload ∧
    ∀ receiver : Client, receiver.read numbers payload
      = some (receiver.shows ⟨some (ofString "hi"), []⟩) := by
  obtain ⟨payload, hsend⟩ := isSome_iff_exists.mp
    (show (android.send numbers plain).isSome = true by decide)
  refine ⟨payload, hsend, fun receiver => ?_⟩
  refine (payload_agreement numbers .android receiver plain hsend).mpr ?_
  rintro text ⟨⟩
  refine ⟨fun _ => by decide, ?_⟩
  cases receiver <;> decide

end RedcodeIm
