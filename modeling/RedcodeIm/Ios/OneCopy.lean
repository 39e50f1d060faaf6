import RedcodeIm.Ios.ChatDetailController
import RedcodeIm.Runtime.Messages

/-!
# One copy of a message that was sent, in the iOS app

A send has an entry of its own among the messages, until the server's copy of the message comes
with the response to the send or as an event.  The copy is told from what it says: the server's
summary of the parts.

* `Draft`, `Draft.request` — what is sent, the text of its entry and the request for it.
* `Delivery` — a send that succeeds: the messages at that time, the response and the event.
* `one_copy_iff` — when there is one copy afterwards, and other entries stay.
* `captioned_stays` — the entry of a captioned picture stays.
-/

namespace RedcodeIm.Ios

open Text (trim)
open List
open ChatMessage

/-! ## Sends -/

inductive PreparedUploadKind where
  | image
  | video
  | audio
  | file
  deriving DecidableEq

/-- A file that is sent, with the key that it was uploaded under. -/
structure UploadedMediaFile where
  kind : PreparedUploadKind
  fileName : String
  contentType : String
  size : ℤ
  width : Option ℤ
  height : Option ℤ
  durationMilliseconds : Option ℤ
  objectKey : String
  deriving DecidableEq

open UploadedMediaFile

namespace UploadedMediaFile

def label (f : UploadedMediaFile) : String :=
  match f.kind with
  | .image => "[图片]"
  | .video => "[视频]"
  | .audio => "[语音]"
  | .file => "[文件]"

/-- One of `outgoingParts`, as the server reads it. -/
def outgoingPart (f : UploadedMediaFile) : MessagePartPayload :=
  match f.kind with
  | .image =>
    .image f.objectKey (some f.fileName) (some f.contentType) (some f.size) f.width f.height none
  | .video =>
    .video f.objectKey (some f.fileName) (some f.contentType) (some f.size) f.width f.height
      f.durationMilliseconds none
  | .audio =>
    .audio f.objectKey (some f.fileName) (some f.contentType) (some f.size) f.durationMilliseconds
  | .file => .file f.objectKey (some f.fileName) (some f.contentType) (some f.size)

end UploadedMediaFile

/-- What the user sends, by `sendText` or `sendPreparedMedia`. -/
inductive Draft where
  | text (content : String)
  | media (caption : Option String) (files : List UploadedMediaFile)
  deriving DecidableEq

namespace Draft

/-- There is something to be sent. -/
def Sendable : Draft → Prop
  | text content => trim content ≠ ""
  | media _ files => files ≠ []

/-- The caption of files, if it is not blank. -/
def tidied (caption : Option String) : Option String := (caption.map trim).filter (· ≠ "")

def summaryText (files : List UploadedMediaFile) : String :=
  " ".intercalate (files.map label)

/-- The text of the entry. -/
def content : Draft → String
  | text content => trim content
  | media caption files => (tidied caption).getD (summaryText files)

/-- The content and the parts of the request; what is sent again is read off the entry. -/
def request (resent : Bool) : Draft → Option String × List MessagePartPayload
  | text content => (some (trim content), [])
  | media caption files =>
    (if resent then some ((media caption files).content) else tidied caption,
      files.map outgoingPart)

/-- The request has no text besides that of the summary. -/
def plain (resent : Bool) : Draft → Prop
  | text _ => True
  | media caption _ => resent = false ∧ tidied caption = none

end Draft

/-- A send that succeeds, the messages when the first of its copies comes, its entry among them, and
the copies: what the response and the event become.  The response to an encrypted send is the entry
under the new id; the event is what it is decrypted to. -/
structure Delivery where
  draft : Draft
  resent : Bool
  encrypted : Bool
  messages : List ChatMessage
  pending : ChatMessage
  response : ChatMessage
  echo : ChatMessage
  sendable : draft.Sendable
  distinct : (messages.map ChatMessage.id).Nodup
  held : pending ∈ messages
  isLocal : pending.isLocal = true
  content : pending.content = draft.content
  answered : if encrypted = true then response.content = pending.content
    else ∃ parts type, normalizeMessageParts (draft.request resent).1 (draft.request resent).2 =
      .ok (parts, type, response.content)
  echoed : encrypted = false → echo.content = response.content
  sameID : echo.id = response.id
  named : response.id ≠ ""
  foreign : ∀ m ∈ [response, echo], m.isLocal = false
  about : ∀ m ∈ [response, echo], m.roomID = pending.roomID ∧ m.senderID = pending.senderID ∧
    m.quotedID = pending.quotedID

namespace Delivery

/-- The orders in which the copies come; an event may be lost. -/
def arrivals (d : Delivery) : List (List ChatMessage) :=
  [[d.response], [d.response, d.echo], [d.echo, d.response]]

/-- The messages when copies have come. -/
def after (d : Delivery) (copies : List ChatMessage) : List ChatMessage :=
  copies.foldl (fun messages copy => mergeMessages messages [copy]) d.messages

/-- There is one message of the send, its entry is gone, and other entries of the same text stay. -/
def OneCopy (d : Delivery) : Prop :=
  ∀ copies ∈ d.arrivals,
    ((d.after copies).filter fun m => m.id = d.response.id).length = 1 ∧
    (∀ m ∈ d.after copies, m.id ≠ d.pending.id) ∧
    ∀ m ∈ d.messages, m.isLocal = true → m.id ≠ d.pending.id → m.content = d.pending.content →
      m ∈ d.after copies

/-- No other entry has the room, the sender, the text and the quote of this one. -/
def Alone (d : Delivery) : Prop :=
  ∀ m ∈ d.messages, m.id ≠ d.pending.id → m.matchesPending d.pending = false

end Delivery

/-! ## Merging one message -/

section

variable {messages copies : List ChatMessage} {m x : ChatMessage}

theorem id_ne_of_isLocal (hx : x.isLocal = true) (hm : m.isLocal = false) : x.id ≠ m.id := by
  intro h
  unfold isLocal at hx hm
  rw [h, hm] at hx
  cases hx

theorem id_ne_empty (hx : x.isLocal = true) : x.id ≠ "" := by
  intro h
  unfold isLocal at hx
  rw [h] at hx
  exact absurd hx (by decide)

theorem rows_puts {byID : ByID} (h : (byID.rows ++ messages).map ChatMessage.id |>.Nodup) :
    (messages.foldl Table.put byID).rows = byID.rows ++ messages := by
  induction messages generalizing byID with
  | nil => simp
  | cons m messages ih =>
    have hnone : byID.get m.id = none := by
      rw [Table.get_eq_none_iff]
      intro r hr heq
      rw [map_append, nodup_append] at h
      exact h.2.2 _ (mem_map_of_mem hr) _ (mem_map_of_mem (.head _)) heq
    have hrows : (byID.put m).rows = byID.rows ++ [m] := by
      rw [Table.put_of_none hnone, Table.rows_insert_of_none hnone]
    rw [foldl_cons, ih (by rw [hrows]; simpa using h), hrows]
    simp

theorem rows_current (h : (messages.map ChatMessage.id).Nodup) :
    ((messages.filter (·.id ≠ "")).foldl Table.put (Table.empty : ByID)).rows =
      messages.filter (·.id ≠ "") :=
  @rows_puts (messages.filter (·.id ≠ "")) Table.empty
    (h.sublist (List.Sublist.map ChatMessage.id filter_sublist))

theorem nodup_mergeMessages : ((mergeMessages messages copies).map ChatMessage.id).Nodup :=
  (((SortBy.sortBy_perm _ _).map _).nodup_iff).2 (Table.nodup _)

/-- A message that is merged is among the messages under its id. -/
theorem exists_merged (hm : m.id ≠ "") : ∃ x ∈ mergeMessages messages [m], x.id = m.id := by
  unfold mergeMessages
  simp only [foldl_cons, foldl_nil, SortBy.mem_sortBy]
  unfold ByID.absorb
  rw [if_neg hm]
  dsimp only
  split
  · rename_i previous hget
    exact ⟨_, Table.mem_put_self _ _, (Table.key_of_get hget : previous.id = m.id)⟩
  · exact ⟨m, Table.mem_put_self _ _, rfl⟩

/-- Of the entries, those go that match the message. -/
theorem mem_merged_iff (hnodup : (messages.map ChatMessage.id).Nodup) (hm : m.id ≠ "")
    (hlocal : m.isLocal = false) (hx : x.isLocal = true) :
    x ∈ mergeMessages messages [m] ↔ x ∈ messages ∧ x.matchesPending m = false := by
  have hput : ∀ (byID : ByID) (y : ChatMessage), y.id = m.id →
      (x ∈ (byID.put y).rows ↔ x ∈ byID.rows) := by
    intro byID y hy
    have hne : x.id ≠ y.id := hy ▸ id_ne_of_isLocal hx hlocal
    refine ⟨fun h => ?_, fun h => Table.mem_put_of_ne h hne⟩
    rcases Table.mem_put h with ⟨hmem, -⟩ | rfl
    · exact hmem
    · exact absurd rfl hne
  unfold mergeMessages
  simp only [foldl_cons, foldl_nil, SortBy.mem_sortBy]
  unfold ByID.absorb
  rw [if_neg hm]
  have hkept : x ∈ (((messages.filter (·.id ≠ "")).foldl Table.put (Table.empty : ByID)).filter
      fun pending => !pending.matchesPending m).rows ↔
        x ∈ messages ∧ x.matchesPending m = false := by
    rw [Table.mem_filter, rows_current hnodup, mem_filter]
    simp [id_ne_empty hx]
  dsimp only
  split
  · rename_i previous hget
    exact (hput _ (previous.merged m) (Table.key_of_get hget : previous.id = m.id)).trans hkept
  · exact (hput _ m rfl).trans hkept

/-- Of the entries, those go that match one of the copies. -/
theorem mem_after_iff (hnodup : (messages.map ChatMessage.id).Nodup)
    (hcopies : ∀ m ∈ copies, m.id ≠ "" ∧ m.isLocal = false) (hx : x.isLocal = true) :
    x ∈ copies.foldl (fun messages copy => mergeMessages messages [copy]) messages ↔
      x ∈ messages ∧ ∀ m ∈ copies, x.matchesPending m = false := by
  induction copies generalizing messages with
  | nil => simp
  | cons m copies ih =>
    obtain ⟨hm, hlocal⟩ := hcopies m (.head _)
    rw [foldl_cons, ih nodup_mergeMessages fun y hy => hcopies y (.tail _ hy),
      mem_merged_iff hnodup hm hlocal hx, forall_mem_cons]
    exact and_assoc

end

/-! ## The summary of the parts -/

/-- What a part adds to the summary. -/
def segment : MessagePartPayload → Option String
  | .text text => Draft.tidied (some text)
  | .image .. => some "[图片]"
  | .video .. => some "[视频]"
  | .audio .. => some "[语音]"
  | .file .. => some "[文件]"

theorem tidied_some (text : String) :
    Draft.tidied (some text) = if trim text = "" then none else some (trim text) := by
  unfold Draft.tidied
  by_cases h : trim text = ""
  · rw [if_pos h, Option.map_some, Option.filter_some_neg (by simp [h])]
  · rw [if_neg h, Option.map_some, Option.filter_some_pos (by simp [h])]

theorem segments_preparePart {n : ℤ} {payload : MessagePartPayload} {part : Option NewMessagePart}
    (h : preparePart n payload = .ok part) :
    part.bind NewMessagePart.summarySegment = segment payload := by
  cases payload with
  | text text =>
    show _ = Draft.tidied (some text)
    rw [tidied_some]
    simp only [preparePart] at h
    split at h
    · rename_i hblank
      cases h
      rw [if_pos hblank]
      rfl
    · rename_i hblank
      cases h
      rw [if_neg hblank]
      rfl
  | _ =>
    simp only [preparePart] at h
    split at h
    · cases h
    · cases h
      rfl

variable {parts : List NewMessagePart}

theorem segments_prepareParts {n : ℕ} {payloads : List MessagePartPayload}
    (h : prepareParts n payloads = .ok parts) :
    parts.filterMap NewMessagePart.summarySegment = payloads.filterMap segment := by
  induction payloads generalizing n parts with
  | nil =>
    cases h
    rfl
  | cons payload payloads ih =>
    unfold prepareParts at h
    cases hpart : preparePart (partPosition n) payload with
    | error e =>
      rw [hpart] at h
      cases h
    | ok part =>
      have hsegment := segments_preparePart hpart
      rw [hpart] at h
      rw [filterMap_cons, ← hsegment]
      cases part with
      | none => exact ih h
      | some part =>
        cases hparts : prepareParts (n + 1) payloads with
        | error e =>
          rw [hparts] at h
          cases h
        | ok parts =>
          rw [hparts] at h
          cases h
          rw [filterMap_cons, ih hparts]
          rfl

theorem summary_of_normalize {content : Option String} {payloads : List MessagePartPayload}
    {type : MessageType} {summary : String}
    (h : normalizeMessageParts content payloads = .ok (parts, type, summary)) :
    summary = summarizeMessageParts parts ∧
      parts.filterMap NewMessagePart.summarySegment =
        (normalizedPayloads content payloads).filterMap segment := by
  unfold normalizeMessageParts at h
  dsimp only at h
  split at h
  · cases h
  · cases hparts : prepareParts 0 (normalizedPayloads content payloads) with
    | error e =>
      rw [hparts] at h
      cases h
    | ok prepared =>
      rw [hparts] at h
      dsimp only at h
      split at h
      · cases h
      · split at h
        · cases h
        · obtain ⟨rfl, -, rfl⟩ : prepared = parts ∧ _ ∧ summarizeMessageParts prepared = summary :=
            by simpa using h
          exact ⟨rfl, segments_prepareParts hparts⟩

theorem segment_outgoingPart (f : UploadedMediaFile) : segment f.outgoingPart = some f.label := by
  unfold outgoingPart label
  cases f.kind <;> rfl

theorem segments_normalized (content : Option String) (files : List UploadedMediaFile) :
    (normalizedPayloads content (files.map outgoingPart)).filterMap segment =
      (Draft.tidied content).toList ++ files.map label := by
  have hlabels : (files.map outgoingPart).filterMap segment =
      files.map label := by
    rw [filterMap_map, ← filterMap_eq_map]
    exact filterMap_congr fun f _ => segment_outgoingPart f
  have hkept : normalizedPayloads none (files.map outgoingPart) =
      files.map outgoingPart := by
    refine filter_eq_self.2 fun payload hp => ?_
    obtain ⟨f, -, rfl⟩ := mem_map.1 hp
    unfold outgoingPart
    cases f.kind <;> rfl
  cases content with
  | none => rw [hkept, hlabels]; rfl
  | some text =>
    have happend : normalizedPayloads (some text) (files.map outgoingPart) =
        (if trim text = "" then [] else [.text (trim text)]) ++
          normalizedPayloads none (files.map outgoingPart) := rfl
    rw [happend, hkept, filterMap_append, hlabels, tidied_some]
    split
    · rfl
    · rename_i hblank
      simp [segment, tidied_some, hblank]

theorem trim_ne_empty {s : String} {c : Char} (hc : c ∈ s.toList)
    (hblank : Text.isWhitespace c = false) : trim s ≠ "" := by
  intro h
  have hnil : Text.trimChars s.toList = [] := by rw [← Text.toList_trim, h]; rfl
  rw [Text.trimChars_eq, rdropWhile_eq_nil_iff] at hnil
  rw [← takeWhile_append_dropWhile (p := Text.isWhitespace) (l := s.toList),
    mem_append] at hc
  have hwhite : Text.isWhitespace c = true := hc.elim mem_takeWhile_imp (hnil c)
  rw [hblank] at hwhite
  cases hwhite

theorem mem_intercalate {separator s : String} {l : List String} {c : Char} (hs : s ∈ l)
    (hc : c ∈ s.toList) : c ∈ (separator.intercalate l).toList := by
  induction l with
  | nil => cases hs
  | cons t l ih =>
    cases l with
    | nil =>
      obtain rfl := mem_singleton.1 hs
      rwa [String.intercalate_singleton]
    | cons u l =>
      rw [String.intercalate_cons_cons, String.toList_append, String.toList_append]
      rcases mem_cons.1 hs with rfl | hs
      · exact mem_append_left _ (mem_append_left _ hc)
      · exact mem_append_right _ (ih hs)

theorem trim_summary {segments : List String} {files : List UploadedMediaFile} (h : files ≠ []) :
    trim (" ".intercalate (segments ++ files.map label)) ≠ "" := by
  obtain ⟨f, hf⟩ := exists_mem_of_ne_nil files h
  have hlabel : '[' ∈ f.label.toList := by
    unfold label
    cases f.kind <;> decide
  exact trim_ne_empty (mem_intercalate
    (mem_append_right _ (mem_map_of_mem hf)) hlabel) (by decide)

theorem tidied_tidied (caption : Option String) :
    Draft.tidied (Draft.tidied caption) = Draft.tidied caption := by
  cases caption with
  | none => rfl
  | some text =>
    rw [tidied_some]
    split
    · rfl
    · rename_i h
      rw [tidied_some, Text.trim_trim, if_neg h]

/-- Unless a request is plain, it has a text besides the files, and the entry says less than both
together. -/
theorem exists_text {caption : Option String} {files : List UploadedMediaFile} {resent : Bool}
    (h : files ≠ []) (hplain : ¬ (Draft.media caption files).plain resent) :
    ∃ text, Draft.tidied ((Draft.media caption files).request resent).1 = some text ∧
      ((Draft.media caption files).content = text ∨
        (Draft.media caption files).content = Draft.summaryText files) := by
  have htidied := tidied_tidied caption
  cases hcaption : Draft.tidied caption with
  | none =>
    cases resent with
    | false => exact absurd ⟨rfl, hcaption⟩ hplain
    | true =>
      have hcontent : (Draft.media caption files).content = Draft.summaryText files := by
        show (Draft.tidied caption).getD _ = _
        rw [hcaption]
        rfl
      refine ⟨trim (Draft.summaryText files), ?_, .inr hcontent⟩
      have hblank : trim (Draft.summaryText files) ≠ "" := @trim_summary [] files h
      show Draft.tidied (some (Draft.media caption files).content) = _
      rw [hcontent, tidied_some, if_neg hblank]
  | some text =>
    have hcontent : (Draft.media caption files).content = text := by
      show (Draft.tidied caption).getD _ = _
      rw [hcaption]
      rfl
    rw [hcaption] at htidied
    refine ⟨text, ?_, .inl hcontent⟩
    cases resent with
    | false =>
      show Draft.tidied (Draft.tidied caption) = _
      rw [hcaption, htidied]
    | true =>
      show Draft.tidied (some (Draft.media caption files).content) = _
      rw [hcontent, htidied]

/-- What the server says of a request is the text of the entry only if the request is plain. -/
theorem content_eq_iff {draft : Draft} {resent : Bool} (h : draft.Sendable) {type : MessageType}
    {summary : String}
    (hok : normalizeMessageParts (draft.request resent).1 (draft.request resent).2 =
      .ok (parts, type, summary)) : summary = draft.content ↔ draft.plain resent := by
  obtain ⟨rfl, hsegments⟩ := summary_of_normalize hok
  unfold summarizeMessageParts
  rw [hsegments]
  cases draft with
  | text content =>
    have hone : (normalizedPayloads (some (trim content)) []).filterMap segment =
        [trim content] := by
      have hnormalized := segments_normalized (some (trim content)) []
      rwa [tidied_some, Text.trim_trim, if_neg h] at hnormalized
    show (let summary := " ".intercalate ((normalizedPayloads (some (trim content)) []).filterMap
      segment); if trim summary = "" then "[消息]" else summary) = trim content ↔ True
    rw [hone]
    dsimp only
    rw [String.intercalate_singleton, Text.trim_trim, if_neg h]
    exact iff_of_true rfl trivial
  | media caption files =>
    have hfiles : ((Draft.media caption files).request resent).2 =
        files.map outgoingPart := rfl
    rw [hfiles, segments_normalized, if_neg (trim_summary h)]
    by_cases hplain : (Draft.media caption files).plain resent
    · obtain ⟨rfl, hnone⟩ := hplain
      refine iff_of_true ?_ ⟨rfl, hnone⟩
      show " ".intercalate ((Draft.tidied (Draft.tidied caption)).toList ++ _) =
        (Draft.tidied caption).getD _
      rw [tidied_tidied, hnone]
      rfl
    · obtain ⟨text, htext, hcontent⟩ := exists_text h hplain
      refine iff_of_false (fun heq => ?_) hplain
      have hne : files.map label ≠ [] :=
        fun hnil => h (map_eq_nil_iff.1 hnil)
      rw [htext, Option.toList_some, singleton_append,
        String.intercalate_cons_of_ne_nil hne] at heq
      have hlength := congrArg String.length heq
      rw [String.length_append, String.length_append] at hlength
      have hspace : " ".length = 1 := by decide
      rcases hcontent with hcontent | hcontent
      · rw [hcontent] at hlength
        omega
      · rw [hcontent, Draft.summaryText] at hlength
        omega

/-! ## The copies -/

variable (d : Delivery)

theorem Delivery.copies_named {copies : List ChatMessage} (h : copies ∈ d.arrivals) :
    d.response ∈ copies ∧ (∀ m ∈ copies, m = d.response ∨ m = d.echo) ∧
      ∃ rest last, copies = rest ++ [last] ∧ last.id = d.response.id := by
  unfold Delivery.arrivals at h
  simp only [mem_cons, not_mem_nil, or_false] at h
  rcases h with rfl | rfl | rfl
  · exact ⟨.head _, by simp, [], _, rfl, rfl⟩
  · exact ⟨.head _, by simp, [_], _, rfl, d.sameID⟩
  · exact ⟨.tail _ (.head _), by simp, [_], _, rfl, rfl⟩

/-- An entry matches a copy that says what the entry of the send says. -/
theorem Delivery.matches_eq {m x : ChatMessage} (hm : m = d.response ∨ m = d.echo)
    (hcontent : m.content = d.pending.content) :
    x.matchesPending m = x.matchesPending d.pending := by
  obtain ⟨hroom, hsender, hquote⟩ := d.about m (by simpa using hm)
  unfold matchesPending
  rw [hroom, hsender, hquote, hcontent]

theorem Delivery.response_content :
    d.response.content = d.pending.content ↔ d.encrypted = true ∨ d.draft.plain d.resent := by
  have hanswered := d.answered
  by_cases hencrypted : d.encrypted = true
  · rw [if_pos hencrypted] at hanswered
    exact iff_of_true hanswered (.inl hencrypted)
  · rw [if_neg hencrypted] at hanswered
    obtain ⟨parts, type, hok⟩ := hanswered
    rw [d.content, content_eq_iff d.sendable hok]
    exact (or_iff_right hencrypted).symm

/-- **There is one copy of a message that was sent**, and other entries stay, if and only if the
send is encrypted or the entry says what the server makes of the parts, and no other entry could be
taken for it. -/
theorem one_copy_iff : d.OneCopy ↔ (d.encrypted = true ∨ d.draft.plain d.resent) ∧ d.Alone := by
  have hafter : ∀ copies ∈ d.arrivals, ∀ x : ChatMessage, x.isLocal = true →
      (x ∈ d.after copies ↔ x ∈ d.messages ∧ ∀ m ∈ copies, x.matchesPending m = false) := by
    intro copies hcopies x hx
    refine mem_after_iff d.distinct (fun m hm => ?_) hx
    rcases (d.copies_named hcopies).2.1 m hm with rfl | rfl
    · exact ⟨d.named, d.foreign _ (.head _)⟩
    · exact ⟨d.sameID ▸ d.named, d.foreign _ (.tail _ (.head _))⟩
  have hself : d.pending.matchesPending d.pending = true := by
    simp [matchesPending, d.isLocal]
  rw [← d.response_content]
  constructor
  · intro h
    obtain ⟨-, hgone, hkept⟩ := h [d.response] (.head _)
    have hmatch : d.pending.matchesPending d.response = true := by
      by_contra hno
      exact hgone d.pending ((hafter _ (.head _) _ d.isLocal).2 ⟨d.held, by simpa using hno⟩) rfl
    have hcontent : d.response.content = d.pending.content := by
      simp only [matchesPending, Bool.and_eq_true, decide_eq_true_eq] at hmatch
      exact hmatch.1.2.symm
    refine ⟨hcontent, fun m hm hne => Bool.eq_false_iff.2 fun htwin => ?_⟩
    have hlocal : m.isLocal = true ∧ m.content = d.pending.content := by
      simp only [matchesPending, Bool.and_eq_true, decide_eq_true_eq] at htwin
      exact ⟨htwin.1.1.1.1, htwin.1.2⟩
    have hstays := hkept m hm hlocal.1 hne hlocal.2
    have hno := ((hafter _ (.head _) m hlocal.1).1 hstays).2 _ (.head _)
    rw [d.matches_eq (.inl rfl) hcontent, htwin] at hno
    cases hno
  · rintro ⟨hcontent, halone⟩ copies hcopies
    obtain ⟨hresponse, hnamed, rest, last, rfl, hlast⟩ := d.copies_named hcopies
    have hnodup : ((d.after (rest ++ [last])).map ChatMessage.id).Nodup := by
      unfold Delivery.after
      rw [foldl_append]
      exact nodup_mergeMessages
    refine ⟨?_, ?_, ?_⟩
    · have hmem : d.response.id ∈ (d.after (rest ++ [last])).map ChatMessage.id := by
        unfold Delivery.after
        rw [foldl_append]
        obtain ⟨x, hx, hid⟩ := exists_merged (m := last) (hlast ▸ d.named)
        exact mem_map.2 ⟨x, hx, hid.trans hlast⟩
      rw [← count_eq_one_of_mem hnodup hmem, count, countP_map,
        countP_eq_length_filter]
      rfl
    · intro m hm hid
      have hlocal : m.isLocal = true := by
        have hpending := d.isLocal
        unfold isLocal at hpending ⊢
        rwa [hid]
      obtain ⟨hold, hno⟩ := (hafter _ hcopies m hlocal).1 hm
      obtain rfl : m = d.pending := inj_on_of_nodup_map d.distinct hold d.held hid
      have hmatch := hno _ hresponse
      rw [d.matches_eq (.inl rfl) hcontent, hself] at hmatch
      cases hmatch
    · intro m hm hlocal hne htext
      refine (hafter _ hcopies m hlocal).2 ⟨hm, fun copy hcopy => ?_⟩
      refine Bool.eq_false_iff.2 fun hmatch => ?_
      have hsaid : copy.content = d.pending.content := by
        simp only [matchesPending, Bool.and_eq_true, decide_eq_true_eq] at hmatch
        exact hmatch.1.2.symm.trans htext
      rw [d.matches_eq (hnamed copy hcopy) hsaid, halone m hm hne] at hmatch
      cases hmatch

/-! ## A captioned picture -/

def picture : UploadedMediaFile := ⟨.image, "a.png", "image/png", 1, none, none, none, "k"⟩

def pictureEntry : ChatMessage :=
  { id := "local-1", roomID := "r", senderID := "u", senderName := "", content := "hi"
    status := some .sending, timestamp := 0 }

def pictureCopy : ChatMessage :=
  { id := "s", roomID := "r", senderID := "u", senderName := "", content := "hi [图片]"
    timestamp := 0 }

/-- A picture is sent with a caption. -/
def captioned : Delivery where
  draft := .media (some "hi") [picture]
  resent := false
  encrypted := false
  messages := [pictureEntry]
  pending := pictureEntry
  response := pictureCopy
  echo := pictureCopy
  sendable := cons_ne_nil _ _
  distinct := nodup_singleton _
  held := .head _
  isLocal := by decide
  content := by decide +kernel
  answered := ⟨[{ position := 0, partType := .text, textContent := some "hi" },
    { position := 1, partType := .image, attachmentKey := some "k", attachmentName := some "a.png"
      attachmentMime := some "image/png", attachmentSize := some 1 }], .mixed, by decide +kernel⟩
  echoed _ := rfl
  sameID := rfl
  named := by decide
  foreign := by decide
  about := by decide

/-- The entry of a captioned picture stays beside the message. -/
theorem captioned_stays : ¬ captioned.OneCopy := by
  intro h
  refine (h [pictureCopy] (.head _)).2.1 pictureEntry ?_ rfl
  exact (mem_after_iff captioned.distinct (by decide) (by decide)).2 ⟨.head _, by decide⟩

end RedcodeIm.Ios
