import Mathlib.Data.List.Sort
import RedcodeIm.Runtime.Deletion

/-!
# The text of a message, stored twice

A message has its text in its own row, as a summary, and in the rows of its parts.  A message
that is sent or forwarded is stored with both; an edit writes the row alone.

* `ServiceState.storedParts` — the parts of a message, as they are read.
* `ContentAgrees` — what the claim is about: the row of a message that is not encrypted says
  what its parts say.
* `Agreed` — the invariant: so it is of every message, and the parts are stored in order.
* `KeepsText` — an edit that brings a message the text of its parts.
* `content_agreement` — whatever is sent, forwarded, edited and deleted, at the same time.
* `content_disagrees` — an edit that brings another text.
-/

namespace RedcodeIm

open Awaiting Interleaving List

/-! ## The property -/

/-- `ORDER BY message_id, position`. -/
def ServiceState.storedParts (s : ServiceState) (messageId : Uuid) : List NewMessagePart :=
  (s.parts messageId).mergeSort fun a b => decide (a.position ≤ b.position)

/-- What is stored of a message that is not encrypted is the summary of its parts. -/
def ContentAgrees (s : ServiceState) : Prop :=
  ∀ row ∈ s.messages.rows, row.encryptedContent = none →
    row.content = summarizeMessageParts (s.storedParts row.id)

/-- The parts stand in the order of their positions. -/
def InOrder (parts : List NewMessagePart) : Prop :=
  parts.Pairwise fun a b => a.position ≤ b.position

/-- Every message, encrypted or not, is stored with its summary and with its parts in order. -/
def Agreed (s : ServiceState) : Prop :=
  ∀ row ∈ s.messages.rows, InOrder (s.parts row.id) ∧
    row.content = summarizeMessageParts (s.parts row.id)

variable {s : ServiceState}

theorem storedParts_of_inOrder {messageId : Uuid} (h : InOrder (s.parts messageId)) :
    s.storedParts messageId = s.parts messageId :=
  mergeSort_of_pairwise (h.imp fun hle => decide_eq_true hle)

theorem Agreed.contentAgrees (h : Agreed s) : ContentAgrees s := by
  intro row hrow _
  obtain ⟨horder, hcontent⟩ := h row hrow
  rwa [storedParts_of_inOrder horder]

/-- What a request may do to a message without taking its row and its parts apart: an edit
brings it the text its parts show, and a new one has no more parts than an `i16` counts. -/
def KeepsText (s : ServiceState) : ChatEffect → Prop
  | .service (.message (.updateMessageContent messageId newContent)) =>
    ∀ row, s.live messageId = some row →
      newContent = summarizeMessageParts (s.storedParts messageId)
  | .service (.message (.createMessageWithParts input)) => input.parts.length ≤ 2 ^ 15
  | _ => True

/-! ## Summaries -/

theorem partPosition_of_lt {n : ℕ} (h : n < 2 ^ 15) : partPosition n = n := by
  unfold partPosition
  rw [Int.bmod_def]
  omega

theorem preparePart_position {position : ℤ} {payload : MessagePartPayload}
    {part : NewMessagePart} (h : preparePart position payload = .ok (some part)) :
    part.position = position := by
  unfold preparePart at h
  cases payload <;> dsimp only at h <;> split at h <;> cases h <;> rfl

/-- The parts are counted one after another. -/
theorem prepareParts_positions : ∀ {payloads : List MessagePartPayload} {n : ℕ}
    {parts : List NewMessagePart}, prepareParts n payloads = .ok parts →
      parts.map (·.position) = (range' n parts.length).map partPosition := by
  intro payloads
  induction payloads with
  | nil =>
    intro n parts h
    cases h
    rfl
  | cons payload payloads ih =>
    intro n parts h
    rw [prepareParts] at h
    cases hpart : preparePart (partPosition n) payload with
    | error err =>
      rw [hpart] at h
      cases h
    | ok part =>
      rw [hpart] at h
      cases part with
      | none => exact ih h
      | some part =>
        cases hrest : prepareParts (n + 1) payloads with
        | error err =>
          rw [hrest] at h
          cases h
        | ok rest =>
          rw [hrest] at h
          cases h
          have hposition : part.position = partPosition n := preparePart_position hpart
          rw [map_cons, ih hrest, hposition, length_cons, range'_succ, map_cons]

variable {payloads : List MessagePartPayload} {parts : List NewMessagePart}

/-- What is stored of a message that is sent: its parts and their summary. -/
theorem normalizeMessageParts_ok {content : Option String} {messageType : MessageType}
    {summary : String}
    (h : normalizeMessageParts content payloads = .ok (parts, messageType, summary)) :
    prepareParts 0 (normalizedPayloads content payloads) = .ok parts ∧
      summary = summarizeMessageParts parts := by
  unfold normalizeMessageParts at h
  dsimp only at h
  split at h
  · cases h
  · cases hparts : prepareParts 0 (normalizedPayloads content payloads) with
    | error err =>
      rw [hparts] at h
      cases h
    | ok prepared =>
      rw [hparts] at h
      dsimp only at h
      split at h
      · cases h
      · split at h
        · cases h
        · cases h
          exact ⟨rfl, rfl⟩

theorem inOrder_prepareParts (h : prepareParts 0 payloads = .ok parts)
    (hlength : parts.length ≤ 2 ^ 15) :
    InOrder parts := by
  have hpositions : (parts.map (·.position)).Pairwise (· ≤ ·) := by
    rw [prepareParts_positions h, pairwise_map]
    have hcount : (range' 0 parts.length).Pairwise (· < ·) := pairwise_lt_range'
    refine hcount.imp_of_mem fun {a b} ha hb hab => ?_
    have hbound : ∀ n ∈ range' 0 parts.length, partPosition n = n := by
      intro n hn
      refine partPosition_of_lt (Nat.lt_of_lt_of_le ?_ hlength)
      simpa using hn
    rw [hbound a ha, hbound b hb]
    exact Int.ofNat_le.mpr (Nat.le_of_lt hab)
  exact pairwise_map.mp hpositions

/-- The text of a message without parts is its one part when it is forwarded. -/
theorem summarize_textPart {content : String} (h : content = summarizeMessageParts []) :
    content = summarizeMessageParts
      [{ position := 0, partType := .text, textContent := some content }] := by
  subst h
  decide +kernel

/-! ## One write -/

/-- Messages stay, with their parts. -/
def KeepsParts (s s' : ServiceState) : Prop :=
  ∀ row ∈ s.messages.rows, s'.parts row.id = s.parts row.id ∧
    ∃ row' ∈ s'.messages.rows, row'.id = row.id

theorem KeepsParts.refl (s : ServiceState) : KeepsParts s s :=
  fun row hrow => ⟨rfl, row, hrow, rfl⟩

variable {s' : ServiceState}

theorem KeepsParts.trans {s'' : ServiceState} (h : KeepsParts s s') (h' : KeepsParts s' s'') :
    KeepsParts s s'' := by
  intro row hrow
  obtain ⟨hparts, row', hrow', hid⟩ := h row hrow
  obtain ⟨hparts', row'', hrow'', hid'⟩ := h' row' hrow'
  rw [hid] at hparts' hid'
  exact ⟨hparts'.trans hparts, row'', hrow'', hid'⟩

section

variable {s s' : ServiceState} {row : MessageRecord} {parts : List NewMessagePart}

theorem Agreed.insertMessage (h : Agreed s) (hparts : InOrder parts)
    (hcontent : row.content = summarizeMessageParts parts) :
    Agreed (s.insertMessage row parts) := by
  obtain heq | ⟨hnew, hrows, hupdate⟩ := insertMessage_cases s row parts
  · rwa [heq]
  · intro row' hmem
    rw [hupdate]
    rw [hrows] at hmem
    rcases mem_append.mp hmem with hmem | hmem
    · rw [Function.update_of_ne (Table.get_eq_none_iff.mp hnew row' hmem)]
      exact h row' hmem
    · obtain rfl := mem_singleton.mp hmem
      rw [Function.update_self]
      exact ⟨hparts, hcontent⟩

theorem keepsParts_insertMessage (s : ServiceState) (row : MessageRecord)
    (parts : List NewMessagePart) : KeepsParts s (s.insertMessage row parts) := by
  obtain heq | ⟨hnew, hrows, hupdate⟩ := insertMessage_cases s row parts
  · rw [heq]
    exact .refl s
  · intro row' hmem
    rw [hupdate, Function.update_of_ne (Table.get_eq_none_iff.mp hnew row' hmem), hrows]
    exact ⟨rfl, row', mem_append_left _ hmem, rfl⟩

/-- A row is written anew, with the text its parts show. -/
theorem Agreed.put (h : Agreed s) {row' : MessageRecord} (hmem : row ∈ s.messages.rows)
    (hid : row'.id = row.id) (hcontent : row'.content = summarizeMessageParts (s.parts row.id)) :
    Agreed { s with messages := s.messages.put row' } := by
  intro row'' hmem''
  rcases Table.mem_put hmem'' with ⟨hold, -⟩ | rfl
  · exact h row'' hold
  · rw [hid]
    exact ⟨(h row hmem).1, hcontent⟩

theorem keepsParts_put (s : ServiceState) (row' : MessageRecord) :
    KeepsParts s { s with messages := s.messages.put row' } := by
  intro row hmem
  refine ⟨rfl, ?_⟩
  by_cases hid : row.id = row'.id
  · exact ⟨row', Table.mem_put_self _ _, hid.symm⟩
  · exact ⟨row, Table.mem_put_of_ne hmem hid, rfl⟩

theorem agreed_markMessageDeleted (h : Agreed s) (messageId : Uuid) (now : Timestamp) :
    Agreed (s.markMessageDeleted messageId now) ∧
      KeepsParts s (s.markMessageDeleted messageId now) := by
  unfold ServiceState.markMessageDeleted
  cases hlive : s.live messageId with
  | none => exact ⟨h, .refl s⟩
  | some row =>
    have hmem : row ∈ s.messages.rows := Table.mem_of_get (live_eq_some.mp hlive).1
    exact ⟨h.put hmem rfl (h row hmem).2, keepsParts_put s _⟩

theorem agreed_markRoomMessagesDeleted (now : Timestamp) :
    ∀ (rows : List MessageRecord) (s : ServiceState), Agreed s →
      Agreed (rows.foldl (fun s row => s.markMessageDeleted row.id now) s) ∧
        KeepsParts s (rows.foldl (fun s row => s.markMessageDeleted row.id now) s) := by
  intro rows
  induction rows with
  | nil => exact fun s h => ⟨h, .refl s⟩
  | cons row rows ih =>
    intro s h
    obtain ⟨hfirst, hkept⟩ := agreed_markMessageDeleted h row.id now
    obtain ⟨hrest, hkept'⟩ := ih _ hfirst
    exact ⟨hrest, hkept.trans hkept'⟩

end

/-- What a request is about to store tells the same twice. -/
def Tells : ServiceEffect → Prop
  | .message (.createMessageWithParts input) =>
    input.contentSummary = summarizeMessageParts input.parts ∧
      (input.parts.length ≤ 2 ^ 15 → InOrder input.parts)
  | .message (.createEncryptedMessageWithParts input) => input.Veiled
  | .message (.createForwardMessage _ _ _ original originalParts) =>
    InOrder originalParts ∧ original.message.content = summarizeMessageParts originalParts
  | _ => True

/-- What a request of any kind is about to store tells the same twice. -/
def ChatTells : ChatEffect → Prop
  | .service e => Tells e
  | _ => True

theorem inOrder_placeholderParts : InOrder placeholderParts := pairwise_singleton _ _

theorem summarize_placeholderParts :
    encryptedMessagePlaceholder = summarizeMessageParts placeholderParts := by
  decide +kernel

theorem agreed_applyMessage {e : MessageEffect} (now : Timestamp) (h : Agreed s)
    (he : Tells (.message e)) (hkeeps : KeepsText s (.service (.message e))) :
    Agreed (s.applyMessage now e) ∧ KeepsParts s (s.applyMessage now e) := by
  unfold ServiceState.applyMessage
  cases e with
  | createMessageWithParts input =>
    obtain ⟨hsummary, horder⟩ := he
    exact ⟨h.insertMessage (horder hkeeps) hsummary, keepsParts_insertMessage s _ _⟩
  | createEncryptedMessageWithParts input =>
    obtain ⟨hcontent, hparts⟩ := he
    dsimp only
    unfold ServiceState.createEncryptedMessage
    cases s.findEncrypted input with
    | some existing => exact ⟨h, .refl s⟩
    | none =>
      refine ⟨h.insertMessage ?_ ?_, keepsParts_insertMessage s _ _⟩
      · rw [hparts]
        exact inOrder_placeholderParts
      · rw [hparts]
        exact hcontent.trans summarize_placeholderParts
  | createForwardMessage messageId targetRoomId senderId original originalParts =>
    obtain ⟨horder, hcontent⟩ := he
    refine ⟨h.insertMessage ?_ ?_, keepsParts_insertMessage s _ _⟩
    · unfold MessageWithSender.forwarded
      split
      · exact pairwise_singleton _ _
      · exact horder
    · show original.message.content = summarizeMessageParts (if originalParts = [] then _ else _)
      split
      · next hnone =>
        rw [hnone] at hcontent
        exact summarize_textPart hcontent
      · exact hcontent
  | updateMessageContent messageId newContent =>
    dsimp only
    obtain ⟨-, heq⟩ | ⟨row, hlive, hmem, rfl, heq⟩ :=
      updateMessageContent_cases s messageId newContent now
    · rw [heq]
      exact ⟨h, .refl s⟩
    · rw [heq]
      refine ⟨h.put hmem rfl ?_, keepsParts_put s _⟩
      rw [← storedParts_of_inOrder (h row hmem).1]
      exact hkeeps row hlive
  | _ => exact ⟨h, .refl s⟩

variable {e : ChatEffect}

/-- **A write** that keeps the text keeps the row and the parts of every message together. -/
theorem agreed_applyChat (now : Timestamp) (h : Agreed s) (he : ChatTells e)
    (hkeeps : KeepsText s e) :
    Agreed (s.applyChat now e) ∧ KeepsParts s (s.applyChat now e) := by
  cases e with
  | service e =>
    cases e with
    | message e => exact agreed_applyMessage now h he hkeeps
    | upsertGeneralSettingsAtomic settings updatedBy =>
      obtain ⟨hmessages, hparts⟩ := s.upsertSettings_aside updatedBy now settings
      show Agreed (settings.foldl (ServiceState.upsertSetting updatedBy now) s) ∧
        KeepsParts s (settings.foldl (ServiceState.upsertSetting updatedBy now) s)
      unfold Agreed KeepsParts
      rw [hmessages, hparts]
      exact ⟨h, KeepsParts.refl s⟩
    | _ => exact ⟨h, .refl s⟩
  | markMessageDeleted messageId => exact agreed_markMessageDeleted h messageId now
  | markRoomMessagesDeleted roomId => exact agreed_markRoomMessagesDeleted now _ s h
  | _ => exact ⟨h, .refl s⟩

/-! ## What the handlers are about to write -/

theorem StoresNone.tells {e : ServiceEffect} (h : StoresNone e) : Tells e := by
  cases e with
  | message e =>
    cases e with
    | createMessageWithParts | createEncryptedMessageWithParts | createForwardMessage => cases h
    | _ => trivial
  | _ => trivial

theorem StoresPrepared.tells {payload : SendMessagePayload} {e : ServiceEffect}
    (h : StoresPrepared payload e) : Tells e := by
  cases e with
  | message e =>
    cases e with
    | createMessageWithParts input =>
      obtain ⟨hparts, hsummary⟩ := normalizeMessageParts_ok h
      exact ⟨hsummary, inOrder_prepareParts hparts⟩
    | createEncryptedMessageWithParts | createForwardMessage => cases h
    | _ => trivial
  | _ => trivial

theorem LateWrites.tells {e : ServiceEffect} (h : LateWrites e) : Tells e := by
  cases e with
  | message e =>
    cases e with
    | createMessageWithParts | createForwardMessage => cases h
    | createEncryptedMessageWithParts input => exact h
    | _ => trivial
  | _ => trivial

section

variable {env : Env Service ServiceState}

/-- A program of the service that relies on the messages that are there to stay. -/
abbrev Forwards {α : Type} (env : Env Service ServiceState) (p : ServiceAction α)
    (s : ServiceState) : Prop :=
  Relies Agreed KeepsParts env (fun _ e => Tells e) p s

/-- What the row of a message says is what its parts say. -/
def SaysParts (original : MessageWithSender) (s : ServiceState) : Prop :=
  InOrder (s.parts original.message.id) ∧
    original.message.content = summarizeMessageParts (s.parts original.message.id) ∧
    ∃ row ∈ s.messages.rows, row.id = original.message.id

variable {original : MessageWithSender} {s s' : ServiceState}

theorem SaysParts.keeps (hkeeps : KeepsParts s s') (h : SaysParts original s) :
    SaysParts original s' := by
  obtain ⟨horder, hcontent, row, hrow, hid⟩ := h
  have hparts := hkeeps row hrow
  rw [hid] at hparts
  unfold SaysParts
  rw [hparts.1]
  exact ⟨horder, hcontent, hparts.2⟩

variable (henv : ∀ s e r s', env s e r s' → serviceEnv s e r s')

include henv

/-- The message that is read. -/
theorem saysParts_of_answer {messageId : Uuid}
    (h : relying Agreed KeepsParts env s (.message (.getMessageWithSender messageId)) (.ok (some
      original)) s') : SaysParts original s' := by
  obtain ⟨s₁, -, hagreed, hstep⟩ := h
  obtain ⟨now, rfl, hanswer⟩ | ⟨-, err, herr⟩ := henv _ _ _ _ hstep
  · have hget : some original.message = s'.messages.get messageId := hanswer _ rfl
    have hmem : original.message ∈ s'.messages.rows := Table.mem_of_get hget.symm
    obtain ⟨horder, hcontent⟩ := hagreed _ hmem
    exact ⟨horder, hcontent, _, hmem, rfl⟩
  · cases herr

/-- The parts that are read afterwards are those of the message. -/
theorem parts_of_answer {parts : List NewMessagePart} (htold : SaysParts original s)
    (h : relying Agreed KeepsParts env s (.message (.getMessageParts original.message.id)) (.ok
      parts) s') : InOrder parts ∧ original.message.content = summarizeMessageParts parts := by
  obtain ⟨s₁, hkeeps, -, hstep⟩ := h
  obtain ⟨now, rfl, hanswer⟩ | ⟨-, err, herr⟩ := henv _ _ _ _ hstep
  · obtain rfl : parts = s'.parts original.message.id := hanswer _ rfl
    obtain ⟨horder, hcontent, -⟩ := htold.keeps hkeeps
    exact ⟨horder, hcontent⟩
  · cases herr

omit henv in
theorem forwards_of_none {α : Type} {p : ServiceAction α} (h : p.Uses Passive)
    (s : ServiceState) : Forwards env p s :=
  Relies.of_uses h fun _ _ he => he.storesNone.tells

omit henv in
theorem forwards_bind {α β : Type} {p : ServiceAction α} {f : α → ServiceAction β}
    (hp : Forwards env p s) (hf : ∀ a s', Forwards env (f a) s') :
    Forwards env (p >>= f) s :=
  hp.bind (fun a s' _ => hf a s') (fun _ _ _ => trivial) fun _ _ => trivial

theorem forwards_forwardMessage
    (hkeep : ∀ s e r s', Agreed s → Tells e → env s e r s' → KeepsParts s s') (rfc3339 : ℤ → String)
    (roomId senderId originalMessageId : Uuid) (s : ServiceState) :
    Forwards env (forwardMessage rfc3339 roomId senderId originalMessageId) s := by
  refine forwards_bind (forwards_of_none (uses_isRelayOnlyRuntime fun _ => trivial) s)
    fun relayOnly s => ?_
  refine forwards_bind (forwards_of_none (uses_isE2eeRuntime fun _ => trivial) s) fun e2ee s => ?_
  split
  · trivial
  · refine forwards_bind (forwards_of_none (uses_ensureMember _ _ _) s) fun _ s => ?_
    refine forwards_bind (forwards_of_none (uses_ensureGroupMessagePermissions _ _ _) s)
      fun _ s => ?_
    split
    · trivial
    · refine Action.always_perform_bind.2 ⟨trivial, fun r s' hread => ?_⟩
      rcases r with err | row
      · trivial
      · cases row with
        | none => trivial
        | some original =>
          have htold := saysParts_of_answer henv hread
          dsimp only [okOr, Action.done_bind]
          split
          · trivial
          · have hmember : Forwards env
                (ensureMember original.message.roomId senderId "用户无权转发该消息") s' :=
              forwards_of_none (uses_ensureMember _ _ _) s'
            refine (hmember.remembers (fun _ _ hR hK => hK.keeps hR) (fun _ _ _ _ he => he)
              hkeep htold).bind (fun _ s htold => ?_) (fun _ _ _ => trivial) fun _ _ => trivial
            split
            · trivial
            · refine Action.always_perform_bind.2 ⟨trivial, fun r s' hread => ?_⟩
              rcases r with err | parts
              · trivial
              · have htells := parts_of_answer henv htold hread
                refine forwards_bind (forwards_of_none (uses_recordAudit _) s') fun _ s => ?_
                refine forwards_bind
                  (forwards_of_none (uses_awaitMessage (e := .generateId) trivial) s)
                  fun messageId s => ?_
                refine forwards_bind (Relies.of_uses (P := Tells) (uses_awaitMessage htells)
                  fun _ _ he => he) fun created s => ?_
                exact forwards_of_none (uses_deliver _ _ _) s

theorem ApiCall.forwards (hkeep : ∀ s e r s', Agreed s → Tells e → env s e r s' → KeepsParts s s')
    (rfc3339 : ℤ → String) (call : ApiCall) (s : ServiceState) :
    Forwards env (call.program rfc3339) s := by
  cases call with
  | gate call =>
    have hgate : Forwards env call.program s :=
      Relies.of_uses (call.uses.mono fun _ h => h.lateWrites) fun _ _ he => he.tells
    exact forwards_bind hgate fun _ _ => trivial
  | message call =>
    refine forwards_bind ?_ fun _ _ => trivial
    cases call with
    | send roomId senderId payload =>
      exact Relies.of_uses (uses_sendMessage _ _ _ _) fun _ _ he => he.tells
    | sendEncrypted roomId senderId payload =>
      exact Relies.of_uses (uses_sendEncrypted _ _ _ _) fun _ _ he => he.tells
    | forward roomId senderId originalMessageId =>
      exact forwards_forwardMessage henv hkeep _ _ _ _ s
    | edit roomId messageId userId content =>
      exact Relies.of_uses (uses_editMessage _ _ _ _) fun _ _ he => he.tells

end

/-! ## Requests of any kind -/

section

variable {P : ChatEffect → Prop} {α β : Type}

theorem uses_ofService {p : ServiceAction α} (h : p.Uses fun e => P (.service e)) :
    (ofService p).Uses P := by
  induction p with
  | done | fail | spent => trivial
  | await e k ih => exact ⟨h.1, fun r => ih r (h.2 r)⟩

theorem uses_ignoringChat {p : ChatAction α} (h : p.Uses P) : (ignoringChat p).Uses P :=
  h.attempt.bind fun _ => trivial

end

theorem uses_quiet {α : Type} {p : ServiceAction α} (h : p.Uses Passive) :
    (ofService p).Uses ChatTells :=
  uses_ofService (h.mono fun _ he => he.storesNone.tells)

theorem uses_awaitChat (h : ChatTells e) : (awaitChat e).Uses ChatTells :=
  Action.uses_perform h

theorem uses_deleteMessage (roomId messageId userId : Uuid) :
    (deleteMessage roomId messageId userId).Uses ChatTells := by
  refine (uses_quiet (uses_ensureMember _ _ _)).bind fun _ => ?_
  refine (uses_quiet (uses_isRelayOnlyRuntime fun _ => trivial)).bind fun relayOnly => ?_
  split
  · trivial
  · refine (uses_quiet (uses_awaitMessage (by trivial))).bind fun row => ?_
    refine (uses_quiet uses_okOr).bind fun existing => ?_
    refine (uses_quiet uses_ensure).bind fun _ => ?_
    refine (uses_awaitChat (by trivial)).bind fun marked => ?_
    refine (uses_quiet uses_okOr).bind fun _ => ?_
    refine (uses_awaitChat (by trivial)).bind fun removed => ?_
    refine (uses_ignoringChat ?_).bind fun _ => ?_
    · split
      · exact uses_awaitChat trivial
      · trivial
    · refine (uses_quiet (uses_awaitMessage (by trivial))).bind fun row => ?_
      refine (uses_quiet uses_okOr).bind fun updated => ?_
      refine (uses_ignoringChat (uses_awaitChat (by trivial))).bind fun _ => ?_
      exact (uses_quiet (uses_awaitMessage (by trivial))).bind fun parts => trivial

theorem uses_clearRoomMessages (roomId userId : Uuid) :
    (clearRoomMessages roomId userId).Uses ChatTells := by
  refine (uses_quiet (uses_ensureMember _ _ _)).bind fun _ => ?_
  refine (uses_quiet (uses_isRelayOnlyRuntime fun _ => trivial)).bind fun relayOnly => ?_
  split
  · trivial
  · refine (uses_awaitChat (by trivial)).attempt.bind fun room => ?_
    rcases room with err | ⟨roomType, ownerId⟩
    · trivial
    · dsimp only
      split
      · trivial
      · refine (uses_awaitChat (by trivial)).bind fun deletedCount => ?_
        refine (uses_ignoringChat (uses_awaitChat (by trivial))).bind fun _ => ?_
        refine (uses_quiet (Action.uses_perform (by trivial))).bind fun now => ?_
        exact (uses_ignoringChat (uses_awaitChat (by trivial))).bind fun _ => trivial

/-- What a request of any kind is about to write, among others that do the same. -/
abbrev ChatRelies {α : Type} (p : ChatAction α) (s : ServiceState) : Prop :=
  Relies Agreed KeepsParts (chatEnv.guard KeepsText) (fun _ e => ChatTells e) p s

/-- The steps of the service among those that keep the text. -/
def keepingEnv : Env Service ServiceState :=
  fun s e r s' => KeepsText s (.service e) ∧ serviceEnv s e r s'

theorem chatRelies_ofService {α : Type} {p : ServiceAction α} (h : Forwards keepingEnv p s) :
    ChatRelies (ofService p) s := by
  induction p generalizing s with
  | done | fail | spent => trivial
  | await e k ih => exact ⟨h.1, fun r s' hstep => ih r (h.2 r s' hstep)⟩

theorem agreed_step {r : Chat.Answer e} (h : Agreed s) (he : ChatTells e)
    (hstep : chatEnv.guard KeepsText s e r s') :
    Agreed s' ∧ KeepsParts s s' := by
  obtain ⟨hkeeps, ⟨now, rfl, -⟩ | ⟨rfl, -⟩⟩ := hstep
  · exact agreed_applyChat now h he hkeeps
  · exact ⟨h, .refl _⟩

theorem ChatCall.relies (rfc3339 : ℤ → String) (call : ChatCall) (s : ServiceState) :
    ChatRelies (call.program rfc3339) s := by
  cases call with
  | api call =>
    have hcall : Forwards keepingEnv (call.program rfc3339) s :=
      call.forwards (fun _ _ _ _ h => h.2)
        (fun s e r s' h he hstep => (agreed_step (e := .service e) h he hstep).2) rfc3339 s
    exact (chatRelies_ofService hcall).bind (fun _ _ _ => trivial) (fun _ _ _ => trivial)
      fun _ _ => trivial
  | delete roomId messageId userId =>
    exact Relies.of_uses ((uses_deleteMessage _ _ _).bind fun _ => trivial) fun _ _ he => he
  | clear roomId userId =>
    exact Relies.of_uses ((uses_clearRoomMessages _ _).bind fun _ => trivial) fun _ _ he => he

/-! ## Every run -/

abbrev ChatPool : Type := Pool Chat ServiceState ((GateReply ⊕ SentMessage) ⊕ ℕ)

/-- The effects of any number of requests, in the order they are carried out. -/
abbrev ChatReach (rfc3339 : ℤ → String) (env : Env Chat ServiceState) :
    ChatPool → ChatPool → Prop :=
  Reach env (IsChatCall rfc3339)

/-- **Content and parts agree** in every state that requests to send, forward, edit and delete
reach side by side, as long as no edit brings a message another text than its parts show and no
new message has more parts than their positions count. -/
theorem content_agreement (rfc3339 : ℤ → String) {s₀ : ServiceState} (h₀ : Agreed s₀)
    {pool : ChatPool} (h : ChatReach rfc3339 (chatEnv.guard KeepsText) ⟨s₀, []⟩ pool) :
    ContentAgrees pool.world := by
  have hadmitted : ∀ p s, IsChatCall rfc3339 p → Agreed s → ChatRelies p s := by
    rintro p s ⟨call, rfl⟩ _
    exact call.relies rfc3339 s
  have hall := Relies.holds KeepsParts.refl (fun _ _ _ h h' => h.trans h')
    (fun _ _ _ _ he => he) hadmitted (fun _ _ _ _ h he hstep => agreed_step h he hstep) h h₀
    (forall_mem_nil _)
  exact hall.1.contentAgrees

/-! ## An edit that brings another text -/

/-- Room 7 has one message in plaintext, of user 5. -/
def oneText : ServiceState :=
  { approved with
    messages := Table.empty.insert (NewMessage.row
      { messageId := 40
        roomId := 7
        senderId := 5
        contentSummary := "hello"
        messageType := .text
        quotedMessageId := none
        parts := [{ position := 0, partType := .text, textContent := some "hello" }] } 0)
    parts := fun _ => [{ position := 0, partType := .text, textContent := some "hello" }] }

theorem agreed_oneText : Agreed oneText := by
  intro row hrow
  refine ⟨pairwise_singleton _ _, ?_⟩
  have hcontent : ∀ row ∈ oneText.messages.rows,
      row.content = summarizeMessageParts (oneText.parts row.id) := by
    decide +kernel
  exact hcontent row hrow

/-- A request to forward the message has come in. -/
theorem content_agreement_sample : ContentAgrees oneText := by
  have hreach : ChatReach (fun _ => "") (chatEnv.guard KeepsText) ⟨oneText, []⟩
      ⟨oneText, [ChatCall.program (fun _ => "") (.api (.message (.forward 7 5 40)))]⟩ :=
    .single (.begin oneText [] ⟨_, rfl⟩)
  exact content_agreement (fun _ => "") agreed_oneText hreach

/-- What an edit awaits is answered. -/
def chatEditsOnly : Handler Chat ServiceState
  | s, .service e => editsOnly s e
  | s, _ => (.error .databaseError, s)

theorem chatEnv_chatEditsOnly {r : Chat.Answer e} (h : chatEditsOnly.env s e r s') :
    chatEnv s e r s' := by
  cases e with
  | service e => exact serviceEnv_editsOnly h
  | _ =>
    cases h
    exact .inr ⟨rfl, .databaseError, rfl⟩

/-- User 5 edits the message: its row has the new text, and its one part the old. -/
theorem content_disagrees :
    ¬ ∀ (rfc3339 : ℤ → String) (s₀ : ServiceState) (pool : ChatPool), Agreed s₀ →
      ChatReach rfc3339 chatEnv ⟨s₀, []⟩ pool → ContentAgrees pool.world := by
  intro h
  obtain ⟨events, hrun⟩ := Action.run_exec (h := chatEditsOnly)
    (ChatCall.program (fun _ => "") (.api (.message (.edit 7 40 5 "goodbye")))) oneText
  have hagrees := h (fun _ => "") oneText _ agreed_oneText
    (Reach.run (hrun.mono fun _ _ _ _ => chatEnv_chatEditsOnly) ⟨_, rfl⟩ [])
  have hedited : ∃ row ∈ (Action.exec chatEditsOnly
      (ChatCall.program (fun _ => "") (.api (.message (.edit 7 40 5 "goodbye"))))
      oneText).2.messages.rows, row.encryptedContent = none ∧
        row.content ≠ summarizeMessageParts ((Action.exec chatEditsOnly
          (ChatCall.program (fun _ => "") (.api (.message (.edit 7 40 5 "goodbye"))))
          oneText).2.storedParts row.id) := by
    decide +kernel
  obtain ⟨row, hrow, hplain, hcontent⟩ := hedited
  exact hcontent (hagrees row hrow hplain)

end RedcodeIm
