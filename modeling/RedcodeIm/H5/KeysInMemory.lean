import Mathlib.Logic.Equiv.List
import RedcodeIm.H5.AttachmentKeys
import RedcodeIm.Lib.Machine

/-!
# The keys of attachments stay in memory

What is stored does not depend on the keys and the nonces of attachments.

* `MessageClient.hide_act` — the client does with messages what it does with any that differ from
  them in their keys only.
* `MessageClient.keysLeftOut_act` — no key is ever stored.
* `keys_stay_in_memory` — two runs that differ in keys and nonces only store the same.
-/

namespace RedcodeIm.H5

open SortBy MessageClient Option Function Machine
open Overlap (Next)

variable {J : PartsJson}

/-! ## What differs -/

def Waits.hide (J : PartsJson) : Waits → Waits
  | .nothing => .nothing
  | .resolution r => .resolution (r.hide J)
  | .rows resolved r rest =>
    .rows (resolved.map (ChatMessage.hide J)) (r.hide J) (rest.map (ChatMessage.hide J))
  | .index roomId roomName messages => .index roomId roomName (messages.map (ChatMessage.hide J))

def ClientTask.hide (J : PartsJson) : ClientTask → ClientTask
  | .detail c opened stage => .detail (c.hide J) opened (stage.hide J)
  | .chat c stage => .chat (c.hide J) (stage.hide J)
  | .done => .done

def ClientCall.hide (J : PartsJson) (call : ClientCall) : ClientCall :=
  ⟨call.task.hide J, call.waits.hide J⟩

def ClientChance.hide (J : PartsJson) : ClientChance → ClientChance
  | .detail x => .detail (x.hide J)
  | .chat x => .chat (x.hide J)
  | .rows messages => .rows (messages.map (ChatMessage.hide J))
  | .resolved => .resolved

/-- An act, with the keys and nonces left out. -/
def ClientAct.hide (J : PartsJson) : ClientAct → ClientAct
  | .detail c chat => .detail (c.hide J) chat
  | .event message => .event (message.hide J)
  | .run i x => .run i (x.hide J)
  | .settle n outcome => .settle n (outcome.map Decrypted.hide)
  | a => a

namespace MessageClient

def hide (J : PartsJson) (w : MessageClient) : MessageClient :=
  { w with
    detail := w.detail.hide J
    service := w.service.hide J
    sent := w.sent.map (ChatMessage.hide J)
    calls := w.calls.map (ClientCall.hide J) }

variable {w : MessageClient} {i : ℕ} {c : DetailCall} {chat : Option ChatSummary}
  {stage : DetailStage} {messages : List ChatMessage} {currentUser : Option String} {fts : Bool}

theorem setCall_hide (call : ClientCall) :
    (w.hide J).setCall i (call.hide J) = (w.setCall i call).hide J := by
  unfold setCall hide
  simp only [List.map_set]

theorem addCall_hide (call : ClientCall) :
    { w.hide J with calls := w.calls.map (ClientCall.hide J) ++ [call.hide J] } =
      hide J { w with calls := w.calls ++ [call] } := by
  unfold hide
  rw [List.map_append]
  rfl

theorem gotoDetail_hide (next : Next DetailStage Unit) :
    (w.hide J).gotoDetail i (c.hide J) chat (next.map (DetailStage.hide J)) =
      (w.gotoDetail i c chat next).hide J := by
  cases next with
  | done answer => exact setCall_hide ⟨.done, .nothing⟩
  | goto stage =>
    cases stage with
    | resolving message =>
      show (setCall { w.hide J with
        service := ((w.service.hide J).resolveEncryptedMessage (message.hide J)).1 } i
          ⟨_, .resolution ((w.service.hide J).resolveEncryptedMessage (message.hide J)).2⟩) = _
      rw [resolve_hide]
      exact setCall_hide (w := { w with service := (w.service.resolveEncryptedMessage message).1 })
        ⟨.detail c chat (.resolving message),
          .resolution (w.service.resolveEncryptedMessage message).2⟩
    | retrying roomId failed =>
      show (setCall { w.hide J with
        service := ((w.service.hide J).retryEncryptedMessage (failed.hide J)).1 } i
          ⟨_, .resolution ((w.service.hide J).retryEncryptedMessage (failed.hide J)).2⟩) = _
      rw [retry_hide]
      exact setCall_hide (w := { w with service := (w.service.retryEncryptedMessage failed).1 })
        ⟨.detail c chat (.retrying roomId failed),
          .resolution (w.service.retryEncryptedMessage failed).2⟩
    | _ =>
      refine Eq.trans ?_ (setCall_hide ⟨.detail c chat _, .nothing⟩)
      rfl

theorem sentBy_hide (x : DetailChance) :
    sentBy (stage.hide J) (x.hide J) = (sentBy stage x).map (ChatMessage.hide J) := by
  cases stage with
  | requested roomId localId content pending =>
    cases x with
    | reply messages =>
      rcases messages with _ | ⟨sent, _ | ⟨other, rest⟩⟩
      · rfl
      · show [withStatus .sent (visibleSent (pending.map (ChatMessage.hide J)) (sent.hide J))] = _
        rw [visibleSent_hide]
        rfl
      · rfl
    | _ => rfl
  | uploaded roomId =>
    cases x with
    | reply messages => rcases messages with _ | ⟨sent, _ | ⟨other, rest⟩⟩ <;> rfl
    | _ => rfl
  | _ => rfl

theorem chatOf_hide : (w.hide J).chatOf (c.hide J) chat (stage.hide J) = w.chatOf c chat stage := by
  cases c <;> cases stage <;> rfl

theorem goOnDetail_hide (x : DetailChance) :
    (w.hide J).goOnDetail currentUser i (c.hide J) chat (stage.hide J) (x.hide J) =
      (w.goOnDetail currentUser i c chat stage x).hide J := by
  have hstmt : detailStmt currentUser (w.hide J).detail (c.hide J) (stage.hide J) (x.hide J) =
    hideDetail J (detailStmt currentUser w.detail c stage x) := hide_detailStmt c stage x
  unfold goOnDetail
  rw [hstmt, chatOf_hide, sentBy_hide]
  generalize detailStmt currentUser w.detail c stage x = out
  have hworld : ({ w.hide J with
      detail := (hideDetail J out).1
      chat := w.chatOf c chat stage
      sent := w.sent.map (ChatMessage.hide J) ++ (sentBy stage x).map (ChatMessage.hide J) } :
        MessageClient) = hide J { w with
          detail := out.1
          chat := w.chatOf c chat stage
          sent := w.sent ++ sentBy stage x } := by
    unfold hide
    rw [List.map_append]
    rfl
  cases stage with
  | saving roomId messages after =>
    obtain ⟨world, next | answer⟩ := out
    · exact (congrArg (fun w' => setCall w' i ⟨.detail (c.hide J) chat (next.hide J),
        .index w'.detail.roomId w'.roomName (messages.map (ChatMessage.hide J))⟩) hworld).trans
        (setCall_hide ⟨.detail c chat next, .index _ _ messages⟩)
    · exact (congrArg (gotoDetail · i (c.hide J) chat (.done ())) hworld).trans
        (gotoDetail_hide (.done ()))
  | _ =>
    refine Eq.trans ?_ (gotoDetail_hide out.2)
    rw [← hworld]
    rfl

theorem resolveRows_hide (resolved rest : List ChatMessage) :
    (w.hide J).resolveRows currentUser i (c.hide J) chat (stage.hide J)
        (resolved.map (ChatMessage.hide J)) (rest.map (ChatMessage.hide J)) =
      (w.resolveRows currentUser i c chat stage resolved rest).hide J := by
  cases rest with
  | nil => exact goOnDetail_hide (.reply resolved)
  | cons message rest =>
    show (setCall { w.hide J with
      service := ((w.service.hide J).resolveEncryptedMessage (message.hide J)).1 } i
        ⟨_, .rows _ ((w.service.hide J).resolveEncryptedMessage (message.hide J)).2 _⟩) = _
    rw [resolve_hide]
    exact setCall_hide (w := { w with service := (w.service.resolveEncryptedMessage message).1 })
      ⟨.detail c chat stage, .rows resolved (w.service.resolveEncryptedMessage message).2 rest⟩

theorem replaceRoomIndex_hide (index : List SearchRow) (roomId roomName : String) :
    replaceRoomIndex fts index roomId roomName (messages.map (ChatMessage.hide J)) =
      replaceRoomIndex fts index roomId roomName messages := by
  refine if_congr Iff.rfl rfl ?_
  dsimp only
  rw [filter_hide fun _ => rfl, sortBy_hide fun _ => rfl, List.length_map, ← List.map_drop,
    List.map_map]
  rfl

theorem runDetail_hide (waits : Waits) (x : ClientChance) :
    (w.hide J).runDetail fts currentUser i (c.hide J) chat (stage.hide J) (waits.hide J)
        (x.hide J) =
      (w.runDetail fts currentUser i c chat stage waits x).map (hide J) := by
  cases waits with
  | nothing =>
    cases x with
    | detail x => exact congrArg some (goOnDetail_hide x)
    | rows messages =>
      simp only [runDetail, Waits.hide, ClientChance.hide]
      rw [sortBy_hide fun _ => rfl]
      split
      · exact congrArg some (resolveRows_hide [] _)
      · exact congrArg some (goOnDetail_hide (.reply _))
    | _ => rfl
  | resolution r =>
    cases x with
    | resolved =>
      show ((w.service.hide J).await (r.hide J)).map _ = ((w.service.await r).map _).map _
      rw [await_hide, map_map, map_map]
      congr 1
      funext message
      exact goOnDetail_hide (.reply [message])
    | _ => rfl
  | rows resolved r rest =>
    cases x with
    | resolved =>
      show ((w.service.hide J).await (r.hide J)).map _ = ((w.service.await r).map _).map _
      rw [await_hide, map_map, map_map]
      congr 1
      funext message
      refine Eq.trans ?_ (resolveRows_hide (resolved ++ [message]) rest)
      rw [List.map_append]
      rfl
    | _ => rfl
  | index roomId roomName messages =>
    cases x with
    | detail x =>
      have hindex : (if x.hide J = .ok then replaceRoomIndex fts w.index roomId roomName
            (messages.map (ChatMessage.hide J)) else w.index) =
          if x = .ok then replaceRoomIndex fts w.index roomId roomName messages else w.index := by
        rw [replaceRoomIndex_hide]
        cases x <;> rfl
      show some (goOnDetail { w.hide J with index := _ } _ _ _ _ _ _) = _
      rw [show (w.hide J).index = w.index from rfl, hindex]
      exact congrArg some (goOnDetail_hide (w := { w with
        index := if x = .ok then replaceRoomIndex fts w.index roomId roomName messages
          else w.index }) x)
    | _ => rfl

variable (call : ChatCall)

theorem gotoChat_hide (next : Next ChatStage ChatAnswer) :
    (w.hide J).gotoChat i (call.hide J) (next.map (ChatStage.hide J)) =
      (w.gotoChat i call next).hide J := by
  cases next with
  | done answer => exact setCall_hide ⟨.done, .nothing⟩
  | goto stage =>
    cases stage with
    | resolve message =>
      show (setCall { w.hide J with
        service := ((w.service.hide J).resolveEncryptedMessage (message.hide J)).1 } i
          ⟨_, .resolution ((w.service.hide J).resolveEncryptedMessage (message.hide J)).2⟩) = _
      rw [resolve_hide]
      exact setCall_hide (w := { w with service := (w.service.resolveEncryptedMessage message).1 })
        ⟨.chat call (.resolve message), .resolution (w.service.resolveEncryptedMessage message).2⟩
    | _ =>
      refine Eq.trans ?_ (setCall_hide ⟨.chat call _, .nothing⟩)
      rfl

theorem goOnChat_hide (now : ChatStage) (x : ChatChance) :
    (w.hide J).goOnChat currentUser i (call.hide J) (now.hide J) (x.hide J) =
      (w.goOnChat currentUser i call now x).hide J := by
  have hstmt : chatStmt currentUser (ChatWorld.hide J
        { messages := w.detail.saved, chats := w.chats, summaries := w.summaries,
          openRoom := some w.detail.roomId }) (call.hide J) (now.hide J) (x.hide J) =
      hideChat J (chatStmt currentUser
        { messages := w.detail.saved, chats := w.chats, summaries := w.summaries,
          openRoom := some w.detail.roomId } call now x) := hide_chatStmt _ call now x
  have hgoto (out : ChatWorld × Next ChatStage ChatAnswer) :
      gotoChat { w.hide J with
        detail := { (w.hide J).detail with saved := (hideChat J out).1.messages }
        chats := (hideChat J out).1.chats
        summaries := (hideChat J out).1.summaries } i (call.hide J) (hideChat J out).2 =
      (gotoChat { w with
        detail := { w.detail with saved := out.1.messages }
        chats := out.1.chats
        summaries := out.1.summaries } i call out.2).hide J :=
    gotoChat_hide (w := { w with
      detail := { w.detail with saved := out.1.messages }
      chats := out.1.chats
      summaries := out.1.summaries }) call out.2
  exact (congrArg (fun out : ChatWorld × Next ChatStage ChatAnswer =>
    gotoChat { w.hide J with
      detail := { (w.hide J).detail with saved := out.1.messages }
      chats := out.1.chats
      summaries := out.1.summaries } i (call.hide J) out.2) hstmt).trans (hgoto _)

theorem runChat_hide (now : ChatStage) (waits : Waits) (x : ClientChance) :
    (w.hide J).runChat currentUser i (call.hide J) (now.hide J) (waits.hide J) (x.hide J) =
      (w.runChat currentUser i call now waits x).map (hide J) := by
  cases waits with
  | nothing =>
    cases x with
    | chat x => exact congrArg some (goOnChat_hide call now x)
    | _ => rfl
  | resolution r =>
    cases x with
    | resolved =>
      show ((w.service.hide J).await (r.hide J)).map _ = ((w.service.await r).map _).map _
      rw [await_hide, map_map, map_map]
      congr 1
      funext message
      exact goOnChat_hide call now (.resolved message)
    | _ => rfl
  | _ => cases x <;> rfl

theorem loadAttachment_hide (entries : BlobEntries) (message : ChatMessage)
    (attachment : MessageAttachment) (d : Download) :
    loadAttachment J entries (message.hide J) attachment d =
      loadAttachment J entries message attachment d := by
  unfold loadAttachment
  rw [e2eePartsOf_hide]
  cases e2eePartsOf J message with
  | none => rfl
  | some parts =>
    have hany : ((parts.map E2eeAttachmentPart.hide).any fun part =>
        part.objectKey = attachment.key) = parts.any fun part => part.objectKey = attachment.key :=
      List.any_map
    simp only [map_some, any_some, hany, hide_roomId]

/-- The client does the same with acts whose keys and nonces are others. -/
theorem hide_act (a : ClientAct) :
    (w.hide J).act J fts currentUser (a.hide J) = (w.act J fts currentUser a).map (hide J) := by
  cases a with
  | detail c chat => exact congrArg some (addCall_hide ⟨.detail c chat .begin, .nothing⟩)
  | event message => exact congrArg some (addCall_hide ⟨.chat (.event message) .received, .nothing⟩)
  | tell n =>
    show ((w.sent.map (ChatMessage.hide J))[n]?).map _ = ((w.sent[n]?).map _).map _
    rw [List.getElem?_map, map_map, map_map]
    congr 1
    funext message
    exact addCall_hide ⟨.chat (.incoming message) (.load message), .nothing⟩
  | run i x =>
    have hcall : (w.hide J).calls[i]? = (w.calls[i]?).map (ClientCall.hide J) := List.getElem?_map
    simp only [act, ClientAct.hide]
    rw [hcall]
    cases w.calls[i]? with
    | none => rfl
    | some call =>
      obtain ⟨⟨c, chat, stage⟩ | ⟨c, stage⟩ | _, waits⟩ := call
      · exact runDetail_hide waits x
      · exact runChat_hide c stage waits x
      · rfl
  | settle n outcome =>
    show ((w.service.hide J).settle J _ n (outcome.map Decrypted.hide)).map _ =
      ((w.service.settle J _ n outcome).map _).map _
    rw [settle_hide, map_map, map_map]
    rfl
  | showAttachment i j d =>
    show ((w.detail.messages.map (ChatMessage.hide J))[i]?).bind _ =
      ((w.detail.messages[i]?).bind _).map _
    rw [List.getElem?_map]
    cases w.detail.messages[i]? with
    | none => rfl
    | some message =>
      show ((message.attachments.value.getD [])[j]?).map _ =
        (((message.attachments.value.getD [])[j]?).map _).map _
      rw [map_map]
      congr 1
      funext attachment
      exact congrArg (fun localStorage => ({ w.hide J with localStorage } : MessageClient))
        (loadAttachment_hide ..)
  | clearMessages roomId =>
    refine congrArg some (congrArg (fun saved => ({ w.hide J with
      detail := { (w.hide J).detail with saved } } : MessageClient)) ?_)
    exact Table.filter_mapRows _ _
  | _ => rfl

end MessageClient

/-! ## What is stored -/

/-- No key of an attachment is in a table of messages. -/
def KeysLeftOut (db : MessageDb) : Prop := ∀ row ∈ db.rows, ¬hasParts row.payload

variable {db : MessageDb}

theorem keysLeftOut_saveMessages (h : KeysLeftOut db) (roomId : String)
    (messages : List ChatMessage) : KeysLeftOut (db.saveMessages roomId messages) := by
  intro row hrow
  rcases MessageDb.mem_rows_of_saveMessages hrow with hrow | ⟨m, -, rfl⟩
  · exact h row hrow
  · exact not_hasParts_sanitize

theorem hide_of_keysLeftOut (h : KeysLeftOut db) : db.hide J = db := by
  refine Table.eq_of_rows_eq ?_
  show db.rows.map (StoredMessage.hide J) = db.rows
  refine (List.map_congr_left fun row hrow => ?_).trans (List.map_id db.rows)
  exact congrArg (StoredMessage.mk row.roomId) (hide_of_not (h row hrow))

/-- An action writes nothing but the messages of a room. -/
def Writes (db db' : MessageDb) : Prop :=
  db' = db ∨ ∃ roomId messages, db' = db.saveMessages roomId messages

variable (currentUser : Option String)

theorem writes_detailStmt (w : DetailWorld) (c : DetailCall) (stage : DetailStage)
    (x : DetailChance) :
    Writes w.saved (detailStmt currentUser w c stage x).1.saved := by
  by_cases hsaving : ∃ roomId messages next, stage = .saving roomId messages next
  · obtain ⟨roomId, messages, next, rfl⟩ := hsaving
    by_cases hx : x = .ok
    · exact .inr ⟨roomId, messages, if_pos hx⟩
    · exact .inl (if_neg hx)
  · exact .inl (saved_detailStmt fun roomId messages next h => hsaving ⟨roomId, messages, next, h⟩)

theorem writes_persistMessages (db : MessageDb) (roomId : String) (messages : List ChatMessage)
    (x : ChatChance) : Writes db (persistMessages db roomId messages x) := by
  unfold persistMessages
  split
  · exact .inr ⟨roomId, messages, rfl⟩
  · exact .inl rfl

theorem writes_chatStmt (w : ChatWorld) (c : ChatCall) (stage : ChatStage) (x : ChatChance) :
    Writes w.messages (chatStmt currentUser w c stage x).1.messages := by
  cases stage with
  | received =>
    refine .inl ?_
    unfold chatStmt
    dsimp only
    split
    · rfl
    · split <;> rfl
  | resolve message => cases x <;> exact .inl rfl
  | load message =>
    refine .inl ?_
    unfold chatStmt
    dsimp only
    split <;> rfl
  | update | store => exact .inl rfl
  | _ => exact writes_persistMessages ..

theorem keysLeftOut_of_writes {db' : MessageDb} (h : KeysLeftOut db) (hwrites : Writes db db') :
    KeysLeftOut db' := by
  rcases hwrites with rfl | ⟨roomId, messages, rfl⟩
  · exact h
  · exact keysLeftOut_saveMessages h roomId messages

namespace MessageClient

variable {w w' : MessageClient} {i : ℕ} {fts : Bool} {currentUser : Option String}

variable (c : DetailCall) (chat : Option ChatSummary)

theorem saved_gotoDetail (next : Next DetailStage Unit) :
    (w.gotoDetail i c chat next).detail.saved = w.detail.saved := by
  cases next with
  | done answer => rfl
  | goto stage => cases stage <;> rfl

theorem writes_goOnDetail (stage : DetailStage) (x : DetailChance) :
    Writes w.detail.saved (w.goOnDetail currentUser i c chat stage x).detail.saved := by
  have hwrites := writes_detailStmt currentUser w.detail c stage x
  unfold goOnDetail
  dsimp only
  split
  · exact hwrites
  · rw [saved_gotoDetail]
    exact hwrites

theorem writes_resolveRows (stage : DetailStage) (resolved rest : List ChatMessage) :
    Writes w.detail.saved
      (w.resolveRows currentUser i c chat stage resolved rest).detail.saved := by
  cases rest with
  | nil => exact writes_goOnDetail ..
  | cons message rest => exact .inl rfl

theorem writes_runDetail {c : DetailCall} {chat : Option ChatSummary} {stage : DetailStage}
    {waits : Waits} {x : ClientChance}
    (h : w.runDetail fts currentUser i c chat stage waits x = some w') :
    Writes w.detail.saved w'.detail.saved := by
  cases waits with
  | nothing =>
    cases x with
    | detail x =>
      cases h
      exact writes_goOnDetail ..
    | rows messages =>
      unfold runDetail at h
      dsimp only at h
      split at h
      · cases h
        exact writes_resolveRows ..
      · cases h
        exact writes_goOnDetail ..
    | _ => cases h
  | resolution r =>
    cases x with
    | resolved =>
      obtain ⟨message, -, rfl⟩ := map_eq_some_iff.1 h
      exact writes_goOnDetail ..
    | _ => cases h
  | rows resolved r rest =>
    cases x with
    | resolved =>
      obtain ⟨message, -, rfl⟩ := map_eq_some_iff.1 h
      exact writes_resolveRows ..
    | _ => cases h
  | index roomId roomName messages =>
    cases x with
    | detail x =>
      cases h
      exact writes_goOnDetail ..
    | _ => cases h

theorem saved_gotoChat (c : ChatCall) (next : Next ChatStage ChatAnswer) :
    (w.gotoChat i c next).detail.saved = w.detail.saved := by
  cases next with
  | done answer => rfl
  | goto stage => cases stage <;> rfl

theorem writes_goOnChat (c : ChatCall) (stage : ChatStage) (x : ChatChance) :
    Writes w.detail.saved (w.goOnChat currentUser i c stage x).detail.saved := by
  unfold goOnChat
  rw [saved_gotoChat]
  exact writes_chatStmt ..

theorem writes_runChat {c : ChatCall} {stage : ChatStage} {waits : Waits} {x : ClientChance}
    (h : w.runChat currentUser i c stage waits x = some w') :
    Writes w.detail.saved w'.detail.saved := by
  cases waits with
  | nothing =>
    cases x with
    | chat x =>
      cases h
      exact writes_goOnChat ..
    | _ => cases h
  | resolution r =>
    cases x with
    | resolved =>
      obtain ⟨message, -, rfl⟩ := map_eq_some_iff.1 h
      exact writes_goOnChat ..
    | _ => cases h
  | _ => cases x <;> cases h

theorem keysLeftOut_act {a : ClientAct} (h : KeysLeftOut w.detail.saved)
    (hact : w.act J fts currentUser a = some w') : KeysLeftOut w'.detail.saved := by
  cases a with
  | tell n =>
    obtain ⟨message, -, rfl⟩ := map_eq_some_iff.1 hact
    exact h
  | run i x =>
    unfold act at hact
    dsimp only at hact
    split at hact
    · exact keysLeftOut_of_writes h (writes_runDetail hact)
    · exact keysLeftOut_of_writes h (writes_runChat hact)
    · cases hact
  | settle n outcome =>
    obtain ⟨service, -, rfl⟩ := map_eq_some_iff.1 hact
    exact h
  | showAttachment i j d =>
    obtain ⟨message, -, hact⟩ := bind_eq_some_iff.1 hact
    obtain ⟨attachment, -, rfl⟩ := map_eq_some_iff.1 hact
    exact h
  | clearMessages roomId =>
    cases hact
    exact fun row hrow => h row (Table.mem_filter.1 hrow).1
  | clearStored keepChats =>
    cases hact
    exact fun row hrow => absurd hrow List.not_mem_nil
  | _ =>
    cases hact
    exact h

theorem keysLeftOut_perform {acts : List ClientAct} (h : KeysLeftOut w.detail.saved)
    (hrun : perform (fun w a => w.act J fts currentUser a) acts w = some w') :
    KeysLeftOut w'.detail.saved :=
  (Machine.Reach.of_perform (G := fun _ _ => True) (fun _ _ => trivial) hrun).invariant
    (I := fun w => KeysLeftOut w.detail.saved) (fun _ _ _ h _ hact => keysLeftOut_act h hact) h

/-- **No key of an attachment is ever stored**, whatever is done. -/
theorem no_key_stored (J : PartsJson) (fts : Bool) (currentUser : Option String)
    (acts : List ClientAct) :
    (perform (fun w a => act w J fts currentUser a) acts .empty).elim True fun w =>
      KeysLeftOut w.stored.messages := by
  cases hrun : perform (fun w a => act w J fts currentUser a) acts .empty with
  | none => trivial
  | some w => exact keysLeftOut_perform (fun row hrow => absurd hrow List.not_mem_nil) hrun

theorem stored_hide (h : KeysLeftOut w.detail.saved) : (w.hide J).stored = w.stored :=
  congrArg (fun messages => ({ w.stored with messages } : Stored)) (hide_of_keysLeftOut h)

end MessageClient

/-- Runs that are the same, but for the keys and nonces of the attachments. -/
def SameButKeys (J : PartsJson) (acts acts' : List ClientAct) : Prop :=
  acts.map (ClientAct.hide J) = acts'.map (ClientAct.hide J)

/-- **The keys and nonces of attachments stay in memory**: two runs that are the same but for them
store the same, whatever is done in them. -/
theorem keys_stay_in_memory (J : PartsJson) (fts : Bool) (currentUser : Option String)
    {acts acts' : List ClientAct} (h : SameButKeys J acts acts') :
    (perform (fun w a => act w J fts currentUser a) acts .empty).map
        stored =
      (perform (fun w a => act w J fts currentUser a) acts' .empty).map
        stored := by
  have hempty : KeysLeftOut empty.detail.saved :=
    fun row hrow => absurd hrow List.not_mem_nil
  have hstored (acts : List ClientAct) :
      (perform (fun w a => act w J fts currentUser a) acts .empty).map
          stored =
        (perform (fun w a => act w J fts currentUser a)
          (acts.map (ClientAct.hide J)) (empty.hide J)).map stored := by
    rw [perform_map fun w a => hide_act (w := w) a, map_map]
    cases hrun : perform (fun w a => act w J fts currentUser a) acts
        .empty with
    | none => rfl
    | some w =>
      exact congrArg some
        (stored_hide (keysLeftOut_perform hempty hrun)).symm
  rw [hstored acts, hstored acts', show acts.map _ = acts'.map _ from h]

/-! ## A picture, decrypted -/

theorem countable_parts : Countable (List E2eeAttachmentPart) := by
  have hpart : Function.Injective fun part : E2eeAttachmentPart =>
      ((part.partKey.toList.map Char.toNat, part.objectKey.toList.map Char.toNat,
        part.name.toList.map Char.toNat, part.mimeType.toList.map Char.toNat),
        (part.size, part.partPosition), part.nonce.map UInt8.toNat, part.dek.map UInt8.toNat) := by
    intro part part' h
    have htext {s t : String} (h : s.toList.map Char.toNat = t.toList.map Char.toNat) : s = t :=
      String.toList_injective (List.map_injective_iff.2 (fun _ _ => Char.toNat_inj.1) h)
    have hbytes {l m : List UInt8} (h : l.map UInt8.toNat = m.map UInt8.toNat) : l = m :=
      List.map_injective_iff.2 (fun _ _ => UInt8.toNat_inj.1) h
    simp only [Prod.mk.injEq] at h
    obtain ⟨⟨hkey, hobject, hname, hmime⟩, ⟨hsize, hposition⟩, hnonce, hdek⟩ := h
    cases part
    cases part'
    rw [E2eeAttachmentPart.mk.injEq]
    exact ⟨htext hkey, htext hobject, htext hname, htext hmime, hsize, hposition, hbytes hnonce,
      hbytes hdek⟩
  have : Countable E2eeAttachmentPart := hpart.countable
  infer_instance

/-- A picture, with its key. -/
def samplePicture (key : UInt8) : E2eeAttachmentPart where
  partKey := "1"
  objectKey := "rooms/7/1"
  name := "a.png"
  mimeType := "image/png"
  size := 2048
  partPosition := 0
  nonce := [5]
  dek := [key]

def samplePictureText (key : String) : String :=
  "[\x7b\"partKey\":\"1\",\"objectKey\":\"rooms/7/1\",\"name\":\"a.png\"," ++
    "\"mimeType\":\"image/png\",\"size\":2048,\"partPosition\":0," ++
    "\"nonce\":\x7b\"0\":5\x7d,\"dek\":\x7b\"0\":" ++ key ++ "\x7d\x7d]"

/-- A text that is no JSON, and no picture's. -/
def brackets (n : ℕ) : String := String.ofList (List.replicate n '[')

theorem ne_brackets {s : String} (h : s.toList.any (fun c => c ≠ '[') = true) (n : ℕ) :
    brackets n ≠ s := by
  rintro rfl
  rw [brackets, String.toList_ofList, List.any_replicate] at h
  split at h <;> simp at h

theorem brackets_injective : Function.Injective brackets := by
  intro n n' h
  have hlength := congrArg (fun s => s.toList.length) h
  simpa only [brackets, String.toList_ofList, List.length_replicate] using hlength

/-- A value that no other argument has keeps a function injective. -/
theorem injective_update {α β : Type} [DecidableEq α] {f : α → β} (hf : Function.Injective f)
    {a : α} {b : β} (hb : ∀ x, f x ≠ b) : Function.Injective (update f a b) := by
  intro x y h
  by_cases hx : x = a
  · by_cases hy : y = a
    · exact hx.trans hy.symm
    · rw [hx, update_self, update_of_ne hy] at h
      exact absurd h.symm (hb y)
  · by_cases hy : y = a
    · rw [hy, update_self, update_of_ne hx] at h
      exact absurd h (hb x)
    · rw [update_of_ne hx, update_of_ne hy] at h
      exact hf h

theorem forall_update_ne {α β : Type} [DecidableEq α] {f : α → β} {a : α} {b c : β}
    (hb : b ≠ c) (hf : ∀ x, f x ≠ c) (x : α) : update f a b x ≠ c := by
  by_cases hx : x = a
  · rw [hx, update_self]
    exact hb
  · rw [update_of_ne hx]
    exact hf x

noncomputable def sampleStringify : List E2eeAttachmentPart → String :=
  update (update
    (fun parts => brackets ((countable_parts.exists_injective_nat).choose parts))
    [samplePicture 1] (samplePictureText "1")) [samplePicture 2] (samplePictureText "2")

theorem sampleStringify_ne {s : String} (h : s.toList.any (fun c => c ≠ '[') = true)
    (hone : samplePictureText "1" ≠ s) (htwo : samplePictureText "2" ≠ s)
    (parts : List E2eeAttachmentPart) : sampleStringify parts ≠ s :=
  forall_update_ne htwo (forall_update_ne hone fun _ => ne_brackets h _) parts

theorem sampleStringify_injective : Function.Injective sampleStringify := by
  refine injective_update (injective_update ?_ fun _ => ne_brackets (by decide +kernel) _)
    (forall_update_ne (by decide +kernel) fun _ => ne_brackets (by decide +kernel) _)
  exact brackets_injective.comp (countable_parts.exists_injective_nat).choose_spec

theorem truthy_sampleStringify (parts : List E2eeAttachmentPart) :
    truthy (sampleStringify parts) = true := by
  have hne : ∀ s ∈ ["null", "false", "0", "-0", "\"\""], sampleStringify parts ≠ s := by
    have htexts : ∀ s ∈ ["null", "false", "0", "-0", "\"\""],
        s.toList.any (fun c => c ≠ '[') = true ∧ samplePictureText "1" ≠ s ∧
          samplePictureText "2" ≠ s := by decide +kernel
    exact fun s hs => sampleStringify_ne (htexts s hs).1 (htexts s hs).2.1 (htexts s hs).2.2 parts
  unfold truthy
  rw [Bool.not_eq_true', List.contains_eq_mem, decide_eq_false_iff_not]
  exact fun hmem => hne _ hmem rfl

open Classical in
/-- Parts as texts, those of pictures as they are. -/
noncomputable def sampleParts : PartsJson where
  stringify := sampleStringify
  parse := fun json => if h : ∃ parts, sampleStringify parts = json then some h.choose else none
  parse_stringify := fun parts => by
    have hsome : ∃ parts', sampleStringify parts' = sampleStringify parts := ⟨parts, rfl⟩
    rw [dif_pos hsome, sampleStringify_injective hsome.choose_spec]
  truthy_of_parse := fun {json parts} h => by
    split at h
    · rename_i hsome
      rw [← hsome.choose_spec]
      exact truthy_sampleStringify _
    · cases h

/-- An encrypted message. -/
def sampleSealed : ChatMessage where
  id := "1"
  roomId := "7"
  senderId := "3"
  senderName := "ada"
  content := ""
  type := .text
  timestamp := 0
  encryptedContent := some (some "AQID")
  encryptionMetadata := some (some
    [("protocol", "\"mls\""), ("version", "1"), ("content_type", "\"application\"")])

/-- A room is entered, and a picture in it is decrypted, indexed and stored. -/
def samplePictureRun (key : UInt8) : List ClientAct :=
  [.detail (.enterRoom "7") none, .run 0 (.detail (.ready false "" 0)), .run 0 (.detail .ok),
    .run 0 (.rows [sampleSealed]),
    .settle 0 (some { epoch := 1, payload := .attachment [samplePicture key] }),
    .run 0 .resolved, .run 0 (.detail .ok), .run 0 (.detail .ok)]

theorem keys_stay_in_memory_picture :
    (perform (fun w a => act w sampleParts false (some "4") a)
        (samplePictureRun 1) .empty).map stored =
      (perform (fun w a => act w sampleParts false (some "4") a)
        (samplePictureRun 2) .empty).map stored ∧
    ((perform (fun w a => act w sampleParts false (some "4") a)
        (samplePictureRun 1) .empty).map fun w =>
          (w.stored.messages.rows.map fun row => row.payload.content,
            w.stored.index.map SearchRow.content)) = some (["[加密附件]"], ["[加密附件]"]) :=
  ⟨keys_stay_in_memory sampleParts false (some "4") rfl, by decide +kernel⟩

end RedcodeIm.H5
