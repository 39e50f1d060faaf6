import RedcodeIm.H5.RoomIsolation
import RedcodeIm.Ios.ChatDetailController

/-!
# The open chat of the iOS client shows one room

Methods of the controller go on after the user may have entered another room.

* `OfOneRoom`, `InRoom` — what is to hold, and the condition: a method goes on with messages of the
  room that is open.
* `shows_one_room` — under the condition it is so in every state.
* `open_chats_show_one_room` — the same of both clients.
-/

namespace RedcodeIm.Ios

open Overlap (Each Next Reach Step)
open List

/-! ## Messages of one room -/

/-- All the messages are of the room. -/
def Within (roomID : String) (messages : List ChatMessage) : Prop :=
  ∀ message ∈ messages, message.roomID = roomID

section

variable {roomID : String} {messages : List ChatMessage}

theorem within_nil : Within roomID [] := forall_mem_nil _

theorem within_singleton {message : ChatMessage} (h : message.roomID = roomID) :
    Within roomID [message] := forall_mem_singleton.2 h

variable {f : ChatMessage → ChatMessage}

theorem Within.map (h : Within roomID messages) (hf : ∀ m ∈ messages, (f m).roomID = m.roomID) :
    Within roomID (messages.map f) := by
  intro m hm
  obtain ⟨y, hy, rfl⟩ := mem_map.1 hm
  rw [hf y hy, h y hy]

theorem Within.mapID (h : Within roomID messages) (messageID : String)
    (hf : ∀ m ∈ messages, (f m).roomID = m.roomID) :
    Within roomID (mapID messageID f messages) := by
  refine h.map fun m hm => ?_
  split
  · exact hf m hm
  · rfl

theorem Within.replacingStatus (h : Within roomID messages) (messageID : String)
    (status : ChatMessageStatus) :
    Within roomID (Ios.mapID messageID (·.replacingStatus status) messages) :=
  h.mapID messageID fun _ _ => rfl

variable {byID : ByID}

theorem within_put (h : Within roomID byID.rows) {m : ChatMessage} (hm : m.roomID = roomID) :
    Within roomID (byID.put m).rows := by
  intro x hx
  rcases Table.mem_put hx with ⟨hx, -⟩ | rfl
  · exact h x hx
  · exact hm

theorem within_puts (h : Within roomID messages) (hbyID : Within roomID byID.rows) :
    Within roomID (messages.foldl Table.put byID).rows := by
  induction messages generalizing byID with
  | nil => exact hbyID
  | cons m messages ih =>
    exact ih (fun x hx => h x (mem_cons_of_mem _ hx))
      (within_put hbyID (h m mem_cons_self))

variable {incoming : List ChatMessage}

theorem within_absorb (h : Within roomID incoming) (hbyID : Within roomID byID.rows) :
    Within roomID (incoming.foldl ByID.absorb byID).rows := by
  induction incoming generalizing byID with
  | nil => exact hbyID
  | cons m incoming ih =>
    refine ih (fun x hx => h x (mem_cons_of_mem _ hx)) ?_
    have hrest : Within roomID
        (byID.filter fun pending => !pending.matchesPending m).rows := fun x hx =>
      hbyID x (Table.mem_filter.1 hx).1
    unfold ByID.absorb
    split
    · exact hbyID
    · dsimp only
      split
      · exact within_put hrest (h m mem_cons_self)
      · exact within_put hrest (h m mem_cons_self)

/-- Messages of one room merge into messages of the room. -/
theorem Within.merge (h : Within roomID messages) (hincoming : Within roomID incoming) :
    Within roomID (mergeMessages messages incoming) := by
  intro x hx
  unfold mergeMessages at hx
  rw [SortBy.mem_sortBy] at hx
  refine within_absorb hincoming (within_puts ?_ ?_) x hx
  · exact fun y hy => h y (mem_filter.1 hy).1
  · exact fun y hy => absurd hy not_mem_nil

end

namespace ChatIsolation

abbrev State := Overlap.State ControllerWorld ControllerCall ControllerStage Unit

abbrev Status := Overlap.Status ControllerStage Unit

abbrev Condition :=
  Overlap.Condition ControllerWorld ControllerCall ControllerStage Unit ControllerChance

/-- What is stored of a room are messages of it. -/
def StoredWithin (cache : List CachedMessage) : Prop :=
  ∀ record ∈ cache, record.draft.roomID = record.roomID

/-- The open chat shows one room, by its tidied name. -/
structure OfOneRoom (w : ControllerWorld) : Prop where
  shown : Within w.roomID w.messages
  stored : StoredWithin w.cache
  tidied : Text.trim w.roomID = w.roomID

/-- Whatever the methods do under a condition, the open chat shows one room, and what is done about
a message of another room leaves the messages that are being sent. -/
def ShowsOneRoom (G : Condition) : Prop :=
  ∀ w₀ s, OfOneRoom w₀ → Reach chatDetailController G (.idle w₀) s → OfOneRoom s.world ∧
    ∀ i m stage x, s.calls i = some (.applyIncomingMessage m, .running stage) →
      controllerPossible s.world (.applyIncomingMessage m) stage x = true → G s i x →
      m.roomID ≠ s.world.roomID → ∀ p ∈ s.world.messages, p.isLocal = true →
        p ∈ (controllerStmt s.world (.applyIncomingMessage m) stage x).1.messages

/-! ## The condition -/

/-- The room of what a method goes on with is the one that is open. -/
def Fits (w : ControllerWorld) (c : ControllerCall) (stage : ControllerStage)
    (x : ControllerChance) : Prop :=
  match stage with
  | .begin =>
    match c with
    | .enterRoom roomID => Text.trim roomID = "" ∨ w.messages = [] ∨
      w.roomID = Text.trim roomID ∨
      x.stores = true ∧ loadMessages w.cache (Text.trim roomID) ≠ []
    | _ => True
  | .remote roomID => x.reply = none ∨ w.roomID = roomID
  | .requesting roomID _ => x.reply = none ∨ w.roomID = roomID
  | .uploading pending => x.reply = none ∨ w.roomID = pending.roomID
  | .routingMedia pending => x.reply = none ∨ w.roomID = pending.roomID
  | .routingResend failed => x.reply = none ∨ w.roomID = failed.roomID
  | .requestingResend roomID => x.reply = none ∨ w.roomID = roomID
  | .deleting roomID _ => w.roomID = roomID
  | .pinning roomID _ => x.reply ≠ none ∨ w.roomID = roomID
  | _ => True

/-- **The condition.**  A room is entered while no messages of another one are shown, or with
stored ones of its own, and a method that has waited goes on only in the room that it has waited
for. -/
def InRoom : Condition := fun s i x =>
  ∀ c stage, s.calls i = some (c, .running stage) → Fits s.world c stage x

variable {w₀ w w' : ControllerWorld} {s s' : State} {i : ℕ} {c : ControllerCall}
  {stage : ControllerStage} {x : ControllerChance}

/-! ## What the methods have kept -/

/-- What a method has kept is of the room that was open then. -/
def KeptWithin : Status → Prop
  | .running (.deleting roomID previous) => Within roomID previous
  | .running (.pinning roomID previous) => Within roomID previous
  | _ => True

/-- A method has come so far, and everything is of one room. -/
def Fine (r : ControllerWorld × Next ControllerStage Unit) : Prop :=
  OfOneRoom r.1 ∧ KeptWithin r.2.status

theorem fine_done (h : OfOneRoom w) : Fine (w, .done ()) := ⟨h, trivial⟩

/-- A method that a guard can end. -/
theorem fine_guarded {p : Prop} [Decidable p]
    {move : ControllerWorld × Next ControllerStage Unit} (h : OfOneRoom w)
    (hmove : ¬p → Fine move) : Fine (if p then (w, .done ()) else move) := by
  split
  case isTrue => exact fine_done h
  case isFalse hp => exact hmove hp

theorem OfOneRoom.unquoted (h : OfOneRoom w) : OfOneRoom { w with quotedMessage := none } :=
  ⟨h.shown, h.stored, h.tidied⟩

variable {messages : List ChatMessage} {roomID : String}

theorem storedWithin_save {cache : List CachedMessage} (h : StoredWithin cache)
    (hmessages : Within roomID messages) (htidied : Text.trim roomID = roomID) :
    StoredWithin (saveMessages cache roomID messages) := by
  unfold saveMessages
  split
  · exact h
  · intro record hrecord
    rcases mem_append.1 hrecord with hrecord | hrecord
    · exact h record (mem_filter.1 hrecord).1
    · obtain ⟨m, hm, rfl⟩ := mem_map.1 hrecord
      have hm := (mem_filter.1 (SortBy.mem_sortBy.1 (mem_of_mem_drop hm))).1
      exact (hmessages m hm).trans htidied.symm

theorem within_load (cache : List CachedMessage) (htidied : Text.trim roomID = roomID) :
    Within roomID (loadMessages cache roomID) := by
  unfold loadMessages
  split
  · exact within_nil
  · intro m hm
    obtain ⟨record, hrecord, rfl⟩ := mem_map.1 hm
    have hroom := (mem_filter.1 (SortBy.mem_sortBy.1 hrecord)).2
    exact (of_decide_eq_true hroom).trans htidied

/-- Messages of the open room are shown, and stored. -/
theorem fine_showing (h : OfOneRoom w) (hmessages : Within w.roomID messages) (stores : Bool)
    {next : ControllerWorld → Bool → ControllerWorld × Next ControllerStage Unit}
    (hnext : ∀ w' stored, OfOneRoom w' → w'.roomID = w.roomID → Fine (next w' stored)) :
    Fine (showing w messages stores next) := by
  unfold showing persist
  split
  · exact hnext _ _ ⟨hmessages, h.stored, h.tidied⟩ rfl
  · split
    · exact hnext _ _ ⟨hmessages, storedWithin_save h.stored hmessages h.tidied, h.tidied⟩ rfl
    · exact hnext _ _ ⟨hmessages, h.stored, h.tidied⟩ rfl

theorem fine_shown (h : OfOneRoom w) (hmessages : Within w.roomID messages) (stores : Bool) :
    Fine (shown w messages stores) :=
  fine_showing h hmessages stores fun _ _ h' _ => fine_done h'

theorem fine_markFailed (h : OfOneRoom w) (localID : String) (stores : Bool) :
    Fine (markFailed w localID stores) :=
  fine_shown h (h.shown.replacingStatus localID .failed) stores

theorem fine_mergeSent (h : OfOneRoom w) (localID : String) {sent : ChatMessage}
    (hsent : sent.roomID = w.roomID) : Fine (mergeSent w localID sent x) := by
  refine fine_showing h (h.shown.merge (within_singleton hsent)) _ fun w' stored h' _ => ?_
  cases stored with
  | true => exact fine_done h'
  | false => exact fine_markFailed h' _ _

theorem fine_flush (h : OfOneRoom w) (localID : String) (stores : Bool) :
    Fine (flushPendingMessage w localID stores) := by
  refine fine_showing h (h.shown.replacingStatus localID .sending) _ fun w' stored h' _ => ?_
  cases stored with
  | true => exact ⟨h', trivial⟩
  | false => exact fine_done h'

theorem trim_empty : Text.trim "" = "" := by decide

theorem fine_begin (h : OfOneRoom w) (hfits : Fits w c .begin x) :
    Fine (beginController w c x) := by
  unfold beginController
  cases c with
  | enterRoom roomID =>
    dsimp only
    split
    · exact fine_done h
    · rename_i hne
      have htidied : Text.trim (Text.trim roomID) = Text.trim roomID := Text.trim_trim roomID
      have hloaded := within_load w.cache htidied
      have hfits : Text.trim roomID = "" ∨ w.messages = [] ∨ w.roomID = Text.trim roomID ∨
        x.stores = true ∧ loadMessages w.cache (Text.trim roomID) ≠ [] := hfits
      generalize Text.trim roomID = room at *
      split
      · rename_i hfails
        refine ⟨⟨?_, h.stored, htidied⟩, trivial⟩
        rcases hfits with hempty | hnil | hroom | ⟨hstores, -⟩
        · exact absurd hempty hne
        · show Within room w.messages
          rw [hnil]
          exact within_nil
        · exact hroom ▸ h.shown
        · rw [hstores] at hfails
          cases hfails
      · refine ⟨⟨?_, h.stored, htidied⟩, trivial⟩
        show Within room (if _ then w.messages else _)
        split
        · rename_i hnone
          rcases hfits with hempty | hnil | hroom | ⟨-, hsome⟩
          · exact absurd hempty hne
          · rw [hnil]
            exact within_nil
          · exact hroom ▸ h.shown
          · exact absurd hnone hsome
        · exact fun m hm => hloaded m (SortBy.mem_sortBy.1 hm)
  | leaveRoom => exact ⟨⟨within_nil, h.stored, trim_empty⟩, trivial⟩
  | quoteMessage messageID => exact ⟨⟨h.shown, h.stored, h.tidied⟩, trivial⟩
  | clearQuote => exact ⟨h.unquoted, trivial⟩
  | sendText content senderID senderName =>
    refine fine_guarded h fun _ => fine_showing h.unquoted (h.shown.merge (within_singleton rfl)) _
      fun w' stored h' _ => ?_
    cases stored with
    | true => exact fine_flush h' _ _
    | false => exact fine_done h'
  | sendPreparedMedia media =>
    refine fine_guarded h fun _ => fine_showing h.unquoted (h.shown.merge (within_singleton rfl)) _
      fun w' stored h' _ => ?_
    cases stored with
    | true => exact ⟨h', trivial⟩
    | false => exact fine_done h'
  | resendMessage messageID =>
    dsimp only
    split
    · exact fine_done h
    · split
      · exact ⟨h, trivial⟩
      · exact fine_flush h _ _
  | applyIncomingMessage m =>
    exact fine_guarded h fun hroom =>
      fine_shown h (h.shown.merge (within_singleton (not_not.1 hroom))) _
  | applyMessageRead messageID readerID currentUserID =>
    refine fine_guarded h fun _ => ?_
    split
    · exact fine_done h
    · refine fine_shown h (h.shown.map fun m _ => ?_) _
      split <;> rfl
  | applyMessageUpdate messageID isDeleted =>
    refine fine_guarded h fun _ => fine_shown h (h.shown.mapID messageID fun m _ => ?_) _
    split <;> rfl
  | applyPinUpdate messageID isPinned pinnedAt pinnedBy =>
    refine fine_guarded h fun _ => fine_shown h (h.shown.mapID messageID fun _ _ => ?_) _
    rfl
  | deleteMessage messageID | setMessagePinned messageID =>
    dsimp only
    split
    · exact fine_done h
    · refine fine_showing h (h.shown.mapID messageID fun _ _ => ?_) _ fun w' stored h' hroom => ?_
      · rfl
      · cases stored with
        | true => exact ⟨h', show Within w'.roomID w.messages from hroom.symm ▸ h.shown⟩
        | false => exact fine_done h'
  | toggleReaction | refreshReactions => exact fine_guarded h fun _ => ⟨h, trivial⟩

theorem within_of_all (h : (messages.all fun m => m.roomID = roomID) = true) :
    Within roomID messages :=
  fun m hm => of_decide_eq_true (all_eq_true.1 h m hm)

/-- Every method leaves everything of one room. -/
theorem fine_stmt (h : OfOneRoom w) (hkept : KeptWithin (.running stage))
    (hfits : Fits w c stage x) (hx : controllerPossible w c stage x = true) :
    Fine (controllerStmt w c stage x) := by
  unfold controllerStmt
  unfold controllerPossible at hx
  cases stage with
  | begin => exact fine_begin h hfits
  | remote roomID =>
    cases hreply : x.reply with
    | none => exact fine_done h
    | some resolved =>
      rw [hreply] at hx
      have hroom : w.roomID = roomID := hfits.resolve_left (by rw [hreply]; simp)
      exact fine_shown h (h.shown.merge (hroom ▸ within_of_all hx)) _
  | routingText localID =>
    cases hreply : x.reply with
    | none => exact fine_markFailed h _ _
    | some _ =>
      dsimp only
      split
      · split
        · rename_i pending hfind
          exact fine_mergeSent h _ (h.shown pending (mem_of_find?_eq_some hfind))
        · exact fine_markFailed h _ _
      · exact ⟨h, trivial⟩
  | requesting roomID localID =>
    cases hreply : x.reply with
    | none => exact fine_markFailed h _ _
    | some messages =>
      rw [hreply] at hx
      have hroom : w.roomID = roomID := hfits.resolve_left (by rw [hreply]; simp)
      rcases messages with _ | ⟨sent, _ | _⟩
      · cases hx
      · exact fine_mergeSent h _ ((of_decide_eq_true hx).trans hroom.symm)
      · cases hx
  | uploading pending =>
    cases hreply : x.reply with
    | none => exact fine_markFailed h _ _
    | some _ =>
      have hroom : w.roomID = pending.roomID := hfits.resolve_left (by rw [hreply]; simp)
      have hmapped : Within w.roomID
          (mapID pending.id (fun _ => pending.replacingParts x.parts) w.messages) :=
        h.shown.mapID pending.id fun m hm => hroom.symm.trans (h.shown m hm).symm
      refine fine_showing h hmapped _ fun w' stored h' _ => ?_
      cases stored with
      | true => exact ⟨h', trivial⟩
      | false => exact fine_markFailed h' _ _
  | routingMedia pending =>
    cases hreply : x.reply with
    | none => exact fine_markFailed h _ _
    | some _ =>
      have hroom : w.roomID = pending.roomID := hfits.resolve_left (by rw [hreply]; simp)
      dsimp only
      split
      · exact fine_mergeSent h _ hroom.symm
      · exact ⟨h, trivial⟩
  | routingResend failed =>
    cases hreply : x.reply with
    | none => exact fine_done h
    | some _ =>
      have hroom : w.roomID = failed.roomID := hfits.resolve_left (by rw [hreply]; simp)
      dsimp only
      split
      · rename_i id _
        have hsent : (failed.replacingID id .sent).roomID = w.roomID := hroom.symm
        exact fine_shown h (h.shown.merge (within_singleton hsent)) _
      · exact ⟨h, trivial⟩
  | requestingResend roomID =>
    cases hreply : x.reply with
    | none => exact fine_done h
    | some messages =>
      rw [hreply] at hx
      have hroom : w.roomID = roomID := hfits.resolve_left (by rw [hreply]; simp)
      rcases messages with _ | ⟨sent, _ | _⟩
      · cases hx
      · have hsent : (sent.replacingStatus .sent).roomID = w.roomID :=
          (of_decide_eq_true hx).trans hroom.symm
        exact fine_shown h (h.shown.merge (within_singleton hsent)) _
      · cases hx
  | deleting roomID previous =>
    have hroom : w.roomID = roomID := hfits
    have hprevious : Within w.roomID previous := hroom.symm ▸ hkept
    cases hreply : x.reply with
    | none => exact fine_shown h hprevious _
    | some messages =>
      rw [hreply] at hx
      rcases messages with _ | ⟨updated, _ | _⟩
      · cases hx
      · have hupdated : updated.roomID = w.roomID := (of_decide_eq_true hx).trans hroom.symm
        refine fine_showing h (h.shown.merge (within_singleton hupdated)) _
          fun w' stored h' hroom' => ?_
        cases stored with
        | true => exact fine_done h'
        | false => exact fine_shown h' (hroom'.symm ▸ hprevious) _
      · cases hx
  | pinning roomID previous =>
    cases hreply : x.reply with
    | none =>
      have hroom : w.roomID = roomID := hfits.resolve_left (fun hne => hne hreply)
      exact fine_shown h (hroom.symm ▸ hkept) _
    | some _ => exact fine_done h
  | reacting messageID =>
    cases hreply : x.reply with
    | none => exact fine_done h
    | some _ =>
      dsimp only
      split
      · exact fine_done h
      · refine fine_shown h (h.shown.mapID messageID fun _ _ => ?_) _
        rfl

/-! ## The open chat shows one room -/

/-- What holds of each method; a message that arrives is dealt with at once. -/
def Tracked (_ : ControllerWorld) (_ : ℕ) (c : ControllerCall) (st : Status) : Prop :=
  KeptWithin st ∧ ∀ m stage, c = .applyIncomingMessage m → st = .running stage → stage = .begin

theorem done_applyIncomingMessage (w : ControllerWorld) (m : ChatMessage)
    (x : ControllerChance) :
    (beginController w (.applyIncomingMessage m) x).2 = .done () := by
  unfold beginController shown showing
  dsimp only
  split <;> rfl

theorem each_tracked (h₀ : OfOneRoom w₀) (h : Reach chatDetailController InRoom (.idle w₀) s) :
    Each OfOneRoom Tracked s := by
  refine h.each ?_ ?_ (fun _ _ _ => ⟨trivial, fun _ _ _ h => by cases h⟩)
    (fun _ _ hw => ⟨hw, fun _ _ _ hst => hst⟩) (Overlap.each_idle h₀)
  · intro s i c _
    refine ⟨trivial, fun m stage _ hstage => ?_⟩
    exact (Overlap.Status.running.inj hstage).symm
  · intro s i c stage x hE hcall hx hG
    obtain ⟨hkept, hmessage⟩ := hE.2 i c _ hcall
    obtain ⟨hworld, hnext⟩ := fine_stmt hE.1 hkept (hG c stage hcall) hx
    refine ⟨hworld, ⟨hnext, ?_⟩, fun _ _ _ _ _ hst => hst⟩
    rintro m stage' rfl hstage'
    obtain rfl := hmessage m stage rfl rfl
    have hdone : (controllerStmt s.world (.applyIncomingMessage m) .begin x).2 = .done () :=
      done_applyIncomingMessage s.world m x
    have hrun : (controllerStmt s.world (.applyIncomingMessage m) .begin x).2.status =
      .running stage' := hstage'
    rw [hdone] at hrun
    cases hrun

/-- The open chat shows one room, in every run in which the methods go on in the room that they
have waited for. -/
theorem shows_one_room : ShowsOneRoom InRoom := by
  intro w₀ s h₀ h
  have hE := each_tracked h₀ h
  refine ⟨hE.1, fun i m stage x hcall _ _ hroom p hp _ => ?_⟩
  obtain rfl := (hE.2 i _ _ hcall).2 m stage rfl rfl
  show p ∈ (beginController s.world (.applyIncomingMessage m) x).1.messages
  unfold beginController
  dsimp only
  rw [if_pos hroom]
  exact hp

/-- A room is entered, and left for another one before the server has answered. -/
def leftForAnother : List (Overlap.Act ControllerCall ControllerChance Unit) :=
  let m : ChatMessage :=
    { id := "1", roomID := "a", senderID := "u2", senderName := "", content := "", timestamp := 1 }
  [.start 0 (.enterRoom "a"), .run 0 {}, .start 1 .leaveRoom, .run 1 {},
    .start 2 (.enterRoom "b"), .run 2 {}, .run 0 { reply := some [m] }]

/-- No room is open, and nothing is stored. -/
def noRoom : ControllerWorld := ⟨"", [], none, []⟩

theorem not_showsOneRoom : ¬ ShowsOneRoom fun _ _ _ => True := by
  intro h
  have hrun : ((Overlap.perform chatDetailController (fun _ _ _ => true) leftForAnother
      (.idle noRoom)).map fun s => (s.world.roomID, s.world.messages.map ChatMessage.roomID)) =
      some ("b", ["a"]) := by
    decide +kernel
  obtain ⟨s, hs, hends⟩ := Option.map_eq_some_iff.1 hrun
  obtain ⟨hroom, hmessages⟩ := Prod.mk.inj hends
  have h₀ : OfOneRoom noRoom :=
    ⟨within_nil, fun record hrecord => absurd hrecord not_mem_nil, trim_empty⟩
  have hshown := (h noRoom s h₀ (Reach.of_perform (fun _ _ _ _ => trivial) hs)).1.shown
  have ha : "a" ∈ s.world.messages.map ChatMessage.roomID := by
    rw [hmessages]
    exact mem_singleton_self _
  obtain ⟨m, hm, hma⟩ := mem_map.1 ha
  have hb : m.roomID = "b" := (hshown m hm).trans hroom
  rw [hma] at hb
  exact absurd hb (by decide)

end ChatIsolation

/-! ## Both clients -/

end RedcodeIm.Ios
