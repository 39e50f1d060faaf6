import RedcodeIm.H5.ChatDetail

/-!
# Own encrypted messages that come back

No device decrypts what it has encrypted itself.  Both stores of the web client give an own
encrypted message that arrives the content of the first pending message they have.

* `ownStores` — the two stores beside each other, over one storage, and what they have lent.
* `LendsOwn` — a message is lent the content of the pending message that it is the copy of.
* `lends_own` — it is so in every run in which no other pending message comes before that one.
* `lent_another` — it is not, if the next message comes back while one is pending still.
-/

namespace RedcodeIm.H5

open Overlap (Next Reach Step System)

/-- Both stores.  A message that is given the content of a pending one is listed with it. -/
structure OwnStores where
  detail : DetailWorld
  chats : ChatWorld
  shared : chats.messages = detail.saved
  lent : List (ChatMessage × ChatMessage)

abbrev OwnCall := DetailCall ⊕ ChatCall

abbrev OwnStage := DetailStage ⊕ ChatStage

abbrev OwnChance := DetailChance ⊕ ChatChance

namespace OwnStores

/-- What an event is about, and the messages in which its handler looks for a pending one.  The
open chat shows none that is of another room. -/
def searched (w : OwnStores) (c : OwnCall) (stage : OwnStage) (x : OwnChance) :
    Option (ChatMessage × List ChatMessage) :=
  match c, stage, x with
  | .inl (.message message), .inl .begin, _ =>
    if message.id = "" ∨ w.detail.messages.any (fun item => item.id = message.id) ∨
      message.roomId ≠ w.detail.roomId then none
    else some (message, w.detail.messages)
  | .inr c, .inr .received, .inr x =>
    let cached := loadCachedMessages w.chats.messages c.message.roomId x
    if cached.any fun item => item.id = c.message.id then none else some (c.message, cached)
  | _, _, _ => none

def lends (currentUser : Option String) (w : OwnStores) (c : OwnCall) (stage : OwnStage)
    (x : OwnChance) : List (ChatMessage × ChatMessage) :=
  ((w.searched c stage x).bind fun event =>
    (pendingOf currentUser event.1 event.2).map (event.1, ·)).toList

end OwnStores

/-- Where a handler of one of the stores goes on. -/
def ownNext {Stage Answer : Type} (f : Stage → OwnStage) : Next Stage Answer → Next OwnStage Unit
  | .goto stage => .goto (f stage)
  | .done _ => .done ()

/-- A statement of one of the stores; the other one finds its storage changed. -/
def ownStmt (currentUser : Option String) (w : OwnStores) (c : OwnCall) (stage : OwnStage)
    (x : OwnChance) : OwnStores × Next OwnStage Unit :=
  let lent := w.lends currentUser c stage x ++ w.lent
  match c, stage, x with
  | .inl c, .inl stage, .inl x =>
    let (detail, next) := detailStmt currentUser w.detail c stage x
    (⟨detail, { w.chats with messages := detail.saved }, rfl, lent⟩, ownNext .inl next)
  | .inr c, .inr stage, .inr x =>
    let (chats, next) := chatStmt currentUser w.chats c stage x
    (⟨{ w.detail with saved := chats.messages }, chats, rfl, lent⟩, ownNext .inr next)
  | _, stage, _ => ({ w with lent }, .goto stage)

def ownPossible (w : OwnStores) (c : OwnCall) (stage : OwnStage) (x : OwnChance) : Bool :=
  match c, stage, x with
  | .inl c, .inl stage, .inl x => detailPossible w.detail c stage x
  | .inr c, .inr stage, .inr x => chatPossible w.chats c stage x
  | _, _, _ => false

/-- The stores, whatever they do and in whatever order. -/
def ownStores (currentUser : Option String) :
    System OwnStores OwnCall OwnStage Unit OwnChance (Option String) where
  start
    | .inl c => .inl ((chatDetail currentUser).start c)
    | .inr c => .inr ((chatStore currentUser).start c)
  stmt := ownStmt currentUser
  possible := ownPossible
  tick w openRoom := { w with chats := { w.chats with openRoom } }

namespace OwnStores

/-- `copyOf` has for the id of a message the one under which this device has had it pending. -/
def LendsOwn (currentUser : Option String) (copyOf : String → Option String)
    (G : Overlap.Condition OwnStores OwnCall OwnStage Unit OwnChance) : Prop :=
  ∀ w s, Reach (ownStores currentUser) G (.idle w) s →
    ∀ e ∈ s.world.lent, e ∈ w.lent ∨ copyOf e.1.id = some e.2.id

/-- The other pending messages come behind the one that the message is the copy of. -/
def OthersBehind (copyOf : String → Option String) (message : ChatMessage)
    (messages : List ChatMessage) : Prop :=
  ∀ before other behind, messages = before ++ other :: behind → isE2eePending other = true →
    copyOf message.id ≠ some other.id →
      ∃ own ∈ before, isE2eePending own = true ∧ copyOf message.id = some own.id

/-- **The condition**, when an own encrypted message arrives. -/
def CopyFirst (currentUser : Option String) (copyOf : String → Option String) :
    Overlap.Condition OwnStores OwnCall OwnStage Unit OwnChance := fun s i x =>
  ∀ c stage message messages, s.calls i = some (c, .running stage) →
    s.world.searched c stage x = some (message, messages) →
    message.senderId = currentUser.getD "" → message.encryptedContent.value.any (· ≠ "") = true →
    OthersBehind copyOf message messages

/-! ## What is lent -/

variable {currentUser : Option String} {copyOf : String → Option String} {w : OwnStores}
  {c : OwnCall} {stage : OwnStage} {x : OwnChance} {message pending : ChatMessage}
  {messages : List ChatMessage}

theorem pendingOf_eq_some_iff : pendingOf currentUser message messages = some pending ↔
    (message.senderId = currentUser.getD "" ∧ message.encryptedContent.value.any (· ≠ "") = true) ∧
      messages.find? isE2eePending = some pending := by
  unfold pendingOf
  split
  · next h => exact (and_iff_right h).symm
  · next h => exact iff_of_false (fun h => by cases h) fun hp => h hp.1

/-- The first pending message is the one that the others come behind. -/
theorem OthersBehind.copy (h : OthersBehind copyOf message messages)
    (hfind : messages.find? isE2eePending = some pending) :
    copyOf message.id = some pending.id := by
  obtain ⟨hpending, before, behind, hsplit, hbefore⟩ := List.find?_eq_some_iff_append.1 hfind
  by_contra hother
  obtain ⟨own, hown, hfirst, -⟩ := h before pending behind hsplit hpending hother
  have hnot := hbefore own hown
  rw [hfirst] at hnot
  cases hnot

theorem mem_lends : (message, pending) ∈ w.lends currentUser c stage x ↔
    ∃ messages, w.searched c stage x = some (message, messages) ∧
      pendingOf currentUser message messages = some pending := by
  simp only [lends, Option.mem_toList, Option.bind_eq_some_iff, Option.map_eq_some_iff,
    Prod.mk.injEq]
  constructor
  · rintro ⟨⟨m, messages⟩, hsearched, p, hp, rfl, rfl⟩
    exact ⟨messages, hsearched, hp⟩
  · rintro ⟨messages, hsearched, hp⟩
    exact ⟨(message, messages), hsearched, pending, hp, rfl, rfl⟩

/-- The chat store goes on with what the message was lent. -/
theorem chatStmt_of_lent {c : ChatCall} {x : ChatChance}
    (h : (message, pending) ∈ w.lends currentUser (.inr c) (.inr .received) (.inr x)) :
    ∃ cached, chatStmt currentUser w.chats c .received x =
      (w.chats, .goto (.dropPending
        { message with content := pending.content, status := some (some .sent) } cached
        pending)) := by
  obtain ⟨cached, hsearched, hpending⟩ := mem_lends.1 h
  simp only [searched, Option.ite_none_left_eq_some, Option.some.injEq, Prod.mk.injEq]
    at hsearched
  obtain ⟨hnew, rfl, rfl⟩ := hsearched
  exact ⟨loadCachedMessages w.chats.messages c.message.roomId x,
    by simp only [chatStmt, if_neg hnew, hpending]⟩

/-- And so does the store of the open chat. -/
theorem beginDetail_of_lent {now : ℤ} {x : OwnChance}
    (h : (message, pending) ∈ w.lends currentUser (.inl (.message message)) (.inl .begin) x) :
    beginDetail currentUser w.detail (.message message) now =
      upsertLocalMessage
        { w.detail with messages := w.detail.messages.filter fun item => item.id ≠ pending.id }
        { message with content := pending.content, status := some (some .sent) } .finish := by
  obtain ⟨messages, hsearched, hpending⟩ := mem_lends.1 h
  simp only [searched, Option.ite_none_left_eq_some, Option.some.injEq, Prod.mk.injEq, not_or]
    at hsearched
  obtain ⟨⟨hid, hnew, hroom⟩, -, rfl⟩ := hsearched
  have hguard := not_or_intro hid hnew
  simp only [beginDetail, takenFor, if_neg hguard, hpending, if_neg hroom]

theorem lent_ownStmt : (ownStmt currentUser w c stage x).1.lent =
    w.lends currentUser c stage x ++ w.lent := by
  unfold ownStmt
  split <;> rfl

/-- **Only its own** content is lent to a message, where no other pending one comes first. -/
theorem lends_own (currentUser : Option String) (copyOf : String → Option String) :
    LendsOwn currentUser copyOf (CopyFirst currentUser copyOf) := by
  intro w s hreach
  refine hreach.invariant
    (I := fun s => ∀ e ∈ s.world.lent, e ∈ w.lent ∨ copyOf e.1.id = some e.2.id)
    (fun s s' ih hstep => ?_) fun e he => .inl he
  have hstmt {i : ℕ} {c : OwnCall} {stage : OwnStage} {x : OwnChance}
      (hcall : s.calls i = some (c, .running stage)) (hG : CopyFirst currentUser copyOf s i x) :
      ∀ e ∈ (ownStmt currentUser s.world c stage x).1.lent,
        e ∈ w.lent ∨ copyOf e.1.id = some e.2.id := by
    rintro ⟨message, pending⟩ he
    rw [lent_ownStmt] at he
    rcases List.mem_append.1 he with he | he
    · obtain ⟨messages, hsearched, hpending⟩ := mem_lends.1 he
      obtain ⟨⟨hown, hencrypted⟩, hfind⟩ := pendingOf_eq_some_iff.1 hpending
      exact .inr ((hG c stage message messages hcall hsearched hown hencrypted).copy hfind)
    · exact ih _ he
  cases hstep with
  | start c hnew => exact ih
  | run hcall hx hG => exact hstmt hcall hG
  | lose hcall hx hG => exact hstmt hcall hG
  | drop hcall => exact ih
  | tick t => exact ih

/-! ## Without the condition -/

/-- A message that could not be sent and is pending still, and the next one. -/
def pendingTwo : List ChatMessage :=
  let first := createPendingMessage "r" "first" "u1" none true none .text "1" 1
  [withStatus .failed first, createPendingMessage "r" "second" "u1" none true none .text "2" 2]

/-- The second one comes back. -/
def secondBack : ChatMessage where
  id := "m2"
  roomId := "r"
  senderId := "u1"
  senderName := "u1"
  content := ""
  type := .text
  timestamp := 3
  encryptedContent := some (some "ciphertext")

theorem lent_another : ¬ LendsOwn (some "u1") (fun id => if id = "m2" then some "local-2" else none)
    fun _ _ _ => True := by
  intro h
  let w : OwnStores :=
    ⟨⟨"r", pendingTwo, none, Table.empty⟩, ⟨Table.empty, Table.empty, [], none⟩, rfl, []⟩
  have hrun : ((Overlap.perform (ownStores (some "u1")) (fun _ _ _ => true)
      [.start 0 (.inl (.message secondBack)), .run 0 (.inl (.ready false "" 3)),
        .run 0 (.inl .ok), .run 0 (.inl .ok)] (.idle w)).map fun s =>
      (s.world.lent, s.world.detail.messages.map fun m => (m.id, m.content))) =
      some ([(secondBack, pendingTwo.head (by decide))],
        [("local-2", "second"), ("m2", "first")]) := by
    decide +kernel
  obtain ⟨s, hs, hends⟩ := Option.map_eq_some_iff.1 hrun
  obtain ⟨hlent, -⟩ := Prod.mk.inj hends
  have hown := h w s (Reach.of_perform (fun _ _ _ _ => trivial) hs)
    (secondBack, pendingTwo.head (by decide)) (by rw [hlent]; exact List.mem_singleton_self _)
  exact absurd hown (by decide)

end OwnStores

end RedcodeIm.H5
