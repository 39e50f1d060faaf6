import RedcodeIm.Lib.Machine
import RedcodeIm.Websocket.Hub

/-!
# The node is subscribed to the rooms of its connections

What the hub is asked for reaches it as commands that say which room to look at, and it looks at the
room when it comes to the command; so a command that is carried out leaves the room right, whoever
has joined or left in between.  A command that fails, and a join that takes its subscription back,
are another matter.

* `HubWorld.Attended` — somebody is going to have the hub look at the room.
* `HubWorld.Agreed`, `HubWorld.Quiescent` — the channels are those of the rooms with subscribers;
  nothing is on its way.
* `HubAct.Orderly` — the condition: what fails leaves no room wrong that nobody attends to.
* `Hub.subscriptions_agree` — under the condition the channels are right whenever nothing is on its
  way.
-/

namespace RedcodeIm

open Machine (Reach)
open List

/-- The task will see to it that the hub looks at the room, or has taken something back there still
to do; once the hub has stopped, only the latter. -/
def ConnectionTask.attends (stopped : Bool) (roomId : Uuid) : ConnectionTask → Bool
  | .syncJoin r => r = roomId
  | .takeBack r => r = roomId
  | .awaitJoin r _ => stopped && r = roomId
  | .syncRooms rooms => !stopped && roomId ∈ rooms
  | .awaitRooms rooms _ => !stopped && roomId ∈ rooms

/-- The task is a join of the room. -/
def ConnectionTask.joins (roomId : Uuid) : ConnectionTask → Bool
  | .syncJoin r => r = roomId
  | .takeBack r => r = roomId
  | .awaitJoin r _ => r = roomId
  | _ => false

namespace HubWorld

variable (w : HubWorld) (connId : String) (roomId : Uuid)

/-- A command for the room is on its way to the hub, or a task attends to it. -/
def Attended : Prop :=
  (∃ cmd ∈ w.queue, cmd.roomId = roomId) ∨
    ∃ c task, w.tasks.lookup c = some task ∧ task.attends w.stopped roomId = true

/-- So it is also without this connection. -/
def AttendedBut : Prop :=
  (∃ cmd ∈ w.queue, cmd.roomId = roomId) ∨
    ∃ c task, c ≠ connId ∧ w.tasks.lookup c = some task ∧ task.attends w.stopped roomId = true

/-- The hub is subscribed to the channel, once it has done what it is doing. -/
def aimed : Bool :=
  match w.hub with
  | .working cmd op =>
    if cmd.roomId = roomId then op = .subscribe else roomId ∈ w.subscribedChannels
  | _ => roomId ∈ w.subscribedChannels

/-- A new connection to Redis is subscribed to all the channels. -/
def Kept (rebuilt : Option (List Uuid)) : Prop :=
  ∀ rooms, rebuilt = some rooms → ∀ r ∈ w.subscribedChannels, r ∈ rooms

/-- The node is subscribed to the channels of the rooms that have local subscribers. -/
def Agreed : Prop := ∀ roomId, roomId ∈ w.redis.getD [] ↔ w.manager.subscribersOf roomId ≠ []

/-- No task is in the middle of anything, no command is on its way, and the hub waits for one. -/
def Quiescent : Prop :=
  (∀ connId, w.tasks.lookup connId = none) ∧ w.queue = [] ∧
    ((w.hub = .idle ∧ w.redis.isSome = true) ∨ w.hub = .stopped)

end HubWorld

/-- **The condition**.  A join takes its subscription back only where somebody else attends to the
room, or where the channel is right without it; where a command fails, somebody else attends to the
room, or the join that asked for it still waits, or the channel is right as it is; a new connection
to Redis is subscribed to all the channels; and where there is no connection to begin with, every
room with subscribers is being joined. -/
def HubAct.Orderly (w : HubWorld) : HubAct → Prop
  | .takeBack connId => ∀ roomId, w.tasks.lookup connId = some (.takeBack roomId) →
    w.AttendedBut connId roomId ∨
      (w.aimed roomId = true ↔ ∃ c ∈ w.manager.subscribersOf roomId, c ≠ connId)
  | .connect false => ∀ roomId, w.manager.subscribersOf roomId ≠ [] →
    ∃ c task, w.tasks.lookup c = some task ∧ task.joins roomId = true
  | .fail rebuilt => w.Kept rebuilt ∧ ∀ cmd op, w.hub = .working cmd op →
    w.Attended cmd.roomId ∨ w.tasks.lookup cmd.connId = some (.awaitJoin cmd.roomId cmd.ticket) ∨
      (cmd.roomId ∈ w.subscribedChannels ↔ w.manager.subscribersOf cmd.roomId ≠ [])
  | .rebuild rebuilt => w.Kept rebuilt
  | _ => True

namespace Hub

open HubWorld ConnectionManager Registry

/-- In the runs whose acts meet a condition, the channels are right whenever nothing is on its
way. -/
def SubscriptionsAgree (G : HubWorld → HubAct → Prop) : Prop :=
  ∀ w, Reach HubWorld.act G .starting w → w.Quiescent → w.Agreed

/-! ## The invariant -/

/-- The room is attended to, or its channel is right once the hub has done what it is doing. -/
def Fine (w : HubWorld) (roomId : Uuid) : Prop :=
  w.Attended roomId ∨ (w.aimed roomId = true ↔ w.manager.subscribersOf roomId ≠ [])

structure HubOk (w : HubWorld) : Prop where
  linked : Linked w.manager
  redis : ∀ channels, w.redis = some channels → channels = w.subscribedChannels
  unconnected : w.hub = .connecting ∨ w.hub = .stopped → w.subscribedChannels = [] ∧ w.redis = none
  unasked : w.hub = .stopped → w.queue = []
  fine : ∀ roomId, Fine w roomId

section

variable {w w' : HubWorld} {connId : String} {roomId : Uuid} {task : Option ConnectionTask}
  {cmd : SyncRoom}

theorem Fine.of (h : Fine w roomId) (hattended : w.Attended roomId → w'.Attended roomId)
    (haimed : w'.aimed roomId = w.aimed roomId)
    (hsubs : w'.Attended roomId ∨
      (w'.manager.subscribersOf roomId = [] ↔ w.manager.subscribersOf roomId = [])) :
    Fine w' roomId := by
  rcases h with hatt | hright
  · exact .inl (hattended hatt)
  · rcases hsubs with hatt | hsubs
    · exact .inl hatt
    · refine .inr ?_
      rw [haimed, hright]
      exact not_congr hsubs.symm

/-- Who attends to a room does so still, but for one task. -/
theorem attended_keep (connId : String) (h : w.Attended roomId)
    (hqueue : ∀ cmd ∈ w.queue, cmd ∈ w'.queue) (hstopped : w'.stopped = w.stopped)
    (hothers : ∀ c, c ≠ connId → w'.tasks.lookup c = w.tasks.lookup c)
    (hself : ∀ task, w.tasks.lookup connId = some task → task.attends w.stopped roomId = true →
      w'.Attended roomId) : w'.Attended roomId := by
  rcases h with ⟨cmd, hcmd, hroom⟩ | ⟨c, task, htask, hattends⟩
  · exact .inl ⟨cmd, hqueue cmd hcmd, hroom⟩
  · by_cases hc : c = connId
    · subst hc
      exact hself task htask hattends
    · exact .inr ⟨c, task, by rw [hothers c hc, htask], by rw [hstopped, hattends]⟩

theorem attended_self {task : ConnectionTask} (htask : w.tasks.lookup connId = some task)
    (hattends : task.attends w.stopped roomId = true) : w.Attended roomId :=
  .inr ⟨connId, task, htask, hattends⟩

@[simp] theorem setTask_self : (w.setTask connId task).tasks.lookup connId = task :=
  Dict.lookup_assign.trans (if_pos rfl)

theorem setTask_of_ne {c : String} (h : c ≠ connId) :
    (w.setTask connId task).tasks.lookup c = w.tasks.lookup c :=
  Dict.lookup_assign.trans (if_neg (Ne.symm h))

/-- A channel is not aimed at by a hub that has stopped. -/
theorem HubOk.not_aimed (h : HubOk w) (hstopped : w.stopped = true) (roomId : Uuid) :
    w.aimed roomId = false := by
  have hhub : w.hub = .stopped := of_decide_eq_true hstopped
  unfold aimed
  rw [hhub, (h.unconnected (.inr hhub)).1]
  rfl

/-- A task that has no event to handle takes one, after which the rooms that have lost their last
subscriber are attended to. -/
theorem HubOk.of_event {manager : ConnectionManager} (h : HubOk w)
    (hfree : w.tasks.lookup connId = none) (hlinked : Linked manager)
    (hfirst : ∀ r, manager.subscribersOf r ≠ [] → w.manager.subscribersOf r = [] →
      task = some (.syncJoin r))
    (hlast : ∀ r, manager.subscribersOf r = [] → w.manager.subscribersOf r ≠ [] →
      ∃ rooms, task = some (.syncRooms rooms) ∧ r ∈ rooms) :
    HubOk ({ w with manager }.setTask connId task) where
  linked := hlinked
  redis := h.redis
  unconnected := h.unconnected
  unasked := h.unasked
  fine r := by
    have hkeep : w.Attended r → ({ w with manager }.setTask connId task).Attended r := by
      intro hatt
      refine attended_keep connId hatt (fun _ hcmd => hcmd) rfl (fun c hc => setTask_of_ne hc) ?_
      intro old hold
      rw [hfree] at hold
      cases hold
    by_cases hnew : manager.subscribersOf r = []
    · by_cases hold : w.manager.subscribersOf r = []
      · exact (h.fine r).of hkeep rfl (.inr ⟨fun _ => hold, fun _ => hnew⟩)
      · obtain ⟨rooms, rfl, hr⟩ := hlast r hnew hold
        cases hstopped : w.stopped with
        | true =>
          have hnot := h.not_aimed hstopped r
          exact .inr ⟨fun haimed => absurd (hnot.symm.trans haimed) Bool.false_ne_true,
            fun hne => absurd hnew hne⟩
        | false =>
          refine .inl (attended_self setTask_self ?_)
          show (!w.stopped && decide (r ∈ rooms)) = true
          rw [hstopped, decide_eq_true hr]
          rfl
    · by_cases hold : w.manager.subscribersOf r = []
      · obtain rfl := hfirst r hnew hold
        exact .inl (attended_self setTask_self (decide_eq_true rfl))
      · exact (h.fine r).of hkeep rfl
          (.inr ⟨fun hnil => absurd hnil hnew, fun hnil => absurd hnil hold⟩)

/-! ## Tasks -/

theorem ok_join (h : HubOk w) (hfree : w.tasks.lookup connId = none) :
    HubOk (w.joinRoom connId roomId) := by
  unfold HubWorld.joinRoom
  cases hm : w.manager.subscribeRoom connId roomId with
  | error e => exact h
  | ok result =>
    obtain ⟨answer, manager⟩ := result
    obtain ⟨hnotFirst, hne, hothers⟩ := subscribeRoom_first h.linked hm
    refine h.of_event hfree (linked_subscribe h.linked hm) (fun r hnew hold => ?_)
      fun r hnew hold => ?_
    · by_cases hr : r = roomId
      · subst hr
        cases answer with
        | true => rfl
        | false => exact absurd hold (hnotFirst rfl)
      · exact absurd ((hothers r hr).trans hold) hnew
    · by_cases hr : r = roomId
      · subst hr
        exact absurd hnew hne
      · exact absurd ((hothers r hr).symm.trans hnew) hold

theorem ok_leave (h : HubOk w) (hfree : w.tasks.lookup connId = none) :
    HubOk (w.leaveRoom connId roomId) := by
  refine h.of_event hfree (linked_unsubscribe h.linked connId roomId) (fun r hnew hold => ?_)
    fun r hnew hold => ?_
  · obtain ⟨c, hc⟩ := exists_mem_of_ne_nil _ hnew
    exact absurd hold (ne_nil_of_mem (Dict.mem_members_discard.1 hc).1)
  · by_cases hr : r = roomId
    · subst hr
      refine ⟨[r], ?_, mem_cons_self⟩
      exact if_pos (unsubscribeRoom_last h.linked hold hnew)
    · exact absurd ((subscribersOf_unsubscribeRoom w.manager connId hr).symm.trans hnew) hold

theorem ok_close (h : HubOk w) (hfree : w.tasks.lookup connId = none) (order : List String) :
    HubOk (w.closeConnection connId order) := by
  refine h.of_event hfree (linked_unregister h.linked connId order) (fun r hnew hold => ?_)
    fun r hnew hold => ⟨_, rfl, unregister_last hold hnew⟩
  obtain ⟨c, hc⟩ := exists_mem_of_ne_nil _ hnew
  exact absurd hold (ne_nil_of_mem (subscribersOf_unregister hc))

/-- Tasks and commands may change as they like while every room is attended to that was. -/
theorem HubOk.of_attended {tasks : Dict String ConnectionTask} {queue : List SyncRoom}
    {nextTicket : ℕ} (h : HubOk w) (hqueue : w.hub = .stopped → queue = [])
    (hattended : ∀ r, w.Attended r → { w with tasks, queue, nextTicket }.Attended r) :
    HubOk { w with tasks, queue, nextTicket } where
  linked := h.linked
  redis := h.redis
  unconnected := h.unconnected
  unasked := hqueue
  fine r := (h.fine r).of (hattended r) rfl (.inr Iff.rfl)

/-- A task comes to be in the middle of something else, and attends to the rooms that it attended
to. -/
theorem HubOk.of_setTask {old : ConnectionTask} (h : HubOk w)
    (hold : w.tasks.lookup connId = some old)
    (hself : ∀ r, old.attends w.stopped r = true →
      ∃ new, task = some new ∧ new.attends w.stopped r = true) :
    HubOk (w.setTask connId task) := by
  refine h.of_attended h.unasked fun r hatt =>
    attended_keep connId hatt (fun _ hcmd => hcmd) rfl (fun c hc => setTask_of_ne hc) ?_
  intro old' hold' hattends
  cases hold.symm.trans hold'
  obtain ⟨new, rfl, hnew⟩ := hself r hattends
  exact attended_self setTask_self hnew

/-- A task sends a command for a room, and goes on to attend to the other rooms. -/
theorem HubOk.of_post {old new : ConnectionTask} (h : HubOk w) (hrunning : ¬ w.stopped = true)
    (hold : w.tasks.lookup connId = some old)
    (hself : ∀ r, old.attends w.stopped r = true → r = roomId ∨ new.attends w.stopped r = true) :
    HubOk ((w.post connId roomId).setTask connId (some new)) := by
  refine h.of_attended (fun hhub => absurd (decide_eq_true hhub) hrunning) fun r hatt =>
    attended_keep connId hatt (fun _ hcmd => mem_append_left _ hcmd) rfl
      (fun c hc => setTask_of_ne hc) ?_
  intro old' hold' hattends
  cases hold.symm.trans hold'
  rcases hself r hattends with rfl | hnew
  · exact .inl ⟨_, mem_append_right _ mem_cons_self, rfl⟩
  · exact attended_self setTask_self hnew

theorem ok_send (h : HubOk w) (hw : w.sendSync connId = some w') : HubOk w' := by
  unfold sendSync at hw
  split at hw
  · rename_i roomId htask
    split at hw
    · cases hw
      exact h.of_setTask htask fun r hattends => ⟨_, rfl, hattends⟩
    · rename_i hrunning
      cases hw
      exact h.of_post hrunning htask fun r hattends => .inl (of_decide_eq_true hattends).symm
  · rename_i roomId rest htask
    split at hw
    · rename_i hstopped
      cases hw
      refine h.of_setTask htask fun r hattends => ?_
      rw [hstopped] at hattends
      cases hattends
    · rename_i hrunning
      cases hw
      refine h.of_post hrunning htask fun r hattends => ?_
      obtain ⟨hnot, hmem⟩ := Bool.and_eq_true_iff.1 hattends
      rcases mem_cons.1 (of_decide_eq_true hmem) with heq | hrest
      · exact .inl heq
      · exact .inr (Bool.and_eq_true_iff.2 ⟨hnot, decide_eq_true hrest⟩)
  · rename_i htask
    cases hw
    refine h.of_setTask htask fun r hattends => ?_
    exact absurd (of_decide_eq_true (Bool.and_eq_true_iff.1 hattends).2) not_mem_nil
  · cases hw

theorem ok_giveUp (h : HubOk w) (hw : w.giveUpSync connId = some w') : HubOk w' := by
  unfold giveUpSync at hw
  split at hw
  · rename_i roomId ticket htask
    cases hw
    exact h.of_setTask htask fun r hattends => ⟨_, rfl, (Bool.and_eq_true_iff.1 hattends).2⟩
  · rename_i rest ticket htask
    cases hw
    exact h.of_setTask htask fun r hattends => ⟨_, rfl, hattends⟩
  · cases hw

theorem ok_takeBack (h : HubOk w) (hG : HubAct.Orderly w (.takeBack connId))
    (hw : w.takeBackJoin connId = some w') : HubOk w' := by
  unfold takeBackJoin at hw
  split at hw
  · rename_i roomId htask
    cases hw
    refine ⟨linked_unsubscribe h.linked connId roomId, h.redis, h.unconnected, h.unasked,
      fun r => ?_⟩
    by_cases hr : r = roomId
    · subst hr
      rcases hG r htask with hatt | hright
      · refine .inl (hatt.imp id ?_)
        rintro ⟨c, task, hc, hctask, hattends⟩
        exact ⟨c, task, (setTask_of_ne hc).trans hctask, hattends⟩
      · refine .inr (hright.trans ?_)
        constructor
        · rintro ⟨c, hmem, hc⟩
          exact ne_nil_of_mem (Dict.mem_members_discard.2 ⟨hmem, fun heq => hc heq.2⟩)
        · intro hne
          obtain ⟨c, hmem⟩ := exists_mem_of_ne_nil _ hne
          obtain ⟨hold, hc⟩ := Dict.mem_members_discard.1 hmem
          exact ⟨c, hold, fun heq => hc ⟨rfl, heq⟩⟩
    · refine (h.fine r).of (fun hatt => ?_) rfl (.inr ?_)
      · refine attended_keep connId hatt (fun _ hcmd => hcmd) rfl (fun c hc => setTask_of_ne hc) ?_
        intro old hold hattends
        cases htask.symm.trans hold
        exact absurd (of_decide_eq_true hattends).symm hr
      · show (w.manager.unsubscribeRoom connId roomId).2.subscribersOf r = [] ↔ _
        rw [subscribersOf_unsubscribeRoom w.manager connId hr]
  · cases hw

/-! ## The hub -/

/-- A reply reaches nobody, or a task that goes on to attend to what it attended to. -/
theorem reply_cases (w : HubWorld) (cmd : SyncRoom) (ok : Bool) :
    w.reply cmd ok = w ∨ ∃ old task, w.tasks.lookup cmd.connId = some old ∧
      w.reply cmd ok = w.setTask cmd.connId task ∧
      (∀ r, old.attends false r = true → ∃ new, task = some new ∧ new.attends false r = true) := by
  unfold reply
  split
  · rename_i roomId ticket htask
    split
    · refine .inr ⟨_, _, htask, rfl, fun r hattends => ?_⟩
      cases hattends
    · exact .inl rfl
  · rename_i rest ticket htask
    split
    · exact .inr ⟨_, _, htask, rfl, fun r hattends => ⟨_, rfl, hattends⟩⟩
    · exact .inl rfl
  · exact .inl rfl

theorem reply_eq (w : HubWorld) (cmd : SyncRoom) (ok : Bool) :
    ∃ tasks, w.reply cmd ok = { w with tasks } := by
  rcases reply_cases w cmd ok with heq | ⟨_, _, _, heq, _⟩
  · exact ⟨w.tasks, heq⟩
  · exact ⟨_, heq⟩

theorem HubOk.of_reply (h : HubOk w) (hrunning : w.stopped = false) (cmd : SyncRoom) (ok : Bool) :
    HubOk (w.reply cmd ok) := by
  rcases reply_cases w cmd ok with heq | ⟨old, task, hold, heq, hself⟩
  · rwa [heq]
  · rw [heq]
    refine h.of_setTask hold fun r hattends => ?_
    rw [hrunning] at hattends ⊢
    exact hself r hattends

theorem attended_reply (hrunning : w.stopped = false) (ok : Bool) (h : w.Attended roomId) :
    (w.reply cmd ok).Attended roomId := by
  rcases reply_cases w cmd ok with heq | ⟨old, task, hold, heq, hself⟩
  · rwa [heq]
  · rw [heq]
    refine attended_keep cmd.connId h (fun _ hcmd => hcmd) rfl (fun c hc => setTask_of_ne hc) ?_
    intro old' hold' hattends
    cases hold.symm.trans hold'
    rw [hrunning] at hattends
    obtain ⟨new, rfl, hnew⟩ := hself roomId hattends
    exact attended_self setTask_self (hrunning ▸ hnew)

theorem ok_connect (h : HubOk w) {ok : Bool} (hG : HubAct.Orderly w (.connect ok))
    (hw : w.connectHub ok = some w') : HubOk w' := by
  unfold connectHub at hw
  split at hw
  · rename_i hhub
    obtain ⟨hchannels, hredis⟩ := h.unconnected (.inl hhub)
    have haimed : ∀ r, w.aimed r = false := by
      intro r
      unfold aimed
      rw [hhub, hchannels]
      rfl
    have hstopped : w.stopped = false := by
      unfold stopped
      rw [hhub]
      rfl
    cases ok with
    | true =>
      cases hw
      refine ⟨h.linked, fun channels hc => ?_, fun hor => ?_, (fun hidle => by cases hidle),
        fun r => ?_⟩
      · cases hc
        exact hchannels.symm
      · rcases hor with hhub | hhub
        · cases hhub
        · cases hhub
      · refine (h.fine r).of (fun hatt => ?_) ?_ (.inr Iff.rfl)
        · rcases hatt with hcmd | ⟨c, task, htask, hattends⟩
          · exact .inl hcmd
          · refine .inr ⟨c, task, htask, ?_⟩
            rw [hstopped] at hattends
            exact hattends
        · rw [haimed r]
          show decide (r ∈ w.subscribedChannels) = false
          rw [hchannels]
          rfl
    | false =>
      cases hw
      refine ⟨h.linked, h.redis, fun _ => ⟨hchannels, hredis⟩, fun _ => rfl, fun r => ?_⟩
      by_cases hnil : w.manager.subscribersOf r = []
      · refine .inr ⟨fun hr => ?_, fun hne => absurd hnil hne⟩
        have hmem : r ∈ w.subscribedChannels := of_decide_eq_true hr
        rw [hchannels] at hmem
        cases hmem
      · obtain ⟨c, task, htask, hjoins⟩ := hG r hnil
        refine .inl (.inr ⟨c, task, htask, ?_⟩)
        show task.attends true r = true
        cases task with
        | syncRooms | awaitRooms => cases hjoins
        | _ => exact hjoins
  · cases hw

theorem ok_receive (h : HubOk w) (hw : w.receiveSync = some w') : HubOk w' := by
  unfold receiveSync at hw
  split at hw
  · rename_i cmd queue hhub hqueue
    have hstopped : w.stopped = false := by
      unfold stopped
      rw [hhub]
      rfl
    have haimed : ∀ r, w.aimed r = decide (r ∈ w.subscribedChannels) := by
      intro r
      unfold aimed
      rw [hhub]
    have hcount : 0 < w.manager.getRoomSubscriberCount cmd.roomId ↔
        w.manager.subscribersOf cmd.roomId ≠ [] := length_pos_iff
    have hok : ∀ hub : HubState, hub ≠ .connecting → hub ≠ .stopped →
        ({ w with queue, hub }.aimed cmd.roomId = true ↔ w.manager.subscribersOf cmd.roomId ≠ []) →
        (∀ r, r ≠ cmd.roomId → { w with queue, hub }.aimed r = decide (r ∈ w.subscribedChannels)) →
          HubOk { w with queue, hub } := by
      intro hub hconnecting hne hself hothers
      refine ⟨h.linked, h.redis, fun hor => ?_, fun heq => absurd heq hne, fun r => ?_⟩
      · exact absurd hor (not_or.2 ⟨hconnecting, hne⟩)
      by_cases hr : r = cmd.roomId
      · subst hr
        exact .inr hself
      refine (h.fine r).of (fun hatt => ?_) ((hothers r hr).trans (haimed r).symm) (.inr Iff.rfl)
      -- The other rooms are attended to by the commands that are left.
      rcases hatt with ⟨cmd', hcmd, hroom⟩ | ⟨c, task, htask, hattends⟩
      · rw [hqueue] at hcmd
        rcases mem_cons.1 hcmd with rfl | hcmd
        · exact absurd hroom.symm hr
        · exact .inl ⟨cmd', hcmd, hroom⟩
      · refine .inr ⟨c, task, htask, ?_⟩
        show task.attends (decide (hub = .stopped)) r = true
        rwa [decide_eq_false hne, ← hstopped]
    have hworking : ∀ op, (op = HubOp.subscribe ↔ w.manager.subscribersOf cmd.roomId ≠ []) →
        HubOk { w with queue, hub := .working cmd op } := by
      intro op hop
      refine hok _ (fun heq => by cases heq) (fun heq => by cases heq) ?_ fun r hr => ?_
      · show (if cmd.roomId = cmd.roomId then decide (op = .subscribe) else _) = true ↔ _
        rw [if_pos rfl, decide_eq_true_eq, hop]
      · exact if_neg (Ne.symm hr)
    cases hw
    split
    · rename_i hsub
      exact hworking .subscribe ⟨fun _ => hcount.1 hsub.1, fun _ => rfl⟩
    · rename_i hnotSub
      split
      · rename_i hunsub
        refine hworking .unsubscribe ⟨(fun heq => by cases heq), fun hne => ?_⟩
        exact absurd (hcount.2 hne) hunsub.1
      · rename_i hnotUnsub
        have hidle : HubOk { w with queue, hub := .idle } := by
          refine hok .idle (fun heq => by cases heq) (fun heq => by cases heq) ?_ fun r _ => rfl
          show decide (cmd.roomId ∈ w.subscribedChannels) = true ↔ _
          rw [decide_eq_true_eq, ← hcount]
          constructor
          · intro hmem
            by_contra hnot
            exact hnotUnsub ⟨hnot, hmem⟩
          · intro hpos
            by_contra hnot
            exact hnotSub ⟨hpos, hnot⟩
        rw [← hhub] at hidle
        exact hidle.of_reply hstopped cmd true
  · cases hw

theorem mem_changed {channels : List Uuid} {r : Uuid} {op : HubOp} :
    r ∈ changed channels roomId op ↔ if roomId = r then op = .subscribe else r ∈ channels := by
  cases op with
  | subscribe =>
    show r ∈ channels.insert roomId ↔ _
    by_cases hr : roomId = r
    · simp [hr]
    · simp [hr, Ne.symm hr]
  | unsubscribe =>
    show r ∈ channels.filter (· ≠ roomId) ↔ _
    by_cases hr : roomId = r
    · simp [hr]
    · simp [hr, Ne.symm hr]

theorem running_of_working {op : HubOp} (hhub : w.hub = .working cmd op) (r : Uuid) :
    w.aimed r = (if cmd.roomId = r then decide (op = .subscribe) else r ∈ w.subscribedChannels) ∧
      w.stopped = false := by
  unfold aimed stopped
  rw [hhub]
  exact ⟨rfl, rfl⟩

theorem ok_finish (h : HubOk w) (hw : w.finishSync = some w') : HubOk w' := by
  unfold finishSync at hw
  split at hw
  · rename_i cmd op channels hhub hredis
    cases hw
    have hidle : HubOk { w with
        hub := .idle
        redis := some (changed channels cmd.roomId op)
        subscribedChannels := changed w.subscribedChannels cmd.roomId op } := by
      refine ⟨h.linked, fun channels' hc => ?_, fun hor => ?_, (fun hidle => by cases hidle),
        fun r => ?_⟩
      · cases hc
        rw [h.redis channels hredis]
      · rcases hor with hidle | hidle
        · cases hidle
        · cases hidle
      · obtain ⟨haimed, hrunning⟩ := running_of_working hhub r
        refine (h.fine r).of (fun hatt => ?_) ?_ (.inr Iff.rfl)
        · rcases hatt with hcmd | ⟨c, task, htask, hattends⟩
          · exact .inl hcmd
          · rw [hrunning] at hattends
            exact .inr ⟨c, task, htask, hattends⟩
        · rw [haimed]
          show decide (r ∈ changed w.subscribedChannels cmd.roomId op) = _
          rw [Bool.eq_iff_iff, decide_eq_true_eq, mem_changed]
          split
          · rw [decide_eq_true_eq]
          · rw [decide_eq_true_eq]
    exact hidle.of_reply rfl cmd true
  · cases hw

variable {rebuilt : Option (List Uuid)}

/-- A connection to Redis that is made anew has all the channels, or there is none. -/
theorem rebuildPubsub_eq (h : w.Kept rebuilt) :
    ∃ redis, w.rebuildPubsub rebuilt = { w with redis } ∧
      (redis = some w.subscribedChannels ∨ redis = w.redis) := by
  cases rebuilt with
  | none => exact ⟨w.redis, rfl, .inr rfl⟩
  | some rooms =>
    refine ⟨_, rfl, .inl ?_⟩
    rw [filter_eq_self.2 fun r hr => decide_eq_true (h rooms rfl r hr)]

theorem ok_fail (h : HubOk w) (hG : HubAct.Orderly w (.fail rebuilt))
    (hw : w.failSync rebuilt = some w') : HubOk w' := by
  unfold failSync at hw
  split at hw
  · rename_i cmd op hhub
    obtain ⟨hkept, hright⟩ := hG
    obtain ⟨redis, heq, hredis⟩ := rebuildPubsub_eq (w := { w with hub := .idle }) hkept
    rw [heq] at hw
    cases hw
    -- Nobody has been told of the failure yet.
    have hattended : ∀ r, w.Attended r → { w with hub := .idle, redis }.Attended r := by
      rintro r (hcmd | ⟨c, task, htask, hattends⟩)
      · exact .inl hcmd
      · rw [(running_of_working hhub r).2] at hattends
        exact .inr ⟨c, task, htask, hattends⟩
    obtain ⟨tasks, htasks⟩ := reply_eq { w with hub := .idle, redis } cmd false
    have hfine : ∀ r, Fine ({ w with hub := .idle, redis }.reply cmd false) r := by
      intro r
      have hreply : ∀ h : { w with hub := .idle, redis }.Attended r,
          ({ w with hub := .idle, redis }.reply cmd false).Attended r := attended_reply rfl false
      have hagrees : Fine ({ w with hub := .idle, redis }) r →
          Fine ({ w with hub := .idle, redis }.reply cmd false) r := by
        intro hfine
        exact hfine.of hreply (by rw [htasks]; rfl) (.inr (by rw [htasks]))
      by_cases hr : cmd.roomId = r
      · subst hr
        rcases hright cmd op hhub with hatt | hwaits | hagree
        · exact hagrees (.inl (hattended _ hatt))
        · refine .inl ?_
          unfold reply
          rw [show ({ w with hub := .idle, redis } : HubWorld).tasks.lookup cmd.connId = _
            from hwaits]
          dsimp only
          rw [if_pos rfl]
          exact attended_self setTask_self (decide_eq_true rfl)
        · refine hagrees (.inr ?_)
          show decide (cmd.roomId ∈ w.subscribedChannels) = true ↔ _
          rw [decide_eq_true_eq]
          exact hagree
      · refine hagrees ((h.fine r).of (hattended r) ?_ (.inr Iff.rfl))
        rw [(running_of_working hhub r).1, if_neg hr]
        rfl
    rw [htasks] at hfine ⊢
    refine ⟨h.linked, fun channels hc => ?_, fun hor => ?_, (fun hidle => by cases hidle), hfine⟩
    · rcases hredis with heq' | heq'
      · exact Option.some.inj (hc.symm.trans heq')
      · exact h.redis channels (heq'.symm.trans hc)
    · rcases hor with hidle | hidle
      · cases hidle
      · cases hidle
  · cases hw

theorem ok_rebuild (h : HubOk w) (hkept : w.Kept rebuilt) (hw : w.rebuildLost rebuilt = some w') :
    HubOk w' := by
  unfold rebuildLost at hw
  split at hw
  · rename_i hhub hlost
    obtain ⟨redis, heq, hredis⟩ := rebuildPubsub_eq hkept
    rw [heq] at hw
    cases hw
    refine ⟨h.linked, fun channels hc => ?_, fun hor => ?_, h.unasked, h.fine⟩
    · rcases hredis with heq' | heq'
      · exact Option.some.inj (hc.symm.trans heq')
      · exact h.redis channels (heq'.symm.trans hc)
    · rw [show w.hub = .idle from hhub] at hor
      rcases hor with hidle | hidle
      · cases hidle
      · cases hidle
  · cases hw

/-! ## Runs -/

theorem whenFree_eq {w₁ : HubWorld} (hw : w.whenFree connId w₁ = some w') :
    w.tasks.lookup connId = none ∧ w' = w₁ := by
  unfold whenFree at hw
  split at hw
  · rename_i hfree
    exact ⟨hfree, (Option.some.inj hw).symm⟩
  · cases hw

/-- Every act that meets the condition keeps the invariant. -/
theorem ok_act {a : HubAct} (h : HubOk w) (hG : a.Orderly w) (hw : w.act a = some w') :
    HubOk w' := by
  cases a with
  | auth connId userId info =>
    obtain ⟨-, rfl⟩ := whenFree_eq hw
    exact ⟨linked_register h.linked connId userId info, h.redis, h.unconnected, h.unasked, h.fine⟩
  | join connId roomId =>
    obtain ⟨hfree, rfl⟩ := whenFree_eq hw
    exact ok_join h hfree
  | leave connId roomId =>
    obtain ⟨hfree, rfl⟩ := whenFree_eq hw
    exact ok_leave h hfree
  | close connId order =>
    obtain ⟨hfree, rfl⟩ := whenFree_eq hw
    exact ok_close h hfree order
  | send connId => exact ok_send h hw
  | giveUp connId => exact ok_giveUp h hw
  | takeBack connId => exact ok_takeBack h hG hw
  | connect ok => exact ok_connect h hG hw
  | receive => exact ok_receive h hw
  | finish => exact ok_finish h hw
  | fail rebuilt => exact ok_fail h hG hw
  | lose =>
    cases hw
    exact ⟨h.linked, (fun _ hc => by cases hc), fun hor => ⟨(h.unconnected hor).1, rfl⟩, h.unasked,
      h.fine⟩
  | rebuild rebuilt => exact ok_rebuild h hG hw

theorem ok_starting : HubOk .starting :=
  ⟨linked_new, (fun _ hc => by cases hc), fun _ => ⟨rfl, rfl⟩, (fun hhub => by cases hhub),
    fun _ => .inr ⟨fun haimed => absurd haimed Bool.false_ne_true, fun hne => absurd rfl hne⟩⟩

/-- Where nothing is on its way, nobody attends to any room. -/
theorem HubOk.agreed (h : HubOk w) (hquiescent : w.Quiescent) : w.Agreed := by
  obtain ⟨htasks, hqueue, hhub⟩ := hquiescent
  intro roomId
  have hright : w.aimed roomId = true ↔ w.manager.subscribersOf roomId ≠ [] := by
    rcases h.fine roomId with (⟨cmd, hcmd, -⟩ | ⟨c, task, htask, -⟩) | hright
    · rw [hqueue] at hcmd
      cases hcmd
    · rw [htasks c] at htask
      cases htask
    · exact hright
  rw [← hright]
  rcases hhub with ⟨hidle, hconnected⟩ | hstopped
  · obtain ⟨channels, hredis⟩ := Option.isSome_iff_exists.1 hconnected
    unfold aimed
    rw [hidle, hredis, h.redis channels hredis]
    exact decide_eq_true_iff.symm
  · obtain ⟨-, hredis⟩ := h.unconnected (.inr hstopped)
    rw [hredis, h.not_aimed (decide_eq_true hstopped)]
    exact ⟨fun hmem => absurd hmem not_mem_nil, fun hfalse => absurd hfalse Bool.false_ne_true⟩

end

/-- **The channels are right whenever nothing is on its way**, in every run of connections that
join, leave and close, and of a hub whose commands may fail and whose connection may break, as long
as what fails leaves no room wrong that nobody attends to. -/
theorem subscriptions_agree (w : HubWorld)
    (hreach : Reach HubWorld.act (fun w a => a.Orderly w) .starting w)
    (hquiescent : w.Quiescent) : w.Agreed := by
  have hok : HubOk w := hreach.invariant (fun _ _ _ h hG hw => ok_act h hG hw) ok_starting
  exact hok.agreed hquiescent

/-- Where a run leaves no task, no command and an idle hub with a connection, it is quiescent. -/
theorem quiescent_of_perform {acts : List HubAct} {channels : List Uuid} {subs : List String}
    (hrun : (Machine.perform HubWorld.act acts .starting).map (fun w =>
      (w.tasks.isEmpty && w.queue.isEmpty && w.hub = .idle, w.redis, w.manager.subscribersOf 7)) =
        some (true, some channels, subs)) :
    ∃ w, Machine.perform HubWorld.act acts .starting = some w ∧ w.Quiescent ∧
      w.redis = some channels ∧ w.manager.subscribersOf 7 = subs := by
  obtain ⟨w, hw, heq⟩ := Option.map_eq_some_iff.1 hrun
  obtain ⟨hquiet, heq⟩ := Prod.mk.inj heq
  obtain ⟨hredis, hsubs⟩ := Prod.mk.inj heq
  obtain ⟨hempty, hhub⟩ := Bool.and_eq_true_iff.1 hquiet
  obtain ⟨htasks, hqueue⟩ := Bool.and_eq_true_iff.1 hempty
  refine ⟨w, hw, ⟨Dict.isEmpty_iff.1 htasks, isEmpty_iff.1 hqueue, .inl ⟨?_, ?_⟩⟩, hredis,
    hsubs⟩
  · exact of_decide_eq_true hhub
  · rw [hredis]
    rfl

/-- A connection joins the room 7, and the hub subscribes to its channel. -/
def joinCarriedOut : List HubAct :=
  [.connect true, .auth "c" "u" ⟨"u", none, 0, 0, .json⟩, .join "c" 7, .send "c", .receive, .finish]

theorem subscriptions_agree_joined :
    ∃ w, Machine.perform HubWorld.act joinCarriedOut .starting = some w ∧ w.Agreed := by
  have hrun : (Machine.perform HubWorld.act joinCarriedOut .starting).map (fun w =>
      (w.tasks.isEmpty && w.queue.isEmpty && w.hub = .idle, w.redis, w.manager.subscribersOf 7)) =
        some (true, some [7], ["c"]) := by
    decide +kernel
  obtain ⟨w, hw, hquiescent, -, -⟩ := quiescent_of_perform hrun
  have horderly : ∀ a ∈ joinCarriedOut, ∀ w : HubWorld, a.Orderly w := by
    intro a ha w
    simp only [joinCarriedOut, mem_cons, not_mem_nil, or_false] at ha
    rcases ha with rfl | rfl | rfl | rfl | rfl | rfl <;> trivial
  exact ⟨w, hw, subscriptions_agree w (.of_perform_mem horderly hw) hquiescent⟩

/-! ## A join that takes its subscription back -/

/-- Two connections join the room 7 one after the other; the hub fails to subscribe, and the first
takes its subscription back. -/
def joinTakenBack : List HubAct :=
  [.connect true, .auth "c" "u" ⟨"u", none, 0, 0, .json⟩, .auth "d" "v" ⟨"v", none, 0, 0, .json⟩,
    .join "c" 7, .join "d" 7, .send "c", .receive, .fail none, .takeBack "c"]

/-- The second is subscribed to the room, and the node is not. -/
theorem joined_without_channel : ¬ SubscriptionsAgree fun _ _ => True := by
  intro h
  have hrun : (Machine.perform HubWorld.act joinTakenBack .starting).map (fun w =>
      (w.tasks.isEmpty && w.queue.isEmpty && w.hub = .idle, w.redis, w.manager.subscribersOf 7)) =
        some (true, some [], ["d"]) := by
    decide +kernel
  obtain ⟨w, hw, hquiescent, hredis, hsubs⟩ := quiescent_of_perform hrun
  have hagreed := h w (Reach.of_perform (fun _ _ => trivial) hw) hquiescent 7
  rw [hredis, hsubs] at hagreed
  exact absurd (hagreed.2 (cons_ne_nil _ _)) not_mem_nil

end Hub

end RedcodeIm
