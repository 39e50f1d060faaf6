import RedcodeIm.Database.Uuids
import RedcodeIm.Websocket.Subscriptions

/-!
# Subscriptions and memberships: who is subscribed is a member

A connection is subscribed to a room only after its user has been found to be a member; the
handlers that end a membership leave the subscriptions as they are.

* `MembersOnly` — who is subscribed to a room is a member of it, and so is whoever a message of the
  room goes to.
* `NothingLeft` — the condition: a membership ends only while no connection of the user is
  subscribed to the room or about to be, and no connection changes its user.
* `subscriptions_are_members` — under the condition it is so in every state.
-/

namespace RedcodeIm

open Overlap (Each Reach)
open SubscriptionWorld

namespace Subscriptions

open ConnectionManager Registry

abbrev State :=
  Overlap.State SubscriptionWorld SubscriptionCall SubscriptionStage SubscriptionAnswer

abbrev Status := Overlap.Status SubscriptionStage SubscriptionAnswer

abbrev Condition :=
  Overlap.Condition SubscriptionWorld SubscriptionCall SubscriptionStage SubscriptionAnswer
    SubscriptionChance

/-- The user that a connection is registered under is a member of the room. -/
def IsMember (parseUuid : String → Except String Uuid) (w : SubscriptionWorld) (roomId : Uuid)
    (userId : String) : Prop :=
  ∃ user, parseUuid userId = .ok user ∧ w.rooms.userInRoom roomId user = true

/-- Who is subscribed to a room, on any node, is a member of it, and so is whoever a push to the
room goes to. -/
structure MembersOnly (parseUuid : String → Except String Uuid) (w : SubscriptionWorld) :
    Prop where
  subscribed : ∀ node connId roomId userId, connId ∈ (w.nodes node).subscribersOf roomId →
    (w.nodes node).registered connId userId = true → IsMember parseUuid w roomId userId
  delivered : ∀ node connId roomId userId order info,
    (connId, info) ∈ (w.nodes node).sendToRoom roomId order →
      (w.nodes node).registered connId userId = true → IsMember parseUuid w roomId userId

/-- In the runs whose statements meet a condition, every state is so. -/
def SubscriptionsAreMembers (parseUuid : String → Except String Uuid) (uuidText : Uuid → String)
    (G : Condition) (w : SubscriptionWorld) : Prop :=
  ∀ s, Reach (subscribing parseUuid uuidText) G (.idle w) s → MembersOnly parseUuid s.world

/-- Nobody is connected yet. -/
def unconnected (now : Timestamp) (rooms : RoomTables) : SubscriptionWorld :=
  ⟨now, rooms, fun _ => .new⟩

/-! ## The condition -/

/-- A join that has found the user of its connection: the node, the connection and the user. -/
def joiningAs : SubscriptionStage → Option (ℕ × String × String)
  | .join node connId _ (.check userId _) => some (node, connId, userId)
  | .join node connId _ (.subscribe userId _) => some (node, connId, userId)
  | _ => none

/-- The connection is registered under no other user, and joins no room as another. -/
def Steady (s : State) (node : ℕ) (connId userId : String) : Prop :=
  (∀ u, (s.world.nodes node).registered connId u = true → u = userId) ∧
  ∀ j c stage u, s.calls j = some (c, .running stage) → joiningAs stage = some (node, connId, u) →
    u = userId

/-- No connection of the user is subscribed to the room, on any node, and none that has been found
to be a member's is about to be. -/
def Clear (parseUuid : String → Except String Uuid) (s : State) (roomId user : Uuid) : Prop :=
  (∀ node connId userId, parseUuid userId = .ok user →
    (s.world.nodes node).registered connId userId = true →
      connId ∉ (s.world.nodes node).subscribersOf roomId) ∧
  ∀ j c node connId userId,
    s.calls j ≠ some (c, .running (.join node connId roomId (.subscribe userId user)))

/-- **The condition**: no connection authenticates as another user, and where a statement ends a
membership the user's connections are clear of the room. -/
def NothingLeft (parseUuid : String → Except String Uuid) : Condition := fun s i _ =>
  ∀ c stage, s.calls i = some (c, .running stage) →
    (∀ node connId userId info, stage = .auth node connId userId info →
      Steady s node connId userId) ∧
    ∀ roomId user, endsMembership s.world roomId user stage = true → Clear parseUuid s roomId user

/-! ## Invariants -/

/-- The maps of every node are in order, and who is subscribed is a member. -/
structure WorldOk (parseUuid : String → Except String Uuid) (w : SubscriptionWorld) : Prop where
  linked : ∀ node, Linked (w.nodes node)
  oneUser : ∀ node, OneUser (w.nodes node)
  subscribed : ∀ node connId roomId userId, connId ∈ (w.nodes node).subscribersOf roomId →
    (w.nodes node).registered connId userId = true → IsMember parseUuid w roomId userId

/-- A join goes by the user that its connection is registered under, and by a membership that still
is one. -/
def CallOk (parseUuid : String → Except String Uuid) (w : SubscriptionWorld) (_ : ℕ)
    (_ : SubscriptionCall) : Status → Prop
  | .running (.join node connId _ (.check userId user)) =>
    parseUuid userId = .ok user ∧ ∀ u, (w.nodes node).registered connId u = true → u = userId
  | .running (.join node connId roomId (.subscribe userId user)) =>
    (parseUuid userId = .ok user ∧ ∀ u, (w.nodes node).registered connId u = true → u = userId) ∧
      w.rooms.userInRoom roomId user = true
  | _ => True

section

variable {parseUuid : String → Except String Uuid} {uuidText : Uuid → String}
  {w w' : SubscriptionWorld} {s : State} {node node' : ℕ} {call : ConnectionCall}

variable {roomId : Uuid} {userId : String}

theorem IsMember.congr
    (hrooms : ∀ user, w.rooms.userInRoom roomId user = true →
      w'.rooms.userInRoom roomId user = true) (h : IsMember parseUuid w roomId userId) :
    IsMember parseUuid w' roomId userId := by
  obtain ⟨user, hparse, hin⟩ := h
  exact ⟨user, hparse, hrooms user hin⟩

/-- What a call of a node leaves true of every node. -/
theorem nodes_call {I : ConnectionManager → Prop} (h : ∀ node, I (w.nodes node))
    (hcall : I ((w.nodes node).call call)) (node' : ℕ) : I ((w.call node call).nodes node') := by
  by_cases hn : node' = node
  · subst hn
    rwa [call_self]
  · rw [call_of_ne w call hn]
    exact h node'

variable {connId : String}

theorem registered_node (h : ((w.call node call).nodes node').registered connId userId = true) :
    (w.nodes node').registered connId userId = true ∨
      (node' = node ∧ ∃ info, call = .register connId userId info) := by
  by_cases hn : node' = node
  · subst hn
    rw [call_self] at h
    rcases registered_call call h with hreg | hinfo
    · exact .inl hreg
    · exact .inr ⟨rfl, hinfo⟩
  · rw [call_of_ne w call hn] at h
    exact .inl h

theorem subscribersOf_node (h : connId ∈ ((w.call node call).nodes node').subscribersOf roomId) :
    connId ∈ (w.nodes node').subscribersOf roomId ∨
      (node' = node ∧ call = .subscribe connId roomId) := by
  by_cases hn : node' = node
  · subst hn
    rw [call_self] at h
    rcases subscribersOf_call call h with hsub | heq
    · exact .inl hsub
    · exact .inr ⟨rfl, heq⟩
  · rw [call_of_ne w call hn] at h
    exact .inl h

/-- A connection that is subscribed to a room is registered. -/
theorem Linked.registered_of_subscribed {m : ConnectionManager} (h : Linked m)
    (hsub : connId ∈ m.subscribersOf roomId) :
    ∃ userId, m.registered connId userId = true := by
  have hroom := (h.inverse connId roomId).2 hsub
  refine h.known connId ?_
  unfold roomsOf Dict.members at hroom
  cases hl : m.connectionRooms.lookup connId with
  | none =>
    rw [hl] at hroom
    cases hroom
  | some rooms => rfl

/-- The user of a connection that is subscribed is a member, also once it is registered anew. -/
theorem WorldOk.isMember_of_steady (h : WorldOk parseUuid s.world)
    (hsteady : Steady s node connId userId)
    (hsub : connId ∈ (s.world.nodes node).subscribersOf roomId) :
    IsMember parseUuid s.world roomId userId := by
  obtain ⟨u, hreg⟩ := Linked.registered_of_subscribed (h.linked node) hsub
  have hu := hsteady.1 u hreg
  subst hu
  exact h.subscribed node connId roomId u hsub hreg

/-- A node's call, of a join that has been found to be a member's or of another kind. -/
theorem WorldOk.of_call (h : WorldOk parseUuid s.world)
    (hauth : ∀ connId userId info, call = .register connId userId info →
      Steady s node connId userId)
    (hjoin : ∀ connId roomId, call = .subscribe connId roomId → ∀ userId,
      (s.world.nodes node).registered connId userId = true →
        IsMember parseUuid s.world roomId userId) :
    WorldOk parseUuid (s.world.call node call) where
  linked := nodes_call h.linked (linked_call (h.linked node) call)
  oneUser := nodes_call h.oneUser
    (oneUser_call (h.oneUser node) fun connId userId info heq => (hauth connId userId info heq).1)
  subscribed node' connId roomId userId hsub hreg := by
    show IsMember parseUuid s.world roomId userId
    rcases registered_node hreg with hold | ⟨rfl, info, hcall⟩
    · rcases subscribersOf_node hsub with hsub | ⟨rfl, hcall⟩
      · exact h.subscribed node' connId roomId userId hsub hold
      · exact hjoin connId roomId hcall userId hold
    · rcases subscribersOf_node hsub with hsub | ⟨-, hcall'⟩
      · exact h.isMember_of_steady (hauth connId userId info hcall) hsub
      · rw [hcall] at hcall'
        cases hcall'

/-- The end of a membership that is clear of the room. -/
theorem WorldOk.ended (h : WorldOk parseUuid s.world) (hnodes : w'.nodes = s.world.nodes)
    {ends : Uuid → Uuid → Prop} (hkept : ∀ r u, s.world.rooms.userInRoom r u = true →
      w'.rooms.userInRoom r u = true ∨ ends r u)
    (hclear : ∀ r u, ends r u → Clear parseUuid s r u) : WorldOk parseUuid w' where
  linked := by rw [hnodes]; exact h.linked
  oneUser := by rw [hnodes]; exact h.oneUser
  subscribed node connId roomId userId hsub hreg := by
    rw [hnodes] at hsub hreg
    obtain ⟨user, hparse, hin⟩ := h.subscribed node connId roomId userId hsub hreg
    refine ⟨user, hparse, ?_⟩
    rcases hkept roomId user hin with hin | hends
    · exact hin
    · exact absurd hsub ((hclear roomId user hends).1 node connId userId hparse hreg)

variable {c : SubscriptionCall}

/-- What a join goes by stays so while another call makes its statement. -/
theorem CallOk.keep {i j : ℕ} {st : Status} (hj : s.calls j = some (c, st))
    (hregistered : ∀ node connId userId, (w'.nodes node).registered connId userId = true →
      (s.world.nodes node).registered connId userId = true ∨ Steady s node connId userId)
    (hkept : ∀ roomId user, s.world.rooms.userInRoom roomId user = true →
      w'.rooms.userInRoom roomId user = true ∨ Clear parseUuid s roomId user)
    (h : CallOk parseUuid s.world i c st) : CallOk parseUuid w' i c st := by
  have hsame : ∀ {node connId userId stage}, st = .running stage →
      joiningAs stage = some (node, connId, userId) →
      (∀ u, (s.world.nodes node).registered connId u = true → u = userId) →
        ∀ u, (w'.nodes node).registered connId u = true → u = userId := by
    intro node connId userId stage hst hstage hold u hu
    rcases hregistered node connId u hu with hu | hsteady
    · exact hold u hu
    · exact (hsteady.2 j c stage userId (by rw [hj, hst]) hstage).symm
  unfold CallOk at h ⊢
  split
  · exact ⟨h.1, hsame rfl rfl h.2⟩
  · refine ⟨⟨h.1.1, hsame rfl rfl h.1.2⟩, ?_⟩
    rcases hkept _ _ h.2 with hin | hclear
    · exact hin
    · exact absurd hj (hclear.2 j c _ _ _)
  · trivial

variable {stage : SubscriptionStage}

/-- A statement leaves its own call in order. -/
theorem CallOk.next {x : SubscriptionChance} {i : ℕ} (hw : WorldOk parseUuid w)
    (h : CallOk parseUuid w i c (.running stage)) :
    CallOk parseUuid (subscriptionStatement parseUuid uuidText w x stage).1 i c
      (subscriptionStatement parseUuid uuidText w x stage).2.status := by
  cases stage with
  | join node connId roomId stage =>
    show CallOk parseUuid (joinEvent parseUuid node connId roomId w x stage).1 i c
      ((joinEvent parseUuid node connId roomId w x stage).2.map (.join node connId roomId)).status
    cases stage with
    | find =>
      simp only [joinEvent]
      cases hfound : (w.nodes node).getUserIdByConn connId x.order with
      | none => trivial
      | some userId =>
        dsimp only
        cases hparse : parseUuid userId with
        | error e => trivial
        | ok user =>
          exact ⟨hparse, fun u hu =>
            hw.oneUser node connId u userId hu (registered_of_getUserIdByConn hfound)⟩
    | check userId user =>
      simp only [joinEvent]
      split
      · rename_i hin
        exact ⟨h, hin⟩
      · trivial
    | subscribe userId user =>
      simp only [joinEvent]
      split
      · trivial
      · rename_i shouldSyncRedis _ _
        cases shouldSyncRedis with
        | true | false => trivial
    | sync =>
      simp only [joinEvent]
      split
      · trivial
      · trivial
    | undo err => trivial
  | removeGroupMember operatorId roomId memberId stage =>
    show CallOk parseUuid _ i c
      ((removeGroupMember operatorId roomId memberId w stage).2.map
        (.removeGroupMember operatorId roomId memberId)).status
    cases (removeGroupMember operatorId roomId memberId w stage).2 with
    | goto | done => trivial
  | dissolveRoom operatorId roomId stage =>
    show CallOk parseUuid _ i c
      ((dissolveRoom operatorId roomId w stage).2.map (.dissolveRoom operatorId roomId)).status
    cases (dissolveRoom operatorId roomId w stage).2 with
    | goto | done => trivial
  | _ => trivial

/-! ## Runs -/

/-- A statement that meets the condition keeps the world in order, and what the other calls go
by. -/
theorem ok_stmt (uuidText : Uuid → String) {i : ℕ} {x : SubscriptionChance}
    (hI : Each (WorldOk parseUuid) (CallOk parseUuid) s)
    (hcall : s.calls i = some (c, .running stage)) (hG : NothingLeft parseUuid s i x) :
    WorldOk parseUuid (subscriptionStatement parseUuid uuidText s.world x stage).1 ∧
      ∀ j c' st', s.calls j = some (c', st') → CallOk parseUuid s.world j c' st' →
        CallOk parseUuid (subscriptionStatement parseUuid uuidText s.world x stage).1 j c' st' := by
  obtain ⟨hsteady, hclear⟩ := hG c stage hcall
  have hself := hI.2 i c (.running stage) hcall
  have hmove : SubscriptionMove s.world stage
      (subscriptionStatement parseUuid uuidText s.world x stage).1 := subscription_move stage
  rcases hmove with hw | ⟨node, call, hw, hauth, hjoin⟩ | ⟨hnodes, hkept⟩
  · rw [hw]
    exact ⟨hI.1, fun _ _ _ _ h => h⟩
  · rw [hw]
    have hauthed : ∀ connId userId info, call = .register connId userId info →
        Steady s node connId userId := fun connId userId info heq =>
      hsteady node connId userId info (hauth connId userId info heq)
    refine ⟨hI.1.of_call hauthed fun connId roomId heq u hu => ?_, fun j c' st' hj h =>
      h.keep hj (fun node' connId u hu => ?_) fun _ _ hin => .inl hin⟩
    · obtain ⟨userId, user, rfl⟩ := hjoin connId roomId heq
      obtain ⟨⟨hparse, hsame⟩, hin⟩ := hself
      rw [hsame u hu]
      exact ⟨user, hparse, hin⟩
    · rcases registered_node hu with hu | ⟨rfl, info, heq⟩
      · exact .inl hu
      · exact .inr (hauthed connId u info heq)
  · refine ⟨hI.1.ended hnodes hkept hclear, fun j c' st' hj h =>
      h.keep hj (fun node connId u hu => ?_) fun r u hin => ?_⟩
    · rw [hnodes] at hu
      exact .inl hu
    · rcases hkept r u hin with hin | hends
      · exact .inl hin
      · exact .inr (hclear r u hends)

theorem ok_of_reach {now : Timestamp} {rooms : RoomTables}
    (h : Reach (subscribing parseUuid uuidText) (NothingLeft parseUuid)
      (.idle (unconnected now rooms)) s) : Each (WorldOk parseUuid) (CallOk parseUuid) s := by
  refine h.each (fun s i c _ => ?_) (fun s i c stage x hI hcall _ hG => ?_) (fun _ _ _ => trivial)
    (fun w t hw => ?_) (Overlap.each_idle ?_)
  · cases c with
    | _ => trivial
  · obtain ⟨hw, hothers⟩ := ok_stmt uuidText hI hcall hG
    exact ⟨hw, (hI.2 i c _ hcall).next hI.1, fun j c' st' _ hj h => hothers j c' st' hj h⟩
  · have hkept : ∀ r u, w.rooms.userInRoom r u = true →
        (w.tick t).rooms.userInRoom r u = true := fun r u => userInRoom_tick t
    refine ⟨⟨hw.linked, hw.oneUser, fun node connId roomId userId hsub hreg =>
      (hw.subscribed node connId roomId userId hsub hreg).congr (hkept roomId)⟩,
      fun i c st h => ?_⟩
    show CallOk parseUuid (w.tick t) i c st
    unfold CallOk at h ⊢
    split
    · exact h
    · exact ⟨h.1, hkept _ _ h.2⟩
    · trivial
  · exact ⟨fun _ => linked_new, fun _ => oneUser_new, fun _ _ _ _ h => absurd h List.not_mem_nil⟩

end

/-- **Who is subscribed is a member**, in every state of every run in which memberships end only
while no connection of the user is subscribed to the room or about to be, and in which no connection
changes its user; and a push to a room goes to members. -/
theorem subscriptions_are_members (parseUuid : String → Except String Uuid)
    (uuidText : Uuid → String) (now : Timestamp) (rooms : RoomTables) :
    SubscriptionsAreMembers parseUuid uuidText (NothingLeft parseUuid) (unconnected now rooms) := by
  intro s hreach
  have hw := (ok_of_reach hreach).1
  refine ⟨hw.subscribed, fun node connId roomId userId order info hsent hreg => ?_⟩
  exact hw.subscribed node connId roomId userId (subscribed_of_sendToRoom hsent) hreg

/-! ## A member who is removed -/

/-- The user 5 is a member of the group 7, which the user 6 owns. -/
def groupOfTwo : RoomTables where
  rooms := Table.empty.put ⟨7, .groupChat, 6, none⟩
  members := (Table.empty.put ⟨70, 7, 6, .owner, 0, none⟩).put ⟨71, 7, 5, .member, 0, none⟩
  admins := Table.empty

/-- A connection of the user 5 joins the group, and the owner then removes the user from it. -/
def removedWhileSubscribed :
    List (Overlap.Act SubscriptionCall SubscriptionChance SubscriptionTick) :=
  let x : SubscriptionChance := ⟨[], .ok ()⟩
  [.start 0 (.auth 0 "c" (sampleUuidText 5) ⟨sampleUuidText 5, none, 0, 0, .json⟩), .run 0 x,
    .start 1 (.join 0 "c" 7), .run 1 x, .run 1 x, .run 1 x, .run 1 x,
    .start 2 (.removeGroupMember 6 7 5), .run 2 x, .run 2 x, .run 2 x]

/-- The removed user's connection still gets what is said in the group. -/
theorem removed_still_subscribed :
    ¬ SubscriptionsAreMembers sampleParseUuid sampleUuidText (fun _ _ _ => True)
      (unconnected 0 groupOfTwo) := by
  intro h
  have hrun : (Overlap.perform (subscribing sampleParseUuid sampleUuidText) (fun _ _ _ => true)
      removedWhileSubscribed (.idle (unconnected 0 groupOfTwo))).map (fun s =>
        ((s.world.nodes 0).sendToRoom 7 [], (s.world.nodes 0).registered "c" (sampleUuidText 5),
          s.world.rooms.userInRoom 7 5)) =
      some ([("c", ⟨sampleUuidText 5, none, 0, 0, .json⟩)], true, false) := by
    decide +kernel
  obtain ⟨s, hs, heq⟩ := Option.map_eq_some_iff.1 hrun
  obtain ⟨hsent, heq⟩ := Prod.mk.inj heq
  obtain ⟨hreg, hnot⟩ := Prod.mk.inj heq
  have hmember := (h s (Reach.of_perform (fun _ _ _ _ => trivial) hs)).delivered 0 "c" 7
    (sampleUuidText 5) [] _ (hsent ▸ List.mem_cons_self) hreg
  obtain ⟨user, hparse, hin⟩ := hmember
  have hfive : sampleParseUuid (sampleUuidText 5) = .ok 5 := by decide +kernel
  cases hfive.symm.trans hparse
  rw [hnot] at hin
  cases hin

end Subscriptions

end RedcodeIm
