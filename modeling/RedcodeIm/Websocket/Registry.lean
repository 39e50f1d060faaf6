import Mathlib.Data.List.Induction
import RedcodeIm.Websocket.Connections

/-!
# The registry of connections

What holds of the maps of a node after any calls.

* `Linked` — the rooms of the connections and the connections of the rooms agree.
* `OneUser` — no connection is registered under two users.
* `Gone` — a connection is in none of the maps.
* `Registry.registry_consistent` — all of it holds after any calls, and of a connection that is
  unregistered, just where no connection authenticates as another user.

`register_connection` leaves what a connection was registered as before, and
`unregister_connection` stops at the first user that it finds the connection under.
-/

namespace RedcodeIm

open ConnectionManager Dict

/-- A call of the connection manager. -/
inductive ConnectionCall where
  | register (connId userId : String) (info : ConnectionInfo)
  | subscribe (connId : String) (roomId : Uuid)
  | unsubscribe (connId : String) (roomId : Uuid)
  | unregister (connId : String) (order : List String)
  | subscribeQr (connId : String) (qrId : Uuid) (info : ConnectionInfo)
  | typing (connId : String) (roomId : Uuid) (isTyping : Bool) (now : ℕ)
  deriving DecidableEq

namespace ConnectionManager

/-- What a call leaves behind. -/
def call (m : ConnectionManager) : ConnectionCall → ConnectionManager
  | .register connId userId info => m.registerConnection connId userId info
  | .subscribe connId roomId =>
    match m.subscribeRoom connId roomId with
    | .ok (_, m') => m'
    | .error _ => m
  | .unsubscribe connId roomId => (m.unsubscribeRoom connId roomId).2
  | .unregister connId order => (m.unregisterConnection connId order).2
  | .subscribeQr connId qrId info => m.subscribeQr connId qrId info
  | .typing connId roomId isTyping now => (m.canEmitTyping connId roomId isTyping now).2

/-- What a new manager is after the calls. -/
def after (calls : List ConnectionCall) : ConnectionManager := calls.foldl call new

/-- `connection_rooms` and `room_subscribers` are inverse to each other, and only of connections
that are registered. -/
structure Linked (m : ConnectionManager) : Prop where
  inverse : ∀ connId roomId, roomId ∈ m.roomsOf connId ↔ connId ∈ m.subscribersOf roomId
  known : ∀ connId, (m.connectionRooms.lookup connId).isSome →
    ∃ userId, m.registered connId userId = true

/-- No connection is registered under two users. -/
def OneUser (m : ConnectionManager) : Prop :=
  ∀ connId userId userId', m.registered connId userId = true → m.registered connId userId' = true →
    userId = userId'

/-- The connection is in none of the maps. -/
structure Gone (m : ConnectionManager) (connId : String) : Prop where
  users : ∀ userId, m.registered connId userId = false
  rooms : m.connectionRooms.lookup connId = none
  subscribers : ∀ roomId, connId ∉ m.subscribersOf roomId
  qr : ∀ qrId, m.awaitsQr connId qrId = false
  typing : ∀ roomId, m.typingThrottles.lookup (connId, roomId) = none

end ConnectionManager

namespace Registry

open ConnectionManager

variable {m : ConnectionManager}

/-! ## Calls -/

theorem linked_new : Linked new where
  inverse _ _ := ⟨fun h => absurd h List.not_mem_nil, fun h => absurd h List.not_mem_nil⟩
  known _ h := absurd h Bool.false_ne_true

theorem oneUser_new : OneUser new := fun _ _ _ h => absurd h Bool.false_ne_true

variable {m' : ConnectionManager}

/-- A call that leaves the users, the rooms and the subscribers as they are. -/
theorem linked_congr (h : Linked m) (hu : m'.userConnections = m.userConnections)
    (hr : m'.connectionRooms = m.connectionRooms) (hs : m'.roomSubscribers = m.roomSubscribers) :
    Linked m' where
  inverse connId roomId := by
    unfold roomsOf subscribersOf
    rw [hr, hs]
    exact h.inverse connId roomId
  known connId hc := by
    rw [hr] at hc
    obtain ⟨userId, hreg⟩ := h.known connId hc
    exact ⟨userId, by rwa [registered_congr hu]⟩

theorem linked_register (h : Linked m) (connId userId : String) (info : ConnectionInfo) :
    Linked (m.registerConnection connId userId info) where
  inverse := h.inverse
  known c hc := by
    obtain ⟨u, hu⟩ := h.known c hc
    refine ⟨u, ?_⟩
    rw [registered_registerConnection]
    split
    · rfl
    · exact hu

variable {connId : String} {roomId : Uuid}

theorem linked_subscribe (h : Linked m) {answer : Bool}
    (hm : m.subscribeRoom connId roomId = .ok (answer, m')) :
    Linked m' := by
  obtain ⟨⟨userId, hreg⟩, -, rfl⟩ := subscribeRoom_eq hm
  refine ⟨fun c r => ?_, fun c hc => ?_⟩
  · have hinverse := h.inverse c r
    simp only [roomsOf, subscribersOf, mem_members_adjoin] at hinverse ⊢
    rw [hinverse]
    constructor
    · rintro (hmem | ⟨hc, hr⟩)
      · exact .inl hmem
      · exact .inr ⟨hr.symm, hc.symm⟩
    · rintro (hmem | ⟨hr, hc⟩)
      · exact .inl hmem
      · exact .inr ⟨hc.symm, hr.symm⟩
  · by_cases hcc : connId = c
    · exact ⟨userId, hcc ▸ hreg⟩
    · refine h.known c ?_
      simp only [adjoin, lookup_set, if_neg hcc] at hc
      exact hc

theorem linked_unsubscribe (h : Linked m) (connId : String) (roomId : Uuid) :
    Linked (m.unsubscribeRoom connId roomId).2 where
  inverse c r := by
    have hinverse := h.inverse c r
    simp only [roomsOf, subscribersOf, unsubscribeRoom, mem_members_discard] at hinverse ⊢
    rw [hinverse]
    constructor
    · rintro ⟨hmem, hne⟩
      exact ⟨hmem, fun heq => hne ⟨heq.2.symm, heq.1.symm⟩⟩
    · rintro ⟨hmem, hne⟩
      exact ⟨hmem, fun heq => hne ⟨heq.2.symm, heq.1.symm⟩⟩
  known c hc := h.known c (isSome_lookup_discard hc)

theorem linked_drop (h : Linked m) (connId userId : String) :
    Linked (m.dropConnection connId userId).2 where
  inverse c r := by
    obtain ⟨-, hself, hother, hsubs⟩ := dropConnection_eq m connId userId
    rw [hsubs]
    by_cases hc : c = connId
    · subst hc
      have hnil : (m.dropConnection c userId).2.roomsOf c = [] := by
        unfold roomsOf members
        rw [hself]
        rfl
      rw [hnil]
      refine ⟨fun hr => absurd hr List.not_mem_nil, ?_⟩
      rintro ⟨hmem, hne⟩
      exact absurd ⟨(h.inverse c r).2 hmem, rfl⟩ hne
    · have hsame : (m.dropConnection connId userId).2.roomsOf c = m.roomsOf c := by
        unfold roomsOf members
        rw [hother c hc]
      rw [hsame, h.inverse]
      exact ⟨fun hmem => ⟨hmem, fun heq => hc heq.2⟩, And.left⟩
  known c hc := by
    obtain ⟨-, hself, hother, -⟩ := dropConnection_eq m connId userId
    by_cases hcc : c = connId
    · rw [hcc, hself] at hc
      cases hc
    · rw [hother c hcc] at hc
      obtain ⟨u, hu⟩ := h.known c hc
      exact ⟨u, registered_dropConnection.2 ⟨hu, fun heq => hcc heq.2.symm⟩⟩

theorem linked_unregister (h : Linked m) (connId : String) (order : List String) :
    Linked (m.unregisterConnection connId order).2 := by
  cases hfound : m.getUserIdByConn connId order with
  | some userId =>
    rw [(unregisterConnection_of_some hfound).2]
    exact linked_congr (linked_drop h connId userId) rfl rfl rfl
  | none =>
    rw [unregisterConnection_of_none hfound]
    exact linked_congr h rfl rfl rfl

theorem linked_call (h : Linked m) (call : ConnectionCall) : Linked (m.call call) := by
  cases call with
  | register connId userId info => exact linked_register h connId userId info
  | subscribe connId roomId =>
    simp only [call]
    cases hm : m.subscribeRoom connId roomId with
    | ok result => exact linked_subscribe h hm
    | error e => exact h
  | unsubscribe connId roomId => exact linked_unsubscribe h connId roomId
  | unregister connId order => exact linked_unregister h connId order
  | subscribeQr connId qrId info => exact linked_congr h rfl rfl rfl
  | typing connId roomId isTyping now =>
    obtain ⟨throttles, heq⟩ := canEmitTyping_eq m connId roomId isTyping now
    simp only [call, heq]
    exact linked_congr h rfl rfl rfl

variable {c : String}

/-- A call registers no connection anew but by registering it. -/
theorem registered_call (call : ConnectionCall) {u : String}
    (h : (m.call call).registered c u = true) :
    m.registered c u = true ∨ ∃ info, call = .register c u info := by
  cases call with
  | register connId userId info =>
    have hreg : (m.registerConnection connId userId info).registered c u = true := h
    rw [registered_registerConnection] at hreg
    split at hreg
    · rename_i heq
      obtain ⟨rfl, rfl⟩ := heq
      exact .inr ⟨info, rfl⟩
    · exact .inl hreg
  | subscribe connId roomId =>
    refine .inl ?_
    simp only [call] at h
    cases hm : m.subscribeRoom connId roomId with
    | ok result =>
      obtain ⟨-, -, heq⟩ := subscribeRoom_eq hm
      rw [hm] at h
      simp only [heq] at h
      exact h
    | error e => rwa [hm] at h
  | unregister connId order =>
    refine .inl ?_
    have hreg : (m.unregisterConnection connId order).2.registered c u = true := h
    cases hfound : m.getUserIdByConn connId order with
    | some userId =>
      rw [(unregisterConnection_of_some hfound).2] at hreg
      exact (registered_dropConnection.1 hreg).1
    | none => rwa [unregisterConnection_of_none hfound] at hreg
  | typing connId roomId isTyping now =>
    obtain ⟨throttles, heq⟩ := canEmitTyping_eq m connId roomId isTyping now
    simp only [call, heq] at h
    exact .inl h
  | _ => exact .inl h

/-- A call leaves every connection under one user that registers none under another. -/
theorem oneUser_call (h : OneUser m) {call : ConnectionCall}
    (hsame : ∀ connId userId info, call = .register connId userId info →
      ∀ userId', m.registered connId userId' = true → userId' = userId) :
    OneUser (m.call call) := by
  intro connId u u' hu hu'
  rcases registered_call call hu with hu | ⟨info, heq⟩
  · rcases registered_call call hu' with hu' | ⟨info', heq'⟩
    · exact h connId u u' hu hu'
    · exact hsame connId u' info' heq' u hu
  · rcases registered_call call hu' with hu' | ⟨info', heq'⟩
    · exact (hsame connId u info heq u' hu').symm
    · rw [heq] at heq'
      cases heq'
      rfl

variable {r : Uuid}

theorem subscribersOf_unregister {order : List String}
    (h : c ∈ (m.unregisterConnection connId order).2.subscribersOf r) : c ∈ m.subscribersOf r := by
  cases hfound : m.getUserIdByConn connId order with
  | some userId =>
    rw [(unregisterConnection_of_some hfound).2] at h
    exact (((dropConnection_eq m connId userId).2.2.2 c r).1 h).1
  | none =>
    rw [unregisterConnection_of_none hfound] at h
    exact h

/-- A call subscribes no connection anew but by subscribing it. -/
theorem subscribersOf_call (call : ConnectionCall) (h : c ∈ (m.call call).subscribersOf r) :
    c ∈ m.subscribersOf r ∨ call = .subscribe c r := by
  cases call with
  | subscribe connId roomId =>
    simp only [call] at h
    cases hm : m.subscribeRoom connId roomId with
    | ok result =>
      obtain ⟨-, -, heq⟩ := subscribeRoom_eq hm
      rw [hm] at h
      simp only [heq, subscribersOf, mem_members_adjoin] at h
      rcases h with h | ⟨rfl, rfl⟩
      · exact .inl h
      · exact .inr rfl
    | error e =>
      rw [hm] at h
      exact .inl h
  | unsubscribe connId roomId => exact .inl (mem_members_discard.1 h).1
  | unregister connId order =>
    have hsub : c ∈ (m.unregisterConnection connId order).2.subscribersOf r := h
    exact .inl (subscribersOf_unregister hsub)
  | typing connId roomId isTyping now =>
    obtain ⟨throttles, heq⟩ := canEmitTyping_eq m connId roomId isTyping now
    simp only [call, heq] at h
    exact .inl h
  | _ => exact .inl h

/-! ## A connection closes -/

/-- Whatever the connection was registered as, it is taken off the logins by QR code and off
the throttles. -/
theorem qr_unregister (m : ConnectionManager) (connId : String) (order : List String)
    (qrId : Uuid) :
    (m.unregisterConnection connId order).2.awaitsQr connId qrId = false := by
  have hqr : (m.unregisterConnection connId order).2.qrSubscribers =
      m.qrSubscribers.change fun _ connections =>
        if (connections.remove connId).isEmpty then none else some (connections.remove connId) := by
    cases hfound : m.getUserIdByConn connId order with
    | some userId => rw [(unregisterConnection_of_some hfound).2]
    | none => rw [unregisterConnection_of_none hfound]
  unfold awaitsQr
  rw [hqr, lookup_change]
  cases m.qrSubscribers.lookup qrId with
  | none => rfl
  | some connections =>
    simp only [Option.bind_some]
    split
    · rename_i left hleft
      split at hleft
      · cases hleft
      · cases hleft
        rw [lookup_remove_self]
        rfl
    · rfl

theorem typing_unregister (m : ConnectionManager) (connId : String) (order : List String)
    (roomId : Uuid) :
    (m.unregisterConnection connId order).2.typingThrottles.lookup (connId, roomId) = none := by
  have hthrottles : (m.unregisterConnection connId order).2.typingThrottles =
      m.typingThrottles.filter fun entry => entry.1.1 ≠ connId := by
    cases hfound : m.getUserIdByConn connId order with
    | some userId => rw [(unregisterConnection_of_some hfound).2]
    | none => rw [unregisterConnection_of_none hfound]
  rw [hthrottles, Option.eq_none_iff_forall_ne_some]
  intro throttle hlookup
  have hmem := (Table.mem_filter.1 (lookup_eq_some_iff.1 hlookup)).2
  simp at hmem

/-- A connection that is under one user at most is in no map once it is unregistered. -/
theorem gone_unregister (hlinked : Linked m) (hone : OneUser m) (connId : String)
    (order : List String) : Gone (m.unregisterConnection connId order).2 connId := by
  have hafter := linked_unregister hlinked connId order
  have husers : ∀ userId,
      (m.unregisterConnection connId order).2.registered connId userId = false := by
    intro userId
    cases hfound : m.getUserIdByConn connId order with
    | some userId' =>
      rw [(unregisterConnection_of_some hfound).2, Bool.eq_false_iff]
      intro hreg
      obtain ⟨hbefore, hne⟩ := registered_dropConnection.1 hreg
      exact hne ⟨hone connId userId' userId (registered_of_getUserIdByConn hfound) hbefore, rfl⟩
    | none =>
      rw [unregisterConnection_of_none hfound]
      exact getUserIdByConn_eq_none.1 hfound userId
  have hrooms : (m.unregisterConnection connId order).2.connectionRooms.lookup connId = none := by
    cases hl : (m.unregisterConnection connId order).2.connectionRooms.lookup connId with
    | none => rfl
    | some rooms =>
      obtain ⟨userId, hreg⟩ := hafter.known connId (by rw [hl]; rfl)
      rw [husers userId] at hreg
      cases hreg
  refine ⟨husers, hrooms, fun roomId hmem => ?_, qr_unregister m connId order,
    typing_unregister m connId order⟩
  have hroom := (hafter.inverse connId roomId).2 hmem
  unfold roomsOf members at hroom
  rw [hrooms] at hroom
  cases hroom

/-! ## Rooms that are emptied -/

/-- A join is told to ask the hub if it is the room's first. -/
theorem subscribeRoom_first (h : Linked m) {answer : Bool}
    (hm : m.subscribeRoom connId roomId = .ok (answer, m')) :
    (answer = false → m.subscribersOf roomId ≠ []) ∧ m'.subscribersOf roomId ≠ [] ∧
      ∀ r, r ≠ roomId → m'.subscribersOf r = m.subscribersOf r := by
  obtain ⟨-, hanswer, rfl⟩ := subscribeRoom_eq hm
  refine ⟨fun hfalse hnil => ?_, ?_, fun r hr => ?_⟩
  · have hnot : roomId ∉ m.roomsOf connId := by
      rw [h.inverse, hnil]
      exact List.not_mem_nil
    rw [hanswer.2 ⟨hnil, hnot⟩] at hfalse
    cases hfalse
  · exact List.ne_nil_of_mem (mem_members_adjoin.2 (.inr ⟨rfl, rfl⟩))
  · exact members_adjoin.trans (if_neg hr.symm)

/-- A leave is told to ask the hub if it was the room's last. -/
theorem unsubscribeRoom_last (h : Linked m) (hne : m.subscribersOf roomId ≠ [])
    (hnil : (m.unsubscribeRoom connId roomId).2.subscribersOf roomId = []) :
    (m.unsubscribeRoom connId roomId).1 = some true := by
  have hmem : roomId ∈ m.roomsOf connId := by
    rw [h.inverse]
    obtain ⟨c, hc⟩ := List.exists_mem_of_ne_nil _ hne
    by_contra hnot
    have hkept : c ∈ (m.unsubscribeRoom connId roomId).2.subscribersOf roomId := by
      refine mem_members_discard.2 ⟨hc, ?_⟩
      rintro ⟨-, rfl⟩
      exact hnot hc
    exact List.ne_nil_of_mem hkept hnil
  have hsome : (m.roomSubscribers.lookup roomId).isSome := by
    cases hl : m.roomSubscribers.lookup roomId with
    | none => exact absurd (by rw [subscribersOf, members, hl]; rfl) hne
    | some subscribers => rfl
  show (if roomId ∈ m.connectionRooms.members connId then _ else _) = some true
  rw [if_pos (show roomId ∈ m.connectionRooms.members connId from hmem),
    emptied_iff.2 ⟨hsome, hnil⟩]

theorem subscribersOf_unsubscribeRoom (m : ConnectionManager) (connId : String) (hr : r ≠ roomId) :
    (m.unsubscribeRoom connId roomId).2.subscribersOf r = m.subscribersOf r :=
  members_discard.trans (if_neg hr.symm)

/-- A connection that closes is told the rooms that it was the last of. -/
theorem unregister_last {order : List String} (hne : m.subscribersOf r ≠ [])
    (hnil : (m.unregisterConnection connId order).2.subscribersOf r = []) :
    r ∈ (m.unregisterConnection connId order).1 := by
  cases hfound : m.getUserIdByConn connId order with
  | some userId =>
    rw [(unregisterConnection_of_some hfound).2] at hnil
    rw [(unregisterConnection_of_some hfound).1]
    unfold dropConnection at hnil ⊢
    cases hl : m.connectionRooms.lookup connId with
    | none =>
      rw [hl] at hnil
      exact absurd hnil hne
    | some rooms =>
      rw [hl] at hnil
      exact mem_emptied_foldl_dropSubscriber rooms _ (.inr ⟨hne, hnil⟩)
  | none =>
    rw [unregisterConnection_of_none hfound] at hnil
    exact absurd hnil hne

/-! ## Runs of calls -/

/-- In every state that the calls reach the maps agree and no connection is registered under two
users, and a connection that is unregistered is in none of the maps then. -/
structure Consistent (calls : List ConnectionCall) : Prop where
  states : ∀ before rest, calls = before ++ rest →
    Linked (ConnectionManager.after before) ∧ OneUser (ConnectionManager.after before)
  unregistered : ∀ before connId order rest, calls = before ++ .unregister connId order :: rest →
    Gone (ConnectionManager.after (before ++ [.unregister connId order])) connId

/-- No connection is registered while it is registered under another user. -/
def StaysUser (calls : List ConnectionCall) : Prop :=
  ∀ before connId userId info rest, calls = before ++ .register connId userId info :: rest →
    ∀ userId', (ConnectionManager.after before).registered connId userId' = true → userId' = userId

theorem after_concat (calls : List ConnectionCall) (call : ConnectionCall) :
    ConnectionManager.after (calls ++ [call]) = (ConnectionManager.after calls).call call := by
  rw [ConnectionManager.after, List.foldl_append]
  rfl

/-- The maps agree after any calls. -/
theorem linked_after (calls : List ConnectionCall) : Linked (ConnectionManager.after calls) := by
  induction calls using List.reverseRecOn with
  | nil => exact linked_new
  | append_singleton calls call ih =>
    rw [after_concat]
    exact linked_call ih call

variable {calls : List ConnectionCall}

theorem StaysUser.of_append {rest : List ConnectionCall} (h : StaysUser (calls ++ rest)) :
    StaysUser calls := by
  intro before connId userId info rest' heq
  refine h before connId userId info (rest' ++ rest) ?_
  rw [heq, List.append_assoc, List.cons_append]

/-- While no connection changes its user, each is registered under one. -/
theorem oneUser_after (h : StaysUser calls) : OneUser (ConnectionManager.after calls) := by
  induction calls using List.reverseRecOn with
  | nil => exact oneUser_new
  | append_singleton calls call ih =>
    rw [after_concat]
    -- A user that the call registers a connection under is the one that it has.
    refine oneUser_call (ih h.of_append) fun connId userId info heq => ?_
    exact h calls connId userId info [] (by rw [heq])

/-- **The maps are consistent just where no connection changes its user.** Whatever the calls, the
rooms and the subscribers mirror each other; that a connection has one user at most, and that it is
gone once it is unregistered, is so as long as none is registered under one user and then, still
registered, under another. -/
theorem registry_consistent (calls : List ConnectionCall) : Consistent calls ↔ StaysUser calls := by
  constructor
  · rintro ⟨hstates, -⟩ before connId userId info rest heq userId' hreg
    have hone := (hstates (before ++ [.register connId userId info]) rest
      (by rw [heq, List.append_assoc]; rfl)).2
    rw [after_concat] at hone
    refine hone connId userId' userId ?_ ?_
    · show (registerConnection _ connId userId info).registered connId userId' =
        true
      rw [registered_registerConnection, hreg, ite_self]
    · show (registerConnection _ connId userId info).registered connId userId =
        true
      rw [registered_registerConnection, if_pos ⟨rfl, rfl⟩]
  · intro h
    refine ⟨fun before rest heq => ?_, fun before connId order rest heq => ?_⟩
    · subst heq
      exact ⟨linked_after before, oneUser_after h.of_append⟩
    · subst heq
      rw [after_concat]
      exact gone_unregister (linked_after before) (oneUser_after h.of_append) connId order

/-- A connection authenticates as one user and then as another, and closes: it is registered under
both, and under the second still once it is closed. -/
theorem left_registered :
    ¬ Consistent [.register "c" "u" ⟨"u", none, 0, 0, .json⟩,
      .register "c" "v" ⟨"v", none, 0, 0, .json⟩, .unregister "c" []] := by
  intro h
  have hgone := (h.unregistered [.register "c" "u" ⟨"u", none, 0, 0, .json⟩,
    .register "c" "v" ⟨"v", none, 0, 0, .json⟩] "c" [] [] rfl).users "v"
  revert hgone
  decide

end Registry

end RedcodeIm
