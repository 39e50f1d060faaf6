import RedcodeIm.Desktop.WebSocketClient
import RedcodeIm.Lib.Machine

/-!
# Connections and their clients

The tasks of a connection go on without the client, and a client does not notice that its connection
has ended.  So the connections are in order as long as no client is let go of before its connection
is over, and none that takes itself to be authenticated is connected again after that.

* `World.Orderly`, `LifecycleKept` — what is expected of the connections of an account.
* `Connection.Sound`, `Connection.Served`, `World.Ok` — what holds of every connection, of one that
  a client holds, and of all of them.
* `lifecycle_kept` — the connections are in order in every run that the condition admits.
* `emitted_after_disconnect` — and not in every run.
-/

namespace RedcodeIm.Desktop

open Dict Connection List

variable {Payload : Type}

/-! ## What is expected -/

/-- Each account has one open connection at most, a client that is let go of leaves none open, and
on the connection of the client everything has been asked for that was joined and not left. -/
structure World.Orderly (w : World Payload) : Prop where
  one : ∀ (j k : ℕ) (c d : Connection Payload), w.connections[j]? = some c →
    w.connections[k]? = some d → c.isOpen = true → d.isOpen = true → c.userId = d.userId → j = k
  closed : ∀ (k : ℕ) (c : Connection Payload), w.letGo k = true → w.connections[k]? = some c →
    c.isOpen = false
  joined : ∀ userId c, w.connectionOf userId = some c → c.state.status = .authenticated →
    c.lost = false → (∀ rooms event, c.reader ≠ .joining rooms event) →
    ∀ roomId, (userId, roomId) ∈ w.joined → c.asked roomId = true

open World

/-- What was emitted for a connection. -/
def World.emittedFor (w : World Payload) (k : ℕ) : List (ℕ × UserEventWrapper Payload) :=
  w.emitted.filter fun p => p.1 = k

/-- In every run the connections are in order, nothing is emitted for a connection any more whose
client was let go of, and a client whose connection is gone is connected anew. -/
def LifecycleKept (Payload : Type) (G : World Payload → WsAct Payload → Prop) : Prop :=
  ∀ w, Machine.Reach act G .empty w → w.Orderly ∧
    (∀ w' k, Machine.Reach act G w w' → w.letGo k = true → w'.emittedFor k = w.emittedFor k) ∧
    ∀ params wsUrl w', G w (.connect params wsUrl .accepted) →
      w.act (.connect params wsUrl .accepted) = some w' →
      (∀ c, w.connectionOf params.userId = some c → c.gone = true) →
      w'.connectionOf params.userId = some (.opened wsUrl params.token params.userId) ∧
        w'.connections.length = w.connections.length + 1

/-- A client is let go of only when its connection is over; `ws_connect` finds none that takes
itself to be authenticated and whose connection is gone, and opens a connection only for an account
that has joined no room; and a room is joined that the client holds to be joined already only if
that was the last it has asked for. -/
def Admitted (w : World Payload) : WsAct Payload → Prop
  | .connect params _ dial =>
    if w.authenticated params.userId then
      ∀ c, w.connectionOf params.userId = some c → c.gone = false
    else
      (∀ c, w.connectionOf params.userId = some c → c.finished = true) ∧
        (dial = .accepted → ∀ roomId, (params.userId, roomId) ∉ w.joined)
  | .disconnect userId =>
    ∀ uid c, userId.or w.currentUserId = some uid → w.connectionOf uid = some c → c.finished = true
  | .disconnectAll => ∀ uid c, w.connectionOf uid = some c → c.finished = true
  | .joinRoom roomId userId =>
    ∀ uid c, userId.or w.currentUserId = some uid → w.connectionOf uid = some c →
      roomId ∈ c.state.subscribedRooms → c.asked roomId = true
  | _ => True

/-! ## A connection -/

namespace Connection

theorem askedIn_append (roomId : String) (l m : List ClientEvent) :
    askedIn roomId (l ++ m) = m.foldl (askedStep roomId) (askedIn roomId l) := foldl_append

theorem foldl_joins (roomId : String) (rooms : List String) (asked : Bool) :
    (rooms.map ClientEvent.join).foldl (askedStep roomId) asked =
      (decide (roomId ∈ rooms) || asked) := by
  induction rooms generalizing asked with
  | nil => simp
  | cons r rooms ih =>
    rw [map_cons, foldl_cons, ih]
    by_cases hr : r = roomId
    · simp [askedStep, hr]
    · simp [askedStep, hr, Ne.symm hr]

variable {roomId : String} {events : List ClientEvent}

theorem mem_of_foldl {asked : Bool} (h : events.foldl (askedStep roomId) asked = true) :
    asked = true ∨ .join roomId ∈ events := by
  induction events generalizing asked with
  | nil => exact .inl h
  | cons event events ih =>
    rcases ih h with hstep | hmem
    · cases event with
      | join r =>
        by_cases hr : r = roomId
        · exact .inr (hr ▸ mem_cons_self)
        · exact .inl (by simpa [askedStep, hr] using hstep)
      | leave r =>
        have hboth : r ≠ roomId ∧ asked = true := by simpa [askedStep] using hstep
        exact .inl hboth.2
      | auth | ping => exact .inl hstep
    · exact .inr (mem_cons_of_mem _ hmem)

theorem mem_of_askedIn (h : askedIn roomId events = true) : .join roomId ∈ events :=
  (mem_of_foldl h).resolve_left Bool.false_ne_true

/-- What the tasks keep of every connection: it is written to until it is lost, and as long as it is
written to it is pinged, so that its channel is never dropped. -/
structure Sound (c : Connection Payload) : Prop where
  writing : c.lost = false → c.writing = true
  pinging : c.writing = true → c.pinging = true

/-- What holds of the connection of a client, whose account has joined rooms: before it is
authenticated they are pending, and nothing is asked for; after that they have been asked for, or
are about to be. -/
structure Served (c : Connection Payload) (joined : String → Prop) : Prop where
  quiet : c.state.status ≠ .authenticated → ∀ roomId, .join roomId ∉ c.sent ++ c.queue
  still : c.state.status ≠ .authenticated → ∀ rooms event, c.reader ≠ .joining rooms event
  pending : c.state.status ≠ .authenticated → ∀ roomId, joined roomId →
    roomId ∈ c.state.pendingRooms
  asked : c.state.status = .authenticated → c.writing = true → ∀ roomId, joined roomId →
    c.asked roomId = true ∨ ∃ rooms event, c.reader = .joining rooms event ∧ roomId ∈ rooms

variable {c : Connection Payload} {held : Bool} {t : TaskAct Payload}
  {out : Connection Payload × List (TauriEventPayload Payload)} {joined : String → Prop}

theorem Sound.send (h : c.Sound) (events : List ClientEvent) : (c.send events).Sound := by
  unfold Connection.send
  split
  · exact ⟨h.writing, h.pinging⟩
  · exact h

theorem Sound.receive (h : c.Sound) (event : TauriEventPayload Payload) :
    (c.receive event).Sound := by
  cases event <;> exact ⟨h.writing, h.pinging⟩

/-- What a task does to a connection, one case for each thing that it does. -/
theorem task_cases {motive : Connection Payload × List (TauriEventPayload Payload) → Prop}
    (hlose : motive ({ c with lost := true }, []))
    (hreceive : ∀ event, c.reader = .waiting → c.possible event = true →
      motive (c.receive event, []))
    (hnothing : motive (c, []))
    (hjoin : ∀ rooms event, c.reader = .joining rooms event →
      motive ({ c.send (rooms.map .join) with reader := .emitting event }, []))
    (hemit : ∀ event, c.reader = .emitting event → motive ({ c with reader := .waiting }, [event]))
    (hend : c.reader = .waiting → motive ({ c with reader := .ended }, []))
    (hwrite : ∀ event queue, c.queue = event :: queue →
      motive ({ c with queue, sent := c.sent ++ [event] }, []))
    (hfail : c.lost = true → motive ({ c with writing := false, queue := [] }, []))
    (hhangUp : c.writing = true → c.pinging = false → motive ({ c with writing := false }, []))
    (hping : motive (c.send [.ping], []))
    (hstop : c.writing = false → motive ({ c with pinging := false }, []))
    (h : c.task held t = some out) : motive out := by
  cases t with
  | lose =>
    cases h
    exact hlose
  | receive event =>
    simp only [task] at h
    split at h
    · rename_i event hreader
      split at h
      · rename_i hpossible
        cases h
        exact hreceive event hreader hpossible
      · cases h
    · cases h
      exact hnothing
    · cases h
  | proceed =>
    simp only [task] at h
    split at h
    · rename_i rooms event hreader
      cases h
      exact hjoin rooms event hreader
    · rename_i event hreader
      cases h
      exact hemit event hreader
    · cases h
  | readerEnds =>
    simp only [task] at h
    split at h
    · rename_i hreader
      cases h
      exact hend hreader
    · cases h
  | write =>
    simp only [task] at h
    split at h
    · rename_i event queue hqueue
      split at h
      · cases h
        exact hwrite event queue hqueue
      · cases h
    · cases h
  | writeFails =>
    simp only [task] at h
    split at h
    · rename_i hcond
      simp only [Bool.and_eq_true] at hcond
      cases h
      exact hfail hcond.1.2
    · cases h
  | hangUp =>
    simp only [task] at h
    split at h
    · rename_i hcond
      simp only [Bool.and_eq_true, Bool.not_eq_true'] at hcond
      cases h
      exact hhangUp hcond.1.1.1.1 hcond.2
    · cases h
  | ping =>
    simp only [task] at h
    split at h
    · cases h
      split
      · exact hping
      · rename_i hwriting
        exact hstop (Bool.eq_false_iff.2 hwriting)
    · cases h

theorem Sound.task (h : c.Sound) (ht : c.task held t = some out) : out.1.Sound := by
  refine task_cases (motive := fun out => out.1.Sound) ?_ ?_ h ?_ ?_ ?_ ?_ ?_ ?_ ?_ ?_ ht
  · exact ⟨fun hlost => (by cases hlost), h.pinging⟩
  · exact fun event _ _ => h.receive event
  · intro rooms event _
    exact ⟨(h.send _).writing, (h.send _).pinging⟩
  · exact fun event _ => ⟨h.writing, h.pinging⟩
  · exact fun _ => ⟨h.writing, h.pinging⟩
  · exact fun event queue _ => ⟨h.writing, h.pinging⟩
  · intro hlost
    exact ⟨fun hfalse => absurd (hlost.symm.trans hfalse) (by decide),
      fun hfalse => absurd hfalse Bool.false_ne_true⟩
  · intro hwriting hpinging
    exact absurd ((h.pinging hwriting).symm.trans hpinging) (by decide)
  · exact h.send _
  · intro hwriting
    exact ⟨h.writing, fun htrue => absurd (htrue.symm.trans hwriting) (by decide)⟩

theorem finished_iff : c.finished = true ↔ c.lost = true ∧ c.reader = .ended := by
  unfold finished
  cases c.reader <;> simp [ReadTask.isOver]

/-- A connection that is over stays so, and nothing is emitted for it. -/
theorem finished_task (h : c.finished = true) (ht : c.task held t = some out) :
    out.1.finished = true ∧ out.2 = [] := by
  obtain ⟨hlost, hreader⟩ := finished_iff.1 h
  refine task_cases (motive := fun out => out.1.finished = true ∧ out.2 = []) ?_ ?_ ⟨h, rfl⟩ ?_ ?_
    ?_ ?_ ?_ ?_ ?_ ?_ ht
  · exact ⟨finished_iff.2 ⟨rfl, hreader⟩, rfl⟩
  · intro event hwaiting
    cases hwaiting.symm.trans hreader
  · intro rooms event hjoining
    cases hjoining.symm.trans hreader
  · intro event hemitting
    cases hemitting.symm.trans hreader
  · intro hwaiting
    cases hwaiting.symm.trans hreader
  · exact fun event queue _ => ⟨finished_iff.2 ⟨hlost, hreader⟩, rfl⟩
  · exact fun _ => ⟨finished_iff.2 ⟨hlost, hreader⟩, rfl⟩
  · exact fun _ _ => ⟨finished_iff.2 ⟨hlost, hreader⟩, rfl⟩
  · refine ⟨?_, rfl⟩
    unfold send
    split
    · exact finished_iff.2 ⟨hlost, hreader⟩
    · exact h
  · exact fun _ => ⟨finished_iff.2 ⟨hlost, hreader⟩, rfl⟩

theorem asked_append {queue : List ClientEvent} (roomId : String) (events : List ClientEvent)
    (h : c.queue = queue ++ events) : c.asked roomId =
      events.foldl (askedStep roomId) (askedIn roomId (c.sent ++ queue)) := by
  unfold asked
  rw [h, ← append_assoc, askedIn_append]

theorem queue_send (hwriting : c.writing = true) (events : List ClientEvent) :
    (c.send events).queue = c.queue ++ events := by
  rw [send, if_pos hwriting]

@[simp] theorem sent_send (events : List ClientEvent) : (c.send events).sent = c.sent := by
  unfold send
  split <;> rfl

@[simp] theorem state_send (events : List ClientEvent) : (c.send events).state = c.state := by
  unfold send
  split <;> rfl

@[simp] theorem writing_send (events : List ClientEvent) : (c.send events).writing = c.writing := by
  unfold send
  split <;> rfl

@[simp] theorem reader_send (events : List ClientEvent) : (c.send events).reader = c.reader := by
  unfold send
  split <;> rfl

theorem mem_queue_send {event : ClientEvent} (h : event ∈ (c.send events).queue) :
    event ∈ c.queue ∨ event ∈ events := by
  unfold send at h
  split at h
  · exact mem_append.1 h
  · exact .inl h

theorem asked_send (hwriting : c.writing = true) (roomId : String) (events : List ClientEvent) :
    (c.send events).asked roomId = events.foldl (askedStep roomId) (c.asked roomId) := by
  rw [asked_append roomId events (queue_send hwriting events), sent_send]
  rfl

/-- A ping changes nothing of what was asked for. -/
theorem Served.ping (h : c.Served joined) : (c.send [.ping]).Served joined where
  quiet hstate roomId hmem := by
    rw [state_send] at hstate
    rw [sent_send] at hmem
    rcases mem_append.1 hmem with hsent | hqueue
    · exact h.quiet hstate roomId (mem_append_left _ hsent)
    · rcases mem_queue_send hqueue with hqueue | hping
      · exact h.quiet hstate roomId (mem_append_right _ hqueue)
      · cases mem_singleton.1 hping
  still hstate := by
    rw [state_send] at hstate
    rw [reader_send]
    exact h.still hstate
  pending hstate := by
    rw [state_send] at hstate ⊢
    exact h.pending hstate
  asked hstate hwriting roomId hroom := by
    rw [state_send] at hstate
    rw [writing_send] at hwriting
    rw [asked_send hwriting, reader_send]
    exact h.asked hstate hwriting roomId hroom

variable {event : TauriEventPayload Payload}

/-- A frame is handled. -/
theorem Served.receive (h : c.Served joined) (hwaiting : c.reader = .waiting)
    (hpossible : c.possible event = true) :
    (c.receive event).Served joined := by
  have hasked : c.state.status = .authenticated → c.writing = true → ∀ roomId, joined roomId →
      c.asked roomId = true := by
    intro hstate hwriting roomId hroom
    rcases h.asked hstate hwriting roomId hroom with hasked | ⟨rooms, event, hreader, -⟩
    · exact hasked
    · cases hwaiting.symm.trans hreader
  cases event with
  | authed userId connId =>
    refine ⟨fun hstate => absurd rfl hstate, fun hstate => absurd rfl hstate,
      fun hstate => absurd rfl hstate, fun _ hwriting roomId hroom => ?_⟩
    by_cases hstate : c.state.status = .authenticated
    · exact .inl (hasked hstate hwriting roomId hroom)
    · exact .inr ⟨_, _, rfl, h.pending hstate roomId hroom⟩
  | joined roomId =>
    -- it has been asked for, so that the connection is authenticated
    have hstate : c.state.status = .authenticated := by
      by_contra hstate
      exact h.quiet hstate roomId (mem_append_left _ (contains_iff_mem.1 hpossible))
    exact ⟨fun hne => absurd hstate hne, fun hne => absurd hstate hne,
      fun hne => absurd hstate hne, fun _ hwriting r hr => .inl (hasked hstate hwriting r hr)⟩
  | _ =>
    exact ⟨h.quiet, fun _ rooms event hreader => (by cases hreader), h.pending,
      fun hstate hwriting r hr => .inl (hasked hstate hwriting r hr)⟩

/-- What was pending is asked for. -/
theorem Served.joining (h : c.Served joined) {rooms : List String}
    (hreader : c.reader = .joining rooms event) :
    Served { c.send (rooms.map .join) with reader := .emitting event } joined := by
  have hstate : c.state.status = .authenticated := by
    by_contra hstate
    exact h.still hstate rooms event hreader
  have hsame : (c.send (rooms.map .join)).state.status = .authenticated := by
    rw [state_send]
    exact hstate
  refine ⟨fun hne => absurd hsame hne, fun hne => absurd hsame hne, fun hne => absurd hsame hne,
    fun _ hwriting roomId hroom => .inl ?_⟩
  have hw : c.writing = true := (writing_send _).symm.trans hwriting
  refine (asked_send hw roomId (rooms.map .join)).trans ?_
  rw [foldl_joins]
  rcases h.asked hstate hw roomId hroom with hasked | ⟨rooms', event', hreader', hmem⟩
  · rw [hasked, Bool.or_true]
  · obtain ⟨rfl, -⟩ := ReadTask.joining.inj (hreader.symm.trans hreader')
    rw [decide_eq_true hmem, Bool.true_or]

theorem Served.task (h : c.Served joined) (ht : c.task held t = some out) :
    out.1.Served joined := by
  refine task_cases (motive := fun out => out.1.Served joined) ?_ ?_ h ?_ ?_ ?_ ?_ ?_ ?_ ?_ ?_ ht
  · exact ⟨h.quiet, h.still, h.pending, h.asked⟩
  · exact fun event hwaiting hpossible => h.receive hwaiting hpossible
  · exact fun rooms event hreader => h.joining hreader
  · intro event hreader
    refine ⟨h.quiet, fun _ rooms event' hjoining => (by cases hjoining), h.pending,
      fun hstate hwriting roomId hroom => ?_⟩
    rcases h.asked hstate hwriting roomId hroom with hasked | ⟨rooms, event', hjoining, -⟩
    · exact .inl hasked
    · cases hreader.symm.trans hjoining
  · intro hreader
    refine ⟨h.quiet, fun _ rooms event' hjoining => (by cases hjoining), h.pending,
      fun hstate hwriting roomId hroom => ?_⟩
    rcases h.asked hstate hwriting roomId hroom with hasked | ⟨rooms, event', hjoining, -⟩
    · exact .inl hasked
    · cases hreader.symm.trans hjoining
  · intro event queue hqueue
    have hall : (c.sent ++ [event]) ++ queue = c.sent ++ c.queue := by
      rw [hqueue, append_assoc, singleton_append]
    refine ⟨fun hstate roomId => ?_, h.still, h.pending, fun hstate hwriting roomId hroom => ?_⟩
    · show _ ∉ (c.sent ++ [event]) ++ queue
      rw [hall]
      exact h.quiet hstate roomId
    · show askedIn roomId ((c.sent ++ [event]) ++ queue) = true ∨ _
      rw [hall]
      exact h.asked hstate hwriting roomId hroom
  · intro hlost
    refine ⟨fun hstate roomId hmem => ?_, h.still, h.pending,
      fun hstate hwriting => (by cases hwriting)⟩
    exact h.quiet hstate roomId (mem_append_left _ (by simpa using hmem))
  · exact fun _ _ => ⟨h.quiet, h.still, h.pending, fun hstate hwriting => (by cases hwriting)⟩
  · exact h.ping
  · exact fun _ => ⟨h.quiet, h.still, h.pending, h.asked⟩

theorem Sound.joinRoom (h : c.Sound) (roomId : String) : (c.joinRoom roomId).1.Sound := by
  unfold Connection.joinRoom
  split
  · exact h
  · dsimp only
    split
    · refine Sound.send ?_ _
      exact ⟨h.writing, h.pinging⟩
    · exact ⟨h.writing, h.pinging⟩

theorem Sound.leaveRoom (h : c.Sound) (roomId : String) : (c.leaveRoom roomId).1.Sound := by
  unfold Connection.leaveRoom
  dsimp only
  split
  · refine Sound.send ?_ _
    exact ⟨h.writing, h.pinging⟩
  · exact ⟨h.writing, h.pinging⟩

/-- A room is joined. -/
theorem Served.joinRoom (h : c.Served joined)
    (hlast : roomId ∈ c.state.subscribedRooms → c.asked roomId = true) :
    (c.joinRoom roomId).1.Served fun r =>
      ((c.joinRoom roomId).2 = true ∧ r = roomId) ∨ joined r := by
  unfold Connection.joinRoom
  split
  · rename_i hsubscribed
    have hasked := hlast hsubscribed
    refine ⟨h.quiet, h.still, fun hstate r hr => ?_, fun hstate hwriting r hr => ?_⟩
    · rcases hr with ⟨-, rfl⟩ | hr
      · exact absurd (mem_of_askedIn hasked) (h.quiet hstate r)
      · exact h.pending hstate r hr
    · rcases hr with ⟨-, rfl⟩ | hr
      · exact .inl hasked
      · exact h.asked hstate hwriting r hr
  · dsimp only
    split
    · rename_i hstate
      have hsame (pendingRooms : List String) : ({ c with
          state := { c.state with pendingRooms } }.send [.join roomId]).state.status =
            .authenticated := by
        rw [state_send]
        exact hstate
      refine ⟨fun hne => absurd (hsame _) hne, fun hne => absurd (hsame _) hne,
        fun hne => absurd (hsame _) hne, fun _ hwriting r hr => ?_⟩
      rw [writing_send] at hwriting
      rw [asked_send hwriting, reader_send]
      rcases hr with ⟨-, rfl⟩ | hr
      · exact .inl (by simp [askedStep])
      · rcases h.asked hstate hwriting r hr with hasked | hjoining
        · refine .inl ?_
          show (decide (roomId = r) || c.asked r) = true
          rw [hasked, Bool.or_true]
        · exact .inr hjoining
    · rename_i hstate
      refine ⟨h.quiet, h.still, fun hne r hr => ?_, fun hsame => absurd hsame hstate⟩
      show r ∈ if _ then _ else _
      split
      · rename_i hpending
        rcases hr with ⟨-, rfl⟩ | hr
        · exact hpending
        · exact h.pending hne r hr
      · rcases hr with ⟨-, rfl⟩ | hr
        · exact mem_append_right _ (mem_singleton_self _)
        · exact mem_append_left _ (h.pending hne r hr)

/-- A room is left. -/
theorem Served.leaveRoom (h : c.Served joined) (roomId : String) :
    (c.leaveRoom roomId).1.Served fun r =>
      joined r ∧ ((c.leaveRoom roomId).2 = true → r ≠ roomId) := by
  unfold Connection.leaveRoom
  dsimp only
  split
  · rename_i hstate
    have hsame (subscribedRooms pendingRooms : List String) : ({ c with
        state := { c.state with subscribedRooms, pendingRooms } }.send
          [.leave roomId]).state.status = .authenticated := by
      rw [state_send]
      exact hstate
    refine ⟨fun hne => absurd (hsame _ _) hne, fun hne => absurd (hsame _ _) hne,
      fun hne => absurd (hsame _ _) hne, fun _ hwriting r hr => ?_⟩
    rw [writing_send] at hwriting
    rw [asked_send hwriting, reader_send]
    rcases h.asked hstate hwriting r hr.1 with hasked | hjoining
    · refine .inl ?_
      show (decide (roomId ≠ r) && c.asked r) = true
      rw [hasked, Bool.and_true, decide_eq_true_iff]
      exact (hr.2 hwriting).symm
    · exact .inr hjoining
  · rename_i hstate
    refine ⟨h.quiet, h.still, fun hne r hr => ?_, fun hsame => absurd hsame hstate⟩
    exact mem_filter.2 ⟨h.pending hne r hr.1, decide_eq_true (hr.2 rfl)⟩

theorem sound_opened (wsUrl token userId : String) :
    (opened wsUrl token userId : Connection Payload).Sound := ⟨fun _ => rfl, fun _ => rfl⟩

/-- A new connection, while no room is joined. -/
theorem served_opened (wsUrl token userId : String) (h : ∀ roomId, ¬joined roomId) :
    (opened wsUrl token userId : Connection Payload).Served joined where
  quiet _ roomId hmem := by simp [opened] at hmem
  still _ rooms event hreader := by cases hreader
  pending _ roomId hroom := absurd hroom (h roomId)
  asked hstate := by cases hstate

theorem Served.mono {joined' : String → Prop} (h : c.Served joined)
    (hle : ∀ roomId, joined' roomId → joined roomId) : c.Served joined' :=
  ⟨h.quiet, h.still, fun hstate r hr => h.pending hstate r (hle r hr),
    fun hstate hwriting r hr => h.asked hstate hwriting r (hle r hr)⟩

theorem userId_send (events : List ClientEvent) : (c.send events).userId = c.userId := by
  unfold send
  split <;> rfl

theorem userId_task (ht : c.task held t = some out) : out.1.userId = c.userId := by
  refine task_cases (motive := fun out => out.1.userId = c.userId) rfl ?_ rfl ?_ ?_ ?_ ?_ ?_ ?_ ?_
    ?_ ht
  · intro event _ _
    cases event <;> rfl
  · exact fun rooms event _ => userId_send _
  · exact fun _ _ => rfl
  · exact fun _ => rfl
  · exact fun _ _ _ => rfl
  · exact fun _ => rfl
  · exact fun _ _ => rfl
  · exact userId_send _
  · exact fun _ => rfl

end Connection

/-! ## All of them -/

namespace World

variable {w w' : World Payload} {k : ℕ} {userId : String}

theorem letGo_iff : w.letGo k = true ↔ k < w.connections.length ∧
    ∀ userId client, w.clients.lookup userId = some client → client.connection ≠ k := by
  unfold letGo
  rw [Bool.and_eq_true, decide_eq_true_iff, all_eq_true]
  refine and_congr_right fun _ => ⟨fun h userId client hclient => ?_, fun h p hp => ?_⟩
  · exact of_decide_eq_true (h _ (lookup_eq_some_iff.1 hclient))
  · exact decide_eq_true (h p.1 p.2 (lookup_eq_some_iff.2 hp))

/-- Every client has a connection of its own, and is served on it; all others are over. -/
structure Ok (w : World Payload) : Prop where
  sound : ∀ (k : ℕ) (c : Connection Payload), w.connections[k]? = some c → c.Sound
  held : ∀ userId client, w.clients.lookup userId = some client → ∃ c,
    w.connections[client.connection]? = some c ∧ c.userId = userId ∧
      c.Served fun roomId => (userId, roomId) ∈ w.joined
  letGo : ∀ (k : ℕ) (c : Connection Payload), w.letGo k = true → w.connections[k]? = some c →
    c.finished = true

theorem ok_empty : (empty : World Payload).Ok where
  sound k c hc := by cases hc
  held userId client hclient := by cases hclient
  letGo k c hk hc := by cases hc

variable {c : Connection Payload}

theorem connectionOf_eq_some : w.connectionOf userId = some c ↔
    ∃ client, w.clients.lookup userId = some client ∧
      w.connections[client.connection]? = some c := Option.bind_eq_some_iff

variable {client : WebSocketClient}

/-- Two clients have two connections. -/
theorem Ok.eq_of_connection (h : w.Ok) {userId userId' : String} {client' : WebSocketClient}
    (hclient : w.clients.lookup userId = some client)
    (hclient' : w.clients.lookup userId' = some client')
    (heq : client.connection = client'.connection) : userId = userId' := by
  obtain ⟨c, hc, huser, -⟩ := h.held userId client hclient
  obtain ⟨c', hc', huser', -⟩ := h.held userId' client' hclient'
  rw [heq] at hc
  cases hc.symm.trans hc'
  exact huser.symm.trans huser'

theorem getElem?_of_set {α : Type} {l : List α} {i j : ℕ} {a b : α}
    (h : (l.set i a)[j]? = some b) : b = a ∧ i = j ∨ i ≠ j ∧ l[j]? = some b := by
  by_cases hij : i = j
  · subst hij
    obtain ⟨hlt, rfl⟩ := List.getElem?_eq_some_iff.1 h
    exact .inl ⟨getElem_set_self hlt, rfl⟩
  · exact .inr ⟨hij, (getElem?_set_ne hij).symm.trans h⟩

/-- A command changes the connection of a client, and what its account has joined. -/
theorem Ok.set (h : w.Ok) {d : Connection Payload} {joined : List (String × String)}
    (hclient : w.clients.lookup userId = some client)
    (hc : w.connections[client.connection]? = some c) (hsound : d.Sound)
    (huser : d.userId = c.userId) (hserved : d.Served fun roomId => (userId, roomId) ∈ joined)
    (hothers : ∀ userId' roomId, userId' ≠ userId → (userId', roomId) ∈ joined →
      (userId', roomId) ∈ w.joined) :
    Ok { w with connections := w.connections.set client.connection d, joined } where
  sound k e he := by
    rcases getElem?_of_set he with ⟨rfl, -⟩ | ⟨-, he⟩
    · exact hsound
    · exact h.sound k e he
  held userId' client' hclient' := by
    obtain ⟨e, he, huser', hserved'⟩ := h.held userId' client' hclient'
    by_cases hsame : client.connection = client'.connection
    · obtain rfl := h.eq_of_connection hclient hclient' hsame
      rw [← hsame, hc] at he
      cases he
      refine ⟨d, ?_, huser.trans huser', hserved⟩
      rw [← hsame]
      exact List.getElem?_set_self (List.getElem?_eq_some_iff.1 hc).1
    · refine ⟨e, (getElem?_set_ne hsame).trans he, huser', hserved'.mono fun roomId => ?_⟩
      refine hothers userId' roomId fun heq => hsame ?_
      subst heq
      rw [Option.some.inj (hclient.symm.trans hclient')]
  letGo k e hk he := by
    have hold : w.letGo k = true := by
      rw [letGo_iff] at hk ⊢
      rwa [length_set] at hk
    have hne : client.connection ≠ k := (letGo_iff.1 hold).2 userId client hclient
    exact h.letGo k e hold ((getElem?_set_ne hne).symm.trans he)

/-- A task of a connection goes on. -/
theorem Ok.runTask (h : w.Ok) {t : TaskAct Payload} (hrun : w.runTask k t = some w') : w'.Ok := by
  obtain ⟨c, hc, hout⟩ := Option.bind_eq_some_iff.1 hrun
  obtain ⟨⟨d, events⟩, ht, rfl⟩ := Option.map_eq_some_iff.1 hout
  have hletGo (j : ℕ) : World.letGo { w with
      connections := w.connections.set k d
      emitted := w.emitted ++ events.map fun event => (k, ⟨c.userId, event⟩) } j = w.letGo j := by
    unfold World.letGo
    rw [length_set]
  refine ⟨fun j e he => ?_, fun userId client hclient => ?_, fun j e hj he => ?_⟩
  · rcases getElem?_of_set he with ⟨rfl, -⟩ | ⟨-, he⟩
    · exact (h.sound k c hc).task ht
    · exact h.sound j e he
  · obtain ⟨e, he, huser, hserved⟩ := h.held userId client hclient
    by_cases hsame : k = client.connection
    · subst hsame
      cases hc.symm.trans he
      exact ⟨d, List.getElem?_set_self (List.getElem?_eq_some_iff.1 hc).1,
        (userId_task ht).trans huser, hserved.task ht⟩
    · exact ⟨e, (getElem?_set_ne hsame).trans he, huser, hserved⟩
  · rw [hletGo] at hj
    rcases getElem?_of_set he with ⟨rfl, rfl⟩ | ⟨-, he⟩
    · exact (finished_task (h.letGo k c hj hc) ht).1
    · exact h.letGo j e hj he

/-- A client is let go of, whose connection is over. -/
theorem Ok.remove (h : w.Ok) (hover : ∀ c, w.connectionOf userId = some c → c.finished = true) :
    Ok { w with clients := w.clients.remove userId } where
  sound := h.sound
  held userId' client hclient := by
    rw [lookup_remove] at hclient
    split at hclient
    · cases hclient
    · exact h.held userId' client hclient
  letGo k c hk hc := by
    by_cases hheld : ∃ client, w.clients.lookup userId = some client ∧ client.connection = k
    · obtain ⟨client, hclient, rfl⟩ := hheld
      exact hover c (connectionOf_eq_some.2 ⟨client, hclient, hc⟩)
    · refine h.letGo k c (letGo_iff.2 ⟨(letGo_iff.1 hk).1, fun userId' client hclient heq => ?_⟩) hc
      by_cases hsame : userId = userId'
      · subst hsame
        exact hheld ⟨client, hclient, heq⟩
      · refine (letGo_iff.1 hk).2 userId' client ?_ heq
        exact lookup_remove.trans ((if_neg hsame).trans hclient)

variable {params : WebSocketParams} {wsUrl : String}

/-- A connection is opened, for an account without a client. -/
theorem Ok.startConnection (h : w.Ok) {dial : Dial} (hnone : w.clients.lookup params.userId = none)
    (hjoined : dial = .accepted → ∀ roomId, (params.userId, roomId) ∉ w.joined) :
    (w.startConnection params wsUrl dial).Ok := by
  cases dial with
  | refused => exact h
  | broken => exact h
  | accepted =>
    have hold {j : ℕ} {c : Connection Payload} (hc : w.connections[j]? = some c)
        (d : Connection Payload) : (w.connections ++ [d])[j]? = some c :=
      (List.getElem?_append_left (List.getElem?_eq_some_iff.1 hc).1).trans hc
    have hcases {j : ℕ} {c d : Connection Payload} (hc : (w.connections ++ [d])[j]? = some c) :
        w.connections[j]? = some c ∨ j = w.connections.length ∧ c = d := by
      rcases Nat.lt_or_ge j w.connections.length with hlt | hge
      · exact .inl ((getElem?_append_left hlt).symm.trans hc)
      · rw [getElem?_append_right hge, getElem?_singleton] at hc
        split at hc
        · rename_i hzero
          exact .inr ⟨by omega, (Option.some.inj hc).symm⟩
        · cases hc
    refine ⟨fun j c hc => ?_, fun userId client hclient => ?_, fun j c hj hc => ?_⟩
    · rcases hcases hc with hc | ⟨-, rfl⟩
      · exact h.sound j c hc
      · exact sound_opened ..
    · replace hclient := lookup_set.symm.trans hclient
      split at hclient
      · rename_i hsame
        cases hclient
        refine ⟨_, getElem?_concat_length .., hsame, ?_⟩
        exact served_opened _ _ _ (hsame ▸ hjoined rfl)
      · obtain ⟨c, hc, huser, hserved⟩ := h.held userId client hclient
        exact ⟨c, hold hc _, huser, hserved⟩
    · obtain ⟨-, hheld⟩ := letGo_iff.1 hj
      rcases hcases hc with hc | ⟨rfl, -⟩
      · refine h.letGo j c (letGo_iff.2 ⟨(List.getElem?_eq_some_iff.1 hc).1, ?_⟩) hc
        intro userId client hclient
        refine hheld userId client (lookup_set.trans ((if_neg fun hsame => ?_).trans hclient))
        rw [← hsame, hnone] at hclient
        cases hclient
      · exact absurd rfl (hheld params.userId _ (lookup_set_self ..))

theorem Ok.wsConnect (h : w.Ok) {dial : Dial} (hadmitted : Admitted w (.connect params wsUrl dial))
    : (w.wsConnect params wsUrl dial).Ok := by
  unfold Admitted at hadmitted
  unfold World.wsConnect
  dsimp only at hadmitted
  split
  · exact ⟨h.sound, h.held, h.letGo⟩
  · rename_i hstatus
    rw [if_neg hstatus] at hadmitted
    exact (h.remove hadmitted.1).startConnection (lookup_remove_self ..) hadmitted.2

theorem finished_disconnect (h : c.finished = true) : c.disconnect.finished = true := h

/-- A connection that is let go of is told. -/
theorem Ok.modify (h : w.Ok) (hk : w.letGo k = true) :
    Ok { w with connections := w.connections.modify k disconnect } := by
  have hcases {j : ℕ} {c : Connection Payload}
      (hc : (w.connections.modify k disconnect)[j]? = some c) :
      ∃ d, w.connections[j]? = some d ∧ (c = d ∨ k = j ∧ c = d.disconnect) := by
    rw [getElem?_modify] at hc
    obtain ⟨d, hd, hcd⟩ := Option.map_eq_some_iff.1 hc
    refine ⟨d, hd, ?_⟩
    by_cases hj : k = j
    · rw [if_pos hj] at hcd
      exact .inr ⟨hj, hcd.symm⟩
    · rw [if_neg hj] at hcd
      exact .inl hcd.symm
  refine ⟨fun j c hc => ?_, fun userId client hclient => ?_, fun j c hj hc => ?_⟩
  · obtain ⟨d, hd, rfl | ⟨-, rfl⟩⟩ := hcases hc
    · exact h.sound j c hd
    · exact ⟨(h.sound j d hd).writing, (h.sound j d hd).pinging⟩
  · obtain ⟨c, hc, huser, hserved⟩ := h.held userId client hclient
    refine ⟨c, ?_, huser, hserved⟩
    have hne : client.connection ≠ k := (letGo_iff.1 hk).2 userId client hclient
    exact (getElem?_modify_ne _ _ hne.symm).trans hc
  · have hold : w.letGo j = true := by
      rw [letGo_iff] at hj ⊢
      rwa [length_modify] at hj
    obtain ⟨d, hd, rfl | ⟨-, rfl⟩⟩ := hcases hc
    · exact h.letGo j c hold hd
    · exact finished_disconnect (h.letGo j d hold hd)

theorem Ok.disconnectClient (h : w.Ok)
    (hover : ∀ c, w.connectionOf userId = some c → c.finished = true) :
    (w.disconnectClient userId).Ok := by
  unfold World.disconnectClient
  split
  · rename_i client hclient
    obtain ⟨c, hc, -⟩ := h.held userId client hclient
    have hk : World.letGo { w with clients := w.clients.remove userId } client.connection =
        true := by
      refine letGo_iff.2 ⟨(List.getElem?_eq_some_iff.1 hc).1,
        fun userId' client' hclient' heq => ?_⟩
      replace hclient' := lookup_remove.symm.trans hclient'
      split at hclient'
      · cases hclient'
      · rename_i hne
        exact hne (h.eq_of_connection hclient hclient' heq.symm)
    have hok := (h.remove hover).modify hk
    exact ⟨hok.sound, hok.held, hok.letGo⟩
  · exact h

theorem connectionOf_disconnectClient {userId' : String}
    (hover : ∀ uid c, w.connectionOf uid = some c → c.finished = true)
    (hc : (w.disconnectClient userId).connectionOf userId' = some c) : c.finished = true := by
  unfold disconnectClient at hc
  split at hc
  · obtain ⟨client, hclient, hc⟩ := connectionOf_eq_some.1 hc
    replace hclient := lookup_remove.symm.trans hclient
    split at hclient
    · cases hclient
    · replace hc := (getElem?_modify ..).symm.trans hc
      obtain ⟨d, hd, hcd⟩ := Option.map_eq_some_iff.1 hc
      have hdover := hover userId' d (connectionOf_eq_some.2 ⟨client, hclient, hd⟩)
      split at hcd
      · exact hcd ▸ finished_disconnect hdover
      · exact hcd ▸ hdover
  · exact hover userId' c hc

theorem Ok.foldl_disconnectClient (h : w.Ok)
    (hover : ∀ uid c, w.connectionOf uid = some c → c.finished = true) (uids : List String) :
    (uids.foldl World.disconnectClient w).Ok := by
  induction uids generalizing w with
  | nil => exact h
  | cons uid uids ih =>
    exact ih (h.disconnectClient (hover uid)) fun _ _ hc => connectionOf_disconnectClient hover hc

/-- A command that changes the connection of a client and what its account has joined. -/
theorem Ok.command (h : w.Ok) {uid : Option String}
    {f : Connection Payload → Connection Payload × Bool} {joined : String → List (String × String)}
    (hf : ∀ userId c, uid.or w.currentUserId = some userId → w.connectionOf userId = some c →
      c.Sound → c.Served (fun roomId => (userId, roomId) ∈ w.joined) →
      (f c).1.Sound ∧ (f c).1.userId = c.userId ∧
      ((f c).1.Served fun roomId =>
        (userId, roomId) ∈ if (f c).2 then joined userId else w.joined) ∧
      ∀ userId' roomId, userId' ≠ userId →
        ((userId', roomId) ∈ if (f c).2 then joined userId else w.joined) →
          (userId', roomId) ∈ w.joined) : (w.command uid f joined).Ok := by
  unfold World.command
  split
  · rename_i userId huid
    split
    · rename_i client hclient
      split
      · rename_i c hc
        obtain ⟨d, hd, -, hserved⟩ := h.held userId client hclient
        cases hc.symm.trans hd
        obtain ⟨hsound, huser, hnew, hothers⟩ := hf userId c huid
          (connectionOf_eq_some.2 ⟨client, hclient, hc⟩) (h.sound _ c hc) hserved
        exact h.set hclient hc hsound huser hnew hothers
      · exact h
    · exact h
  · exact h

theorem Ok.wsJoinRoom (h : w.Ok) {roomId : String} {uid : Option String}
    (hadmitted : Admitted w (.joinRoom roomId uid)) : (w.wsJoinRoom roomId uid).Ok := by
  refine h.command fun userId c huid hc hsound hserved => ?_
  have huser : (c.joinRoom roomId).1.userId = c.userId := by
    unfold joinRoom
    split
    · rfl
    · dsimp only
      split
      · exact userId_send _
      · rfl
  refine ⟨hsound.joinRoom roomId, huser,
    (hserved.joinRoom (hadmitted userId c huid hc)).mono fun r hr => ?_, fun userId' r hne hr => ?_⟩
  · split at hr
    · rename_i hok
      rcases mem_cons.1 hr with heq | hmem
      · exact .inl ⟨hok, (Prod.mk.inj heq).2⟩
      · exact .inr hmem
    · exact .inr hr
  · split at hr
    · rcases mem_cons.1 hr with heq | hmem
      · exact absurd (Prod.mk.inj heq).1 hne
      · exact hmem
    · exact hr

theorem Ok.wsLeaveRoom (h : w.Ok) (roomId : String) (uid : Option String) :
    (w.wsLeaveRoom roomId uid).Ok := by
  refine h.command fun userId c _ _ hsound hserved => ?_
  have huser : (c.leaveRoom roomId).1.userId = c.userId := by
    unfold leaveRoom
    dsimp only
    split
    · exact userId_send _
    · rfl
  refine ⟨hsound.leaveRoom roomId, huser, (hserved.leaveRoom roomId).mono fun r hr => ?_,
    fun userId' r _ hr => ?_⟩
  · split at hr
    · obtain ⟨hmem, hne⟩ := mem_filter.1 hr
      exact ⟨hmem, fun _ heq => of_decide_eq_true hne (congrArg (Prod.mk userId) heq)⟩
    · rename_i hok
      exact ⟨hr, fun htrue => absurd htrue hok⟩
  · split at hr
    · exact (mem_filter.1 hr).1
    · exact hr

theorem Ok.act (h : w.Ok) {a : WsAct Payload} (hadmitted : Admitted w a)
    (hact : w.act a = some w') : w'.Ok := by
  cases a with
  | connect params wsUrl dial =>
    cases hact
    exact h.wsConnect hadmitted
  | disconnect uid =>
    cases hact
    unfold wsDisconnect
    split
    · rename_i userId huid
      exact h.disconnectClient fun c hc => hadmitted userId c huid hc
    · exact h
  | disconnectAll =>
    cases hact
    have hok := h.foldl_disconnectClient hadmitted (w.clients.rows.map Prod.fst)
    exact ⟨hok.sound, hok.held, hok.letGo⟩
  | setCurrentUser userId =>
    cases hact
    exact ⟨h.sound, h.held, h.letGo⟩
  | joinRoom roomId uid =>
    cases hact
    exact h.wsJoinRoom hadmitted
  | leaveRoom roomId uid =>
    cases hact
    exact h.wsLeaveRoom roomId uid
  | task k t => exact h.runTask hact

theorem Ok.reach (h : w.Ok) (hreach : Machine.Reach World.act Admitted w w') : w'.Ok :=
  hreach.invariant (fun _ _ _ hok hadmitted hact => hok.act hadmitted hact) h

/-! ## What follows -/

theorem isOpen_of_finished (h : c.finished = true) : c.isOpen = false := by
  unfold isOpen
  rw [(finished_iff.1 h).1]
  rfl

/-- An open connection is that of the client of its account. -/
theorem Ok.held_of_isOpen (h : w.Ok) (hc : w.connections[k]? = some c) (hopen : c.isOpen = true) :
    ∃ client, w.clients.lookup c.userId = some client ∧ client.connection = k := by
  have hheld : w.letGo k ≠ true := by
    intro hk
    rw [isOpen_of_finished (h.letGo k c hk hc)] at hopen
    cases hopen
  rw [Ne, letGo_iff, not_and, not_forall] at hheld
  obtain ⟨userId, hclient⟩ := hheld (List.getElem?_eq_some_iff.1 hc).1
  rw [not_forall] at hclient
  obtain ⟨client, hclient⟩ := hclient
  rw [Classical.not_imp, not_ne_iff] at hclient
  obtain ⟨hlookup, rfl⟩ := hclient
  obtain ⟨d, hd, rfl, -⟩ := h.held userId client hlookup
  cases hc.symm.trans hd
  exact ⟨client, hlookup, rfl⟩

theorem Ok.orderly (h : w.Ok) : w.Orderly where
  one j k c d hc hd hopen hopen' huser := by
    obtain ⟨client, hclient, rfl⟩ := h.held_of_isOpen hc hopen
    obtain ⟨client', hclient', rfl⟩ := h.held_of_isOpen hd hopen'
    rw [huser, hclient'] at hclient
    rw [Option.some.inj hclient]
  closed k c hk hc := isOpen_of_finished (h.letGo k c hk hc)
  joined userId c hc hstate hlost hreader roomId hroom := by
    obtain ⟨client, hclient, hc⟩ := connectionOf_eq_some.1 hc
    obtain ⟨d, hd, -, hserved⟩ := h.held userId client hclient
    cases hc.symm.trans hd
    rcases hserved.asked hstate ((h.sound _ c hc).writing hlost) roomId hroom with
      hasked | ⟨rooms, event, hjoining, -⟩
    · exact hasked
    · exact absurd hjoining (hreader rooms event)

/-- The commands emit nothing for a connection, and hold none again that was let go of. -/
structure Later (w w' : World Payload) : Prop where
  emitted : w'.emitted = w.emitted
  length : w.connections.length ≤ w'.connections.length
  clients : ∀ userId client, w'.clients.lookup userId = some client →
    w.clients.lookup userId = some client ∨ w.connections.length ≤ client.connection

theorem Later.refl (w : World Payload) : w.Later w := ⟨rfl, Nat.le_refl _, fun _ _ h => .inl h⟩

theorem Later.trans {w'' : World Payload} (h : w.Later w') (h' : w'.Later w'') : w.Later w'' where
  emitted := h'.emitted.trans h.emitted
  length := Nat.le_trans h.length h'.length
  clients userId client hclient := by
    rcases h'.clients userId client hclient with hclient | hle
    · exact h.clients userId client hclient
    · exact .inr (Nat.le_trans h.length hle)

theorem later_remove (w : World Payload) (userId : String) :
    w.Later { w with clients := w.clients.remove userId } := by
  refine ⟨rfl, Nat.le_refl _, fun userId' client hclient => .inl ?_⟩
  replace hclient := lookup_remove.symm.trans hclient
  split at hclient
  · cases hclient
  · exact hclient

theorem later_startConnection (w : World Payload) (params : WebSocketParams) (wsUrl : String)
    (dial : Dial) : w.Later (w.startConnection params wsUrl dial) := by
  cases dial with
  | refused | broken => exact .refl w
  | accepted =>
    refine ⟨rfl, ?_, fun userId client hclient => ?_⟩
    · show _ ≤ (w.connections ++ [_]).length
      rw [length_append]
      exact Nat.le_add_right _ _
    · replace hclient := lookup_set.symm.trans hclient
      split at hclient
      · exact .inr (Option.some.inj hclient ▸ Nat.le_refl _)
      · exact .inl hclient

theorem later_disconnectClient (w : World Payload) (userId : String) :
    w.Later (w.disconnectClient userId) := by
  unfold disconnectClient
  split
  · exact ⟨rfl, Nat.le_of_eq (length_modify ..).symm, (later_remove w userId).clients⟩
  · exact .refl w

theorem later_foldl (uids : List String) (w : World Payload) :
    w.Later (uids.foldl disconnectClient w) := by
  induction uids generalizing w with
  | nil => exact .refl w
  | cons uid uids ih => exact (later_disconnectClient w uid).trans (ih _)

theorem later_command (w : World Payload) (uid : Option String)
    (f : Connection Payload → Connection Payload × Bool)
    (joined : String → List (String × String)) : w.Later (w.command uid f joined) := by
  unfold command
  split
  · split
    · split
      · exact ⟨rfl, Nat.le_of_eq length_set.symm, fun _ _ hclient => .inl hclient⟩
      · exact .refl w
    · exact .refl w
  · exact .refl w

theorem Later.letGo (h : w.Later w') (hk : w.letGo k = true) :
    w'.letGo k = true ∧ w'.emittedFor k = w.emittedFor k := by
  obtain ⟨hlt, hheld⟩ := letGo_iff.1 hk
  refine ⟨letGo_iff.2 ⟨Nat.lt_of_lt_of_le hlt h.length, fun userId client hclient => ?_⟩, ?_⟩
  · rcases h.clients userId client hclient with hclient | hle
    · exact hheld userId client hclient
    · omega
  · unfold emittedFor
    rw [h.emitted]

/-- For a connection that was let go of nothing is emitted any more. -/
theorem Ok.letGo_act (h : w.Ok) {a : WsAct Payload} (hact : w.act a = some w')
    (hk : w.letGo k = true) : w'.letGo k = true ∧ w'.emittedFor k = w.emittedFor k := by
  cases a with
  | connect params wsUrl dial =>
    cases hact
    unfold World.wsConnect
    split
    · exact ⟨hk, rfl⟩
    · exact ((later_remove w _).trans (later_startConnection ..)).letGo hk
  | disconnect uid =>
    cases hact
    unfold wsDisconnect
    split
    · exact (later_disconnectClient w _).letGo hk
    · exact ⟨hk, rfl⟩
  | disconnectAll =>
    cases hact
    exact (later_foldl _ w).letGo hk
  | setCurrentUser userId =>
    cases hact
    exact ⟨hk, rfl⟩
  | task j t =>
    obtain ⟨c, hc, hout⟩ := Option.bind_eq_some_iff.1 hact
    obtain ⟨⟨d, events⟩, ht, rfl⟩ := Option.map_eq_some_iff.1 hout
    refine ⟨?_, ?_⟩
    · rw [letGo_iff] at hk ⊢
      refine ⟨?_, hk.2⟩
      show k < (w.connections.set j d).length
      rw [length_set]
      exact hk.1
    · have hnone : (events.map fun event => (j, (⟨c.userId, event⟩ :
          UserEventWrapper Payload))).filter (fun p => p.1 = k) = [] := by
        rw [filter_eq_nil_iff]
        intro p hp
        obtain ⟨event, hevent, rfl⟩ := mem_map.1 hp
        intro heq
        obtain rfl : j = k := of_decide_eq_true heq
        obtain rfl : events = [] := (finished_task (h.letGo j c hk hc) ht).2
        cases hevent
      show (w.emitted ++ _).filter _ = _
      rw [filter_append, hnone, append_nil]
      rfl
  | _ =>
    cases hact
    exact (later_command w ..).letGo hk

theorem Ok.letGo_reach (h : w.Ok) (hreach : Machine.Reach World.act Admitted w w')
    (hk : w.letGo k = true) : w'.letGo k = true ∧ w'.emittedFor k = w.emittedFor k := by
  have hall : w'.Ok ∧ w'.letGo k = true ∧ w'.emittedFor k = w.emittedFor k := by
    refine hreach.invariant (I := fun v => v.Ok ∧ v.letGo k = true ∧
      v.emittedFor k = w.emittedFor k) ?_ ⟨h, hk, rfl⟩
    rintro v a v' ⟨hv, hvk, hemitted⟩ hadmitted hact
    obtain ⟨hk', hemitted'⟩ := hv.letGo_act hact hvk
    exact ⟨hv.act hadmitted hact, hk', hemitted'.trans hemitted⟩
  exact hall.2

/-- A client whose connection is gone is connected anew. -/
theorem connected_anew (hadmitted : Admitted w (.connect params wsUrl .accepted))
    (hact : w.act (.connect params wsUrl .accepted) = some w')
    (hgone : ∀ c, w.connectionOf params.userId = some c → c.gone = true) :
    w'.connectionOf params.userId = some (.opened wsUrl params.token params.userId) ∧
      w'.connections.length = w.connections.length + 1 := by
  cases hact
  have hstatus : w.authenticated params.userId ≠ true := by
    intro hstatus
    unfold Admitted at hadmitted
    dsimp only at hadmitted
    rw [if_pos hstatus] at hadmitted
    obtain ⟨c, hc, -⟩ := (Option.any_eq_true ..).1 hstatus
    exact absurd ((hadmitted c hc).symm.trans (hgone c hc)) Bool.false_ne_true
  unfold wsConnect
  rw [if_neg hstatus]
  refine ⟨connectionOf_eq_some.2 ⟨_, lookup_set_self .., getElem?_concat_length ..⟩, ?_⟩
  exact length_append

end World

/-- **The connections are in order** in every run in which a client is let go of only when its
connection is over, and connected again only while it does not take itself to be authenticated. -/
theorem lifecycle_kept (Payload : Type) : LifecycleKept Payload Admitted := by
  intro w hreach
  have hok := World.ok_empty.reach hreach
  refine ⟨hok.orderly, fun w' k hlater hk => (hok.letGo_reach hlater hk).2, ?_⟩
  exact fun params wsUrl w' hadmitted hact hgone => connected_anew hadmitted hact hgone

/-! ## A client that disconnects -/

/-- An account connects, is authenticated and disconnects. -/
def disconnected : List (WsAct Unit) :=
  [.connect ⟨"7", "t"⟩ "wss://im" .accepted, .task 0 (.receive (some (.authed "7" "c"))),
    .task 0 .proceed, .task 0 .proceed, .disconnect (some "7")]

/-- A message of the old connection is emitted after that. -/
theorem emitted_after_disconnect : ¬LifecycleKept Unit fun _ _ => True := by
  intro h
  obtain ⟨w, hw⟩ : ∃ w, Machine.perform act disconnected .empty = some w := ⟨_, rfl⟩
  obtain ⟨w', hw'⟩ : ∃ w', Machine.perform act
    [.task 0 (.receive (some (.other ()))), .task 0 .proceed] w = some w' := by
    cases hw
    exact ⟨_, rfl⟩
  have hquiet := (h w (.of_perform (fun _ _ => trivial) hw)).2.1 w' 0
    (.of_perform (fun _ _ => trivial) hw')
  cases hw
  cases hw'
  exact absurd (hquiet (by decide +kernel)) (by decide +kernel)

end RedcodeIm.Desktop
