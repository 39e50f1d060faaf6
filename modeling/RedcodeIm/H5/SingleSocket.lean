import RedcodeIm.H5.WebSocketService
import RedcodeIm.Realtime.SingleSocket

/-!
# One socket at a time, in the web app

A callback is heeded whichever socket it is of: `onclose` of an old one takes the current one away.
So there must be none that can still be heard of when a socket is opened; after an `error` frame or
a failure there is, and after `disconnect` there is until the close has been reported.

* `OneSocketAdmitted` — the app opens a socket only once every other one has reported its close.
* `OneSocketOk`, `oneSocketOk_act` — what every act keeps.
* `oneSocketKept` — one socket at a time, in every run that the condition admits.
-/

namespace RedcodeIm.H5

open Realtime SocketWorld List Option

variable {Payload : Type}

/-! ## What is expected -/

/-- `connect` opens a socket. -/
def SocketWorld.opens (w : SocketWorld Payload) (token : Option String) : Bool :=
  !w.client.status.busy && (token.filter (· ≠ "")).isSome

/-- The socket that an act is a callback of. -/
def SocketAct.callbackOf : SocketAct → Option ℕ
  | .onopen i | .onmessage i _ | .answer i | .onerror i | .onclose i => some i
  | _ => none

def socketView (Payload : Type) : SocketView (SocketWorld Payload) SocketAct where
  live w i := ∃ s, w.sockets[i]? = some s ∧ s.live = true
  current w := w.client.socket
  opened w := w.sockets.length
  dispatched w := w.dispatched.length
  resting w := w.resting
  callbackOf _ a := a.callbackOf
  connects
    | .connect _ => true
    | _ => false

/-- There is one socket at a time in every run. -/
def OneSocketKept (P : SocketSetting Payload) (G : SocketWorld Payload → SocketAct → Prop) : Prop :=
  ∀ w, Machine.Reach (act P) G .new w →
    SingleSocket (act P) G (socketView Payload) w

/-- The app opens a socket only once every other one has reported its close. -/
def OneSocketAdmitted (w : SocketWorld Payload) : SocketAct → Prop
  | .connect token => w.opens token = true → ∀ s ∈ w.sockets, s.reported = true
  | _ => True

/-! ## What every act keeps -/

/-- One socket at most can be heard of, and it is the client's own if it is live; the client's own
can be heard of; only its own timer is pending, and then no socket can be heard of; and a client
that rests has no socket and no timer. -/
structure OneSocketOk (w : SocketWorld Payload) : Prop where
  ended : ∀ s ∈ w.sockets, s.reported = true → s.live = false
  live : ∀ (i : ℕ) (s : Socket String), w.sockets[i]? = some s → s.live = true →
    w.client.socket = some i
  one : ∀ (i j : ℕ) (s t : Socket String), w.sockets[i]? = some s → w.sockets[j]? = some t →
    s.reported = false → t.reported = false → i = j
  own : ∀ i, w.client.socket = some i → ∃ s, w.sockets[i]? = some s ∧ s.reported = false
  timers : ∀ k : ℕ, w.timers[k]? = some true →
    w.client.reconnectTimer = some k ∧ ∀ s ∈ w.sockets, s.reported = true
  rest : w.resting = true → w.client.socket = none ∧ w.client.manualClose = true ∧ true ∉ w.timers

/-- What a socket comes to before its close is reported. -/
def Ages (s s' : Socket String) : Prop :=
  s'.reported = s.reported ∧ (s'.live = true → s.live = true)

theorem Ages.refl (s : Socket String) : Ages s s := ⟨rfl, id⟩

/-- The client keeps its socket, and so do the timers and all else that matters. -/
structure Frame (w w' : SocketWorld Payload) : Prop where
  socket : w'.client.socket = w.client.socket
  timer : w'.client.reconnectTimer = w.client.reconnectTimer
  manualClose : w'.client.manualClose = w.client.manualClose
  timers : w'.timers = w.timers
  resting : w'.resting = w.resting
  count : w'.sockets.length = w.sockets.length
  ages : ∀ (i : ℕ) (s : Socket String), w.sockets[i]? = some s →
    ∃ s', w'.sockets[i]? = some s' ∧ Ages s s'

section

variable {P : SocketSetting Payload} {w w' w'' : SocketWorld Payload} {i k : ℕ} {s : Socket String}

theorem Frame.refl (w : SocketWorld Payload) : Frame w w :=
  ⟨rfl, rfl, rfl, rfl, rfl, rfl, fun _ s h => ⟨s, h, .refl s⟩⟩

theorem Frame.trans (h : Frame w w') (h' : Frame w' w'') : Frame w w'' := by
  refine ⟨h'.socket.trans h.socket, h'.timer.trans h.timer, h'.manualClose.trans h.manualClose,
    h'.timers.trans h.timers, h'.resting.trans h.resting, h'.count.trans h.count, ?_⟩
  intro i s hs
  obtain ⟨s', hs', hreported, hlive⟩ := h.ages i s hs
  obtain ⟨s'', hs'', hreported', hlive'⟩ := h'.ages i s' hs'
  exact ⟨s'', hs'', hreported'.trans hreported, fun hl => hlive (hlive' hl)⟩

theorem Frame.before (h : Frame w w') {s' : Socket String} (hs' : w'.sockets[i]? = some s') :
    ∃ s, w.sockets[i]? = some s ∧ Ages s s' := by
  have hi : i < w.sockets.length := h.count ▸ (List.getElem?_eq_some_iff.1 hs').1
  obtain ⟨s'', hs'', hages⟩ := h.ages i _ (getElem?_eq_getElem hi)
  cases hs''.symm.trans hs'
  exact ⟨_, getElem?_eq_getElem hi, hages⟩

theorem Frame.before_mem (h : Frame w w') {s' : Socket String} (hs' : s' ∈ w'.sockets) :
    ∃ s ∈ w.sockets, Ages s s' := by
  obtain ⟨i, hi⟩ := getElem?_of_mem hs'
  obtain ⟨s, hs, hages⟩ := h.before hi
  exact ⟨s, mem_of_getElem? hs, hages⟩

theorem OneSocketOk.frame (h : OneSocketOk w) (hframe : Frame w w') : OneSocketOk w' := by
  refine ⟨?_, ?_, ?_, ?_, ?_, ?_⟩
  · intro s' hs' hr
    obtain ⟨s, hs, hreported, hlive⟩ := hframe.before_mem hs'
    have hdead := h.ended s hs (hreported.symm.trans hr)
    exact Bool.eq_false_iff.2 fun hl => Bool.eq_false_iff.1 hdead (hlive hl)
  · intro i s' hs' hl
    obtain ⟨s, hs, -, hlive⟩ := hframe.before hs'
    rw [hframe.socket]
    exact h.live i s hs (hlive hl)
  · intro i j s' t' hs' ht' hr hr'
    obtain ⟨s, hs, hreported, -⟩ := hframe.before hs'
    obtain ⟨t, ht, hreported', -⟩ := hframe.before ht'
    exact h.one i j s t hs ht (hreported.symm.trans hr) (hreported'.symm.trans hr')
  · intro i hi
    rw [hframe.socket] at hi
    obtain ⟨s, hs, hr⟩ := h.own i hi
    obtain ⟨s', hs', hreported, -⟩ := hframe.ages i s hs
    exact ⟨s', hs', hreported.trans hr⟩
  · intro k hk
    rw [hframe.timers] at hk
    obtain ⟨htimer, hall⟩ := h.timers k hk
    refine ⟨hframe.timer.trans htimer, fun s' hs' => ?_⟩
    obtain ⟨s, hs, hreported, -⟩ := hframe.before_mem hs'
    exact hreported.trans (hall s hs)
  · rw [hframe.resting, hframe.socket, hframe.manualClose, hframe.timers]
    exact h.rest

theorem ages_modify {sockets : List (Socket String)} {f : Socket String → Socket String}
    (hf : ∀ s, Ages s (f s)) (k : ℕ) {i : ℕ} {s : Socket String} (h : sockets[i]? = some s) :
    ∃ s', (sockets.modify k f)[i]? = some s' ∧ Ages s s' := by
  rw [getElem?_modify, h]
  refine ⟨_, rfl, ?_⟩
  split
  · exact hf s
  · exact .refl s

theorem frame_modify {f : Socket String → Socket String} (hf : ∀ s, Ages s (f s)) (i : ℕ) :
    Frame w { w with sockets := w.sockets.modify i f } :=
  ⟨rfl, rfl, rfl, rfl, rfl, length_modify .., fun _ _ hs => ages_modify hf i hs⟩

theorem ages_handshake (s : Socket String) : Ages s s.handshake := by simp [Ages]

theorem ages_close (s : Socket String) : Ages s s.close := by simp [Ages]

theorem ages_drop (s : Socket String) : Ages s s.drop := by simp [Ages]

theorem ages_answered (s : Socket String) : Ages s s.answered := by simp [Ages]

/-- The client may change in anything else. -/
theorem Frame.of_client (hsocket : w'.client.socket = w.client.socket)
    (htimer : w'.client.reconnectTimer = w.client.reconnectTimer)
    (hmanual : w'.client.manualClose = w.client.manualClose) (htimers : w'.timers = w.timers)
    (hresting : w'.resting = w.resting) (hsockets : w'.sockets = w.sockets) : Frame w w' :=
  ⟨hsocket, htimer, hmanual, htimers, hresting, congrArg length hsockets,
    fun _ s h => ⟨s, hsockets ▸ h, .refl s⟩⟩

theorem frame_send (requests : List ClientRequest) : Frame w (w.send requests) := by
  unfold SocketWorld.send
  split
  · refine frame_modify (fun s => ?_) _
    split
    · simp [Ages]
    · exact .refl s
  · exact .refl w

theorem frame_ensureRooms (roomIds : List String) (pruneMissing : Bool) :
    Frame w (w.ensureRoomsSubscribed roomIds pruneMissing) := by
  refine Frame.trans ?_ (frame_send _)
  exact .of_client rfl rfl rfl rfl rfl rfl

theorem frame_heedRoom (roomId : Option String) (f : Rooms → String → Rooms) :
    Frame w (w.heedRoom roomId f) := by
  unfold heedRoom
  split
  · exact .of_client rfl rfl rfl rfl rfl rfl
  · exact .refl w

theorem frame_heed {type : FrameType} {payload : Payload}
    (h : w.heed P type payload = .ok w') : Frame w w' := by
  unfold heed at h
  split at h
  · obtain ⟨connectionId, -, h⟩ := Framing.bind_eq_ok.1 h
    cases h
    refine Frame.trans ?_ (frame_ensureRooms _ _)
    exact .of_client rfl rfl rfl rfl rfl rfl
  · obtain ⟨roomId, -, h⟩ := Framing.bind_eq_ok.1 h
    cases h
    exact frame_heedRoom _ _
  · obtain ⟨roomId, -, h⟩ := Framing.bind_eq_ok.1 h
    cases h
    exact frame_heedRoom _ _
  · obtain ⟨message, -, h⟩ := Framing.bind_eq_ok.1 h
    cases h
    exact .of_client rfl rfl rfl rfl rfl rfl
  · cases h
    exact .refl w

theorem frame_handleFrame (data : String) : Frame w (w.handleFrame P data).1 := by
  unfold handleFrame
  split
  · exact .refl w
  · exact .refl w
  · split
    · exact .refl w
    · rename_i w₁ hw₁
      exact (frame_heed hw₁).trans (.of_client rfl rfl rfl rfl rfl rfl)

theorem frame_received (data : String) : Frame w (w.received P data) := by
  have hframe := frame_handleFrame (P := P) (w := w) data
  unfold received
  split
  · rename_i w₁ message heq
    rw [heq] at hframe
    exact hframe.trans (.of_client rfl rfl rfl rfl rfl rfl)
  · rename_i w₁ heq
    rw [heq] at hframe
    exact hframe

theorem frame_answer (i : ℕ) (s : Socket String) : Frame w (w.answer P i s) := by
  unfold answer
  split
  · exact Frame.trans (frame_modify ages_answered i) (frame_received _)
  · exact .refl w

theorem frame_opened (token : String) : Frame w (w.opened token) := by
  refine Frame.trans ?_ (frame_send _)
  exact .of_client rfl rfl rfl rfl rfl rfl

/-! ## Its functions -/

@[simp] theorem clear_socket : w.clearReconnectTimer.client.socket = w.client.socket := by
  unfold clearReconnectTimer
  split <;> rfl

@[simp] theorem clear_sockets : w.clearReconnectTimer.sockets = w.sockets := by
  unfold clearReconnectTimer
  split <;> rfl

@[simp] theorem clear_resting : w.clearReconnectTimer.resting = w.resting := by
  unfold clearReconnectTimer
  split <;> rfl

@[simp] theorem clear_dispatched : w.clearReconnectTimer.dispatched = w.dispatched := by
  unfold clearReconnectTimer
  split <;> rfl

/-- Once the client's timer is cleared none is pending. -/
theorem not_pending_of_clear (h : OneSocketOk w) : true ∉ w.clearReconnectTimer.timers := by
  intro hmem
  obtain ⟨k, hk⟩ := getElem?_of_mem hmem
  unfold clearReconnectTimer at hk
  split at hk
  · rename_i t ht
    simp only [getElem?_modify] at hk
    obtain ⟨b, hb, hsame⟩ := map_eq_some_iff.1 hk
    split at hsame
    · cases hsame
    · rename_i hne
      subst hsame
      have htimer := (h.timers k hb).1
      rw [ht] at htimer
      exact hne (some.inj htimer)
  · rename_i hnone
    have htimer := (h.timers k hk).1
    rw [hnone] at htimer
    cases htimer

variable {token : Option String}

theorem connect_rests (h : w.opens token = false) : Frame w (w.connect token) := by
  unfold opens at h
  unfold connect
  split
  · exact .refl w
  · rename_i hbusy
    split
    · exact .of_client rfl rfl rfl rfl rfl rfl
    · rename_i t ht
      rw [ht, Bool.eq_false_iff.2 hbusy] at h
      cases h

theorem connect_opens (h : w.opens token = true) :
    ∃ t, (w.connect token).sockets = w.sockets ++ [.connecting t] ∧
      (w.connect token).client.socket = some w.sockets.length ∧
      (w.connect token).timers = w.clearReconnectTimer.timers ∧
      (w.connect token).resting = w.resting := by
  obtain ⟨hbusy, htoken⟩ := Bool.and_eq_true_iff.1 h
  rw [Bool.not_eq_true'] at hbusy
  obtain ⟨t, ht⟩ := isSome_iff_exists.1 htoken
  have hconnect : w.connect token =
      { w.clearReconnectTimer with
        client :=
          { w.clearReconnectTimer.client with
            authToken := some t
            manualClose := false
            status := .connecting
            socket := some w.clearReconnectTimer.sockets.length }
        sockets := w.clearReconnectTimer.sockets ++ [.connecting t] } := by
    unfold connect
    rw [hbusy, ht]
    rfl
  rw [hconnect]
  simp

/-- A socket is opened once no other can be heard of. -/
theorem oneSocketOk_connect (h : OneSocketOk w) (hawake : w.resting = false)
    (hall : w.opens token = true → ∀ s ∈ w.sockets, s.reported = true) :
    OneSocketOk (w.connect token) := by
  cases hopens : w.opens token with
  | false => exact h.frame (connect_rests hopens)
  | true =>
    have hreported := hall hopens
    obtain ⟨t, hsockets, hsocket, htimers, hresting⟩ := connect_opens hopens
    have hcases {i : ℕ} {s : Socket String} (hs : (w.connect token).sockets[i]? = some s) :
        (s.reported = true ∧ s.live = false) ∨ i = w.sockets.length := by
      rw [hsockets] at hs
      rcases getElem?_push hs with hold | ⟨hi, -⟩
      · have hmem := mem_of_getElem? hold
        exact .inl ⟨hreported s hmem, h.ended s hmem (hreported s hmem)⟩
      · exact .inr hi
    refine ⟨?_, ?_, ?_, ?_, ?_, ?_⟩
    · intro s hs hr
      rw [hsockets] at hs
      rcases mem_append.1 hs with hold | hnew
      · exact h.ended s hold hr
      · obtain rfl := mem_singleton.1 hnew
        cases hr
    · intro i s hs hlive
      rcases hcases hs with ⟨-, hdead⟩ | rfl
      · rw [hdead] at hlive
        cases hlive
      · exact hsocket
    · intro i j s t hs ht hr hr'
      rcases hcases hs with ⟨hr'', -⟩ | rfl
      · rw [hr''] at hr
        cases hr
      · rcases hcases ht with ⟨hr'', -⟩ | rfl
        · rw [hr''] at hr'
          cases hr'
        · rfl
    · intro i hi
      cases hsocket.symm.trans hi
      rw [hsockets]
      exact ⟨_, getElem?_concat_length .., rfl⟩
    · intro k hk
      rw [htimers] at hk
      exact absurd (mem_of_getElem? hk) (not_pending_of_clear h)
    · rw [hresting, hawake]
      exact fun hfalse => absurd hfalse Bool.false_ne_true

theorem connect_awake (token : Option String) :
    { w with resting := false }.connect token = { w.connect token with resting := false } := by
  unfold connect
  split
  · rfl
  · split
    · rfl
    · unfold clearReconnectTimer
      cases w.client.reconnectTimer <;> rfl

theorem OneSocketOk.awake (h : OneSocketOk w) : OneSocketOk { w with resting := false } :=
  ⟨h.ended, h.live, h.one, h.own, h.timers, fun hfalse => absurd hfalse Bool.false_ne_true⟩

theorem oneSocketOk_disconnect (h : OneSocketOk w) :
    OneSocketOk { w.disconnect with resting := true } := by
  have hbefore {i : ℕ} {s' : Socket String} (hs' : w.disconnect.sockets[i]? = some s') :
      ∃ s, w.sockets[i]? = some s ∧ Ages s s' ∧ (w.client.socket = some i → s' = s.close) := by
    unfold disconnect at hs'
    simp only [clear_socket, clear_sockets] at hs'
    split at hs'
    · rename_i k hk
      rw [getElem?_modify] at hs'
      obtain ⟨s, hs, hsame⟩ := map_eq_some_iff.1 hs'
      by_cases hki : k = i
      · rw [if_pos hki] at hsame
        exact ⟨s, hs, hsame ▸ ages_close s, fun _ => hsame.symm⟩
      · rw [if_neg hki] at hsame
        refine ⟨s, hs, hsame ▸ .refl s, fun hi => ?_⟩
        exact absurd (some.inj (hk.symm.trans hi)) hki
    · rename_i hnone
      refine ⟨s', hs', .refl s', fun hi => ?_⟩
      rw [hnone] at hi
      cases hi
  have hdead {i : ℕ} {s' : Socket String} (hs' : w.disconnect.sockets[i]? = some s') :
      s'.live = false := by
    obtain ⟨s, hs, ⟨-, hlive⟩, hclosed⟩ := hbefore hs'
    refine Bool.eq_false_iff.2 fun hl => ?_
    rw [hclosed (h.live i s hs (hlive hl)), Socket.close_live] at hl
    cases hl
  have hpending : true ∉ w.disconnect.timers := not_pending_of_clear h
  refine ⟨?_, ?_, ?_, ?_, ?_, ?_⟩
  · intro s hs _
    obtain ⟨i, hi⟩ := getElem?_of_mem hs
    exact hdead hi
  · intro i s hs hl
    rw [hdead hs] at hl
    cases hl
  · intro i j s' t' hs' ht' hr hr'
    obtain ⟨s, hs, ⟨hreported, -⟩, -⟩ := hbefore hs'
    obtain ⟨t, ht, ⟨hreported', -⟩, -⟩ := hbefore ht'
    exact h.one i j s t hs ht (hreported.symm.trans hr) (hreported'.symm.trans hr')
  · intro i hi
    cases hi
  · exact fun k hk => absurd (mem_of_getElem? hk) hpending
  · exact fun _ => ⟨rfl, rfl, hpending⟩

/-- A socket reports its close. -/
theorem oneSocketOk_closed (h : OneSocketOk w) (hs : w.sockets[i]? = some s)
    (hopen : s.reported = false) :
    OneSocketOk ({ w with sockets := w.sockets.modify i (·.report) }.closed P) := by
  have hover {k : ℕ} {s' : Socket String}
      (hs' : (w.sockets.modify i (·.report))[k]? = some s') :
      s'.reported = true ∧ s'.live = false := by
    rw [getElem?_modify] at hs'
    obtain ⟨s₀, hs₀, hsame⟩ := map_eq_some_iff.1 hs'
    split at hsame
    · subst hsame
      exact ⟨rfl, rfl⟩
    · rename_i hne
      subst hsame
      -- no other socket can be heard of
      have hr : s₀.reported = true := by
        by_contra hnot
        exact hne (h.one i k s s₀ hs hs₀ hopen (Bool.eq_false_iff.2 hnot))
      exact ⟨hr, h.ended s₀ (mem_of_getElem? hs₀) hr⟩
  have hover_mem {s' : Socket String} (hs' : s' ∈ w.sockets.modify i (·.report)) :
      s'.reported = true ∧ s'.live = false := by
    obtain ⟨k, hk⟩ := getElem?_of_mem hs'
    exact hover hk
  have hpending : true ∉ w.timers := by
    intro hmem
    obtain ⟨k, hk⟩ := getElem?_of_mem hmem
    have hr := (h.timers k hk).2 s (mem_of_getElem? hs)
    rw [hr] at hopen
    cases hopen
  have hend {client : H5WebSocketService} {timers : List Bool}
      (hsocket : client.socket = none)
      (htimers : ∀ k : ℕ, timers[k]? = some true → client.reconnectTimer = some k)
      (hrest : w.resting = true → client.manualClose = true ∧ true ∉ timers) :
      OneSocketOk { w with client, timers, sockets := w.sockets.modify i (·.report) } := by
    refine ⟨fun s' hs' _ => (hover_mem hs').2, ?_, ?_, ?_, ?_, ?_⟩
    · intro k s' hs' hl
      rw [(hover hs').2] at hl
      cases hl
    · intro k k' s' t' hs' _ hr _
      rw [(hover hs').1] at hr
      cases hr
    · intro k hk
      rw [hsocket] at hk
      cases hk
    · exact fun k hk => ⟨htimers k hk, fun s' hs' => (hover_mem hs').1⟩
    · exact fun hr => ⟨hsocket, hrest hr⟩
  unfold closed
  dsimp only
  split
  · rename_i hmanual
    exact hend rfl (fun k hk => absurd (mem_of_getElem? hk) hpending)
      fun _ => ⟨hmanual, hpending⟩
  · rename_i hmanual
    have hawake (hr : w.resting = true) : False := hmanual (h.rest hr).2.1
    unfold scheduleReconnect
    split
    · exact hend rfl (fun k hk => absurd (mem_of_getElem? hk) hpending)
        fun hr => (hawake hr).elim
    · refine hend rfl (fun k hk => ?_) fun hr => (hawake hr).elim
      rcases getElem?_push hk with hold | ⟨rfl, -⟩
      · exact absurd (mem_of_getElem? hold) hpending
      · rfl

theorem callback_eq {phases : List SocketPhase} {f : Socket String → SocketWorld Payload}
    (h : w.callback i phases f = some w') :
    ∃ s, w.sockets[i]? = some s ∧ s.phase ∈ phases ∧ s.reported = false ∧ w' = f s := by
  unfold callback at h
  split at h
  · rename_i s hs
    split at h
    · rename_i hphase
      exact ⟨s, hs, hphase.1, hphase.2, (some.inj h).symm⟩
    · cases h
  · cases h

theorem fire_eq (h : w.act P (.fire k) = some w') :
    w.timers[k]? = some true ∧
      w' = { w with timers := w.timers.modify k fun _ => false }.connect w.client.authToken := by
  unfold act at h
  dsimp only at h
  split at h
  · rename_i hk
    exact ⟨hk, (some.inj h).symm⟩
  · cases h

/-! ## One act -/

/-- Every act that the condition admits keeps it. -/
theorem oneSocketOk_act {a : SocketAct} (h : OneSocketOk w) (hG : OneSocketAdmitted w a)
    (hact : w.act P a = some w') : OneSocketOk w' := by
  cases a with
  | connect token =>
    simp only [act, some.injEq] at hact
    subst hact
    rw [← connect_awake]
    exact oneSocketOk_connect h.awake rfl hG
  | disconnect =>
    simp only [act, some.injEq] at hact
    subst hact
    exact oneSocketOk_disconnect h
  | ensureRooms roomIds pruneMissing =>
    simp only [act, some.injEq] at hact
    subst hact
    exact h.frame (frame_ensureRooms _ _)
  | onopen i =>
    obtain ⟨s, -, -, -, rfl⟩ := callback_eq hact
    exact h.frame (Frame.trans (frame_modify ages_handshake i) (frame_opened _))
  | onmessage i data =>
    obtain ⟨s, -, -, -, rfl⟩ := callback_eq hact
    exact h.frame (frame_received data)
  | answer i =>
    obtain ⟨s, -, -, -, rfl⟩ := callback_eq hact
    exact h.frame (frame_answer i s)
  | onerror i =>
    simp only [act] at hact
    obtain ⟨s, -, -, -, rfl⟩ := callback_eq hact
    exact h.frame (.of_client rfl rfl rfl rfl rfl rfl)
  | onclose i =>
    obtain ⟨s, hs, -, hopen, rfl⟩ := callback_eq hact
    exact oneSocketOk_closed h hs hopen
  | drop i =>
    obtain ⟨s, -, -, -, rfl⟩ := callback_eq hact
    exact h.frame (frame_modify ages_drop i)
  | fire k =>
    obtain ⟨hk, rfl⟩ := fire_eq hact
    have hall := (h.timers k hk).2
    have hawake : w.resting = false :=
      Bool.eq_false_iff.2 fun hr => (h.rest hr).2.2 (mem_of_getElem? hk)
    have hfired : OneSocketOk { w with timers := w.timers.modify k fun _ => false } := by
      refine ⟨h.ended, h.live, h.one, h.own, ?_, fun hr => absurd (hawake ▸ hr) (by simp)⟩
      intro k' hk'
      rw [getElem?_modify] at hk'
      obtain ⟨b, hb, hsame⟩ := map_eq_some_iff.1 hk'
      split at hsame
      · cases hsame
      · subst hsame
        exact h.timers k' hb
    exact oneSocketOk_connect hfired hawake fun _ => hall

/-- What a callback leaves as it is, unless it is of the client's own socket. -/
theorem act_callback {a : SocketAct} (hact : w.act P a = some w') (hcall : a.callbackOf = some i) :
    (∃ s, w.sockets[i]? = some s ∧ s.reported = false) ∧
      (a = .onclose i ∨ w'.client.socket = w.client.socket) := by
  cases a with
  | onopen k =>
    cases hcall
    obtain ⟨s, hs, -, hopen, rfl⟩ := callback_eq hact
    exact ⟨⟨s, hs, hopen⟩, .inr (frame_opened (w := { w with sockets := _ }) _).socket⟩
  | onmessage k data =>
    cases hcall
    obtain ⟨s, hs, -, hopen, rfl⟩ := callback_eq hact
    exact ⟨⟨s, hs, hopen⟩, .inr (frame_received data).socket⟩
  | answer k =>
    cases hcall
    obtain ⟨s, hs, -, hopen, rfl⟩ := callback_eq hact
    exact ⟨⟨s, hs, hopen⟩, .inr (frame_answer _ s).socket⟩
  | onerror k =>
    cases hcall
    simp only [act] at hact
    obtain ⟨s, hs, -, hopen, rfl⟩ := callback_eq hact
    exact ⟨⟨s, hs, hopen⟩, .inr rfl⟩
  | onclose k =>
    cases hcall
    obtain ⟨s, hs, -, hopen, rfl⟩ := callback_eq hact
    exact ⟨⟨s, hs, hopen⟩, .inl rfl⟩
  | _ => cases hcall

/-- A client that rests opens nothing and dispatches nothing. -/
theorem act_resting {a : SocketAct} (h : OneSocketOk w) (hact : w.act P a = some w')
    (hconnects : (socketView Payload).connects a = false) (hrest : w.resting = true) :
    w'.resting = true ∧ w'.sockets.length = w.sockets.length ∧
      w'.dispatched.length = w.dispatched.length := by
  obtain ⟨hnone, hmanual, hpending⟩ := h.rest hrest
  have hclosed {i : ℕ} {s : Socket String} (hs : w.sockets[i]? = some s)
      (hphase : s.phase ∈ [SocketPhase.opened]) : False := by
    have hlive := h.live i s hs (by simp [Socket.live, mem_singleton.1 hphase])
    rw [hnone] at hlive
    cases hlive
  cases a with
  | connect token => cases hconnects
  | disconnect =>
    simp only [act, some.injEq] at hact
    subst hact
    refine ⟨rfl, ?_, congrArg length clear_dispatched⟩
    simp [disconnect, hnone]
  | ensureRooms roomIds pruneMissing =>
    simp only [act, some.injEq] at hact
    subst hact
    have hframe := frame_ensureRooms (w := w) roomIds pruneMissing
    refine ⟨hframe.resting.trans hrest, hframe.count, ?_⟩
    unfold SocketWorld.ensureRoomsSubscribed SocketWorld.send
    dsimp only
    split <;> rfl
  | onopen i =>
    obtain ⟨s, -, -, -, rfl⟩ := callback_eq hact
    simp [opened, SocketWorld.send, hnone, hrest]
  | onerror i =>
    obtain ⟨s, -, -, -, rfl⟩ := callback_eq hact
    exact ⟨hrest, rfl, rfl⟩
  | onclose i =>
    obtain ⟨s, -, -, -, rfl⟩ := callback_eq hact
    simp [closed, hmanual, hrest]
  | drop i =>
    simp only [act] at hact
    obtain ⟨s, -, -, -, rfl⟩ := callback_eq hact
    exact ⟨hrest, length_modify .., rfl⟩
  | fire k =>
    obtain ⟨hk, -⟩ := fire_eq hact
    exact absurd (mem_of_getElem? hk) hpending
  | _ =>
    obtain ⟨s, hs, hphase, -, -⟩ := callback_eq hact
    exact (hclosed hs hphase).elim

theorem oneSocketOk_new : OneSocketOk (new : SocketWorld Payload) where
  ended s hs := absurd hs not_mem_nil
  live i s hs := absurd hs (by simp [new])
  one i j s t hs := absurd hs (by simp [new])
  own i hi := absurd hi (by simp [new])
  timers k hk := absurd hk (by simp [new])
  rest hr := absurd hr Bool.false_ne_true

end

/-- The client of the web app has one socket at a time, in every run that the condition admits. -/
theorem oneSocketKept (P : SocketSetting Payload) : OneSocketKept P OneSocketAdmitted := by
  intro w hreach
  refine SingleSocket.of_invariant (I := OneSocketOk)
    (fun w a w' h hG hact => oneSocketOk_act h hG hact) ?_ ?_ ?_ oneSocketOk_new hreach
  · rintro w h i j ⟨s, hs, hlive⟩ ⟨t, ht, hlive'⟩
    exact some.inj ((h.live i s hs hlive).symm.trans (h.live j t ht hlive'))
  · intro w a w' i j h _ hact hcall hcurrent hne
    obtain ⟨⟨s, hs, hopen⟩, rfl | hsame⟩ := act_callback hact hcall
    · obtain ⟨t, ht, hopen'⟩ := h.own j hcurrent
      exact absurd (h.one i j s t hs ht hopen hopen') hne
    · exact hsame.trans hcurrent
  · exact fun w a w' h _ hact hconnects hrest => act_resting h hact hconnects hrest

/-! ## A second socket -/

/-- A server that accepts everything, and frames that are the names of their types. -/
def sampleSocketSetting : SocketSetting String where
  json :=
    { parse := fun data => .ok (some (.text data, data))
      get := fun _ _ => .ok none }
  server :=
    { mayJoin := fun _ => true
      text := fun answer =>
        match answer with
        | .authed => "authed"
        | .refused => "error"
        | .joined _ => "joined"
        | .left _ => "left" }
  autoReconnect := true
  maxReconnectAttempts := 5
  thrown := fun _ => none

/-- The server sends an `error` frame, and the app connects again. -/
def connectedAgain : List SocketAct :=
  [.connect (some "token"), .onopen 0, .answer 0, .onmessage 0 "error", .connect (some "token")]

theorem not_oneSocketKept : ¬OneSocketKept sampleSocketSetting fun _ _ => True := by
  intro h
  have hrun : ((Machine.perform (act sampleSocketSetting) connectedAgain .new).map
      fun w => w.sockets.map (·.live)) = some [true, true] := by
    decide +kernel
  obtain ⟨w, hw, hlive⟩ := map_eq_some_iff.1 hrun
  have hsocket (i : ℕ) (hi : [true, true][i]? = some true) : (socketView String).live w i := by
    rw [← hlive, getElem?_map] at hi
    exact map_eq_some_iff.1 hi
  have hone := (h w (.of_perform (fun _ _ => trivial) hw)).one 0 1 (hsocket 0 rfl) (hsocket 1 rfl)
  cases hone

end RedcodeIm.H5
