import RedcodeIm.Android.EventDelivery
import RedcodeIm.Realtime.SingleSocket

/-!
# One socket at a time, in the Android app

A callback is heeded only in the generation that its socket was opened in, so that an old socket
does nothing any more.  An `error` frame, however, leaves the socket open and lets `connect` open
another, and a reconnect job that has waited connects whatever has happened meanwhile.

* `OneSocketAdmitted` — a socket is opened only where the client has none that is live, and the
  client is disconnected only while no job is about to connect.
* `OneSocketOk`, `oneSocketOk_act` — what every act keeps.
* `oneSocketKept` — one socket at a time, in every run that the condition admits.
-/

namespace RedcodeIm.Android

open Realtime World Option List

variable {Payload : Type}

/-! ## What is expected -/

namespace World

/-- `connect` opens a socket. -/
def opens (w : World Payload) (token : String) : Bool :=
  !(Text.trim token).isEmpty && !w.client.status.busy

/-- The client has no live socket. -/
def free (w : World Payload) : Prop :=
  ∀ (i : ℕ) (s : Socket Listener), w.client.socket = some i → w.sockets[i]? = some s →
    s.live = false

end World

/-- The socket that an act is a callback of. -/
def Act.callbackOf : Act → Option ℕ
  | .onOpen i | .onMessage i _ | .answer i | .onClosing i | .onClosed i | .onFailure i _ => some i
  | _ => none

def socketView (Payload : Type) : SocketView (World Payload) Act where
  live w i := ∃ s, w.sockets[i]? = some s ∧ s.live = true
  current w := w.client.socket
  opened w := w.sockets.length
  dispatched w := w.dispatched.length
  resting w := w.resting
  callbackOf _ a := a.callbackOf
  connects
    | .connect _ => true
    | _ => false

/-- There is one socket at a time in every run. -/
def OneSocketKept (P : Setting Payload) (G : World Payload → Act → Prop) : Prop :=
  ∀ w, Machine.Reach (act P) G .new w →
    SingleSocket (act P) G (socketView Payload) w

/-- A socket is opened, by the app or by a job, only where the client has none that is live; and the
client is disconnected only while no job is about to connect. -/
def OneSocketAdmitted (w : World Payload) : Act → Prop
  | .connect token => w.opens token = true → w.free
  | .reconnect j => ∀ job, w.jobs[j]? = some job → w.opens job.token = true → w.free
  | .disconnect => ∀ job ∈ w.jobs, job.phase ≠ .woken
  | _ => True

/-! ## What every act keeps -/

/-- Generations grow; of the current one only the client's own socket can be heard, which alone is
live; only the client's own job is waiting; and a client that rests has neither. -/
structure OneSocketOk (w : World Payload) : Prop where
  bounded : ∀ (i : ℕ) (s : Socket Listener), w.sockets[i]? = some s →
    s.handler.generation ≤ w.client.connectionGeneration
  own : ∀ (i : ℕ) (s : Socket Listener), w.sockets[i]? = some s →
    s.handler.generation = w.client.connectionGeneration → s.reported = false →
    w.client.socket = some i
  live : ∀ (i : ℕ) (s : Socket Listener), w.sockets[i]? = some s → s.live = true →
    w.client.socket = some i
  jobs : ∀ (j : ℕ) (job : ReconnectJob), w.jobs[j]? = some job → job.phase = .delayed →
    w.client.reconnectJob = some j
  rest : w.resting = true → w.client.socket = none ∧ ∀ job ∈ w.jobs, job.phase = .finished

/-- What a socket comes to while the client goes on with it, or hears of its end. -/
def Ages (s s' : Socket Listener) : Prop :=
  s'.handler = s.handler ∧ (s'.reported = false → s.reported = false) ∧
    (s'.live = true → s.live = true)

theorem Ages.refl (s : Socket Listener) : Ages s s := ⟨rfl, id, id⟩

/-- The client keeps its socket, its generation and its job, and the sockets only age. -/
structure Frame (w w' : World Payload) : Prop where
  socket : w'.client.socket = w.client.socket
  generation : w'.client.connectionGeneration = w.client.connectionGeneration
  job : w'.client.reconnectJob = w.client.reconnectJob
  jobs : w'.jobs = w.jobs
  resting : w'.resting = w.resting
  count : w'.sockets.length = w.sockets.length
  ages : ∀ (i : ℕ) (s' : Socket Listener), w'.sockets[i]? = some s' →
    ∃ s, w.sockets[i]? = some s ∧ Ages s s'

section

variable {P : Setting Payload} {w w' w'' : World Payload} {i j : ℕ} {s : Socket Listener}

theorem Frame.refl (w : World Payload) : Frame w w :=
  ⟨rfl, rfl, rfl, rfl, rfl, rfl, fun _ s' h => ⟨s', h, .refl s'⟩⟩

theorem Frame.trans (h : Frame w w') (h' : Frame w' w'') : Frame w w'' := by
  refine ⟨h'.socket.trans h.socket, h'.generation.trans h.generation, h'.job.trans h.job,
    h'.jobs.trans h.jobs, h'.resting.trans h.resting, h'.count.trans h.count, ?_⟩
  intro i s'' hs''
  obtain ⟨s', hs', hhandler', hreported', hlive'⟩ := h'.ages i s'' hs''
  obtain ⟨s, hs, hhandler, hreported, hlive⟩ := h.ages i s' hs'
  exact ⟨s, hs, hhandler'.trans hhandler, fun hr => hreported (hreported' hr),
    fun hl => hlive (hlive' hl)⟩

theorem OneSocketOk.frame (h : OneSocketOk w) (hframe : Frame w w') : OneSocketOk w' := by
  obtain ⟨hsocket, hgeneration, hjob, hjobs, hresting, -, hages⟩ := hframe
  refine ⟨?_, ?_, ?_, ?_, ?_⟩
  · intro i s' hs'
    obtain ⟨s, hs, hhandler, -⟩ := hages i s' hs'
    rw [hhandler, hgeneration]
    exact h.bounded i s hs
  · intro i s' hs' hgen hreported'
    obtain ⟨s, hs, hhandler, hreported, -⟩ := hages i s' hs'
    rw [hhandler, hgeneration] at hgen
    rw [hsocket]
    exact h.own i s hs hgen (hreported hreported')
  · intro i s' hs' hlive'
    obtain ⟨s, hs, -, -, hlive⟩ := hages i s' hs'
    rw [hsocket]
    exact h.live i s hs (hlive hlive')
  · rw [hjobs, hjob]
    exact h.jobs
  · rw [hresting, hsocket, hjobs]
    exact h.rest

variable {f : Socket Listener → Socket Listener}

theorem ages_modify {sockets : List (Socket Listener)} (hf : ∀ s, Ages s (f s)) (i k : ℕ)
    (s' : Socket Listener) (h : (sockets.modify i f)[k]? = some s') :
    ∃ s, sockets[k]? = some s ∧ Ages s s' := by
  rw [getElem?_modify] at h
  obtain ⟨s, hs, rfl⟩ := map_eq_some_iff.1 h
  refine ⟨s, hs, ?_⟩
  split
  · exact hf s
  · exact .refl s

theorem frame_modify (hf : ∀ s, Ages s (f s)) (i : ℕ) :
    Frame w { w with sockets := w.sockets.modify i f } :=
  ⟨rfl, rfl, rfl, rfl, rfl, length_modify .., ages_modify hf i⟩

theorem ages_handshake (s : Socket Listener) : Ages s s.handshake := by simp [Ages]

theorem ages_close (s : Socket Listener) : Ages s s.close := by simp [Ages]

theorem ages_report (s : Socket Listener) : Ages s s.report := by simp [Ages]

theorem ages_drop (s : Socket Listener) : Ages s s.drop := by simp [Ages]

theorem ages_answered (s : Socket Listener) : Ages s s.answered := by simp [Ages]

theorem frame_send (requests : List ClientRequest) : Frame w (w.send requests) := by
  unfold World.send
  split
  · refine frame_modify (fun s => ?_) _
    split
    · simp [Ages]
    · exact .refl s
  · exact .refl w

theorem frame_ensureRooms (roomIds : List String) (pruneMissing : Bool) :
    Frame w (w.ensureRoomsSubscribed roomIds pruneMissing) := by
  refine Frame.trans ?_ (frame_send _)
  exact ⟨rfl, rfl, rfl, rfl, rfl, rfl, fun _ s h => ⟨s, h, .refl s⟩⟩

theorem frame_heedRoom (roomId : Option String) (f : Rooms → String → Rooms) :
    Frame w (w.heedRoom roomId f) := by
  unfold heedRoom
  split
  · split
    · exact .refl w
    · exact ⟨rfl, rfl, rfl, rfl, rfl, rfl, fun _ s h => ⟨s, h, .refl s⟩⟩
  · exact .refl w

variable {json : JsonLibrary Payload}

theorem frame_heed {type : String} {payload : Payload} (h : w.heed json type payload = .ok w') :
    Frame w w' := by
  unfold heed at h
  split at h
  · obtain ⟨connectionId, -, h⟩ := Framing.bind_eq_ok.1 h
    cases h
    refine Frame.trans ?_ (frame_ensureRooms _ _)
    exact ⟨rfl, rfl, rfl, rfl, rfl, rfl, fun _ s h => ⟨s, h, .refl s⟩⟩
  · obtain ⟨roomId, -, h⟩ := Framing.bind_eq_ok.1 h
    cases h
    exact frame_heedRoom _ _
  · obtain ⟨roomId, -, h⟩ := Framing.bind_eq_ok.1 h
    cases h
    exact frame_heedRoom _ _
  · obtain ⟨message, -, h⟩ := Framing.bind_eq_ok.1 h
    cases h
    exact ⟨rfl, rfl, rfl, rfl, rfl, rfl, fun _ s h => ⟨s, h, .refl s⟩⟩
  · cases h
    exact .refl w

variable {generation : ℕ}

theorem frame_handleTextFrame {text : String} (h : w.handleTextFrame json generation text = .ok w')
    : Frame w w' := by
  unfold handleTextFrame at h
  split at h
  · cases h
    exact .refl w
  · split at h
    · cases h
      exact .refl w
    · obtain ⟨content, -, h⟩ := Framing.bind_eq_ok.1 h
      cases content with
      | none =>
        cases h
        exact .refl w
      | some type =>
        obtain ⟨w₁, hw₁, h⟩ := Framing.bind_eq_ok.1 h
        cases h
        obtain ⟨h₁, h₂, h₃, h₄, h₅, h₆, h₇⟩ := frame_heed hw₁
        exact ⟨h₁, h₂, h₃, h₄, h₅, h₆, h₇⟩

theorem frame_handleClosing (generation : ℕ) : Frame w (w.handleClosing generation) := by
  unfold handleClosing
  split
  · split
    · exact frame_modify ages_close _
    · exact .refl w
  · exact .refl w

variable {job : ReconnectJob}

/-- Whoever waited before it is cancelled, or it is not waiting. -/
theorem cancel_delayed (h : job.cancel.phase = .delayed) : False := by
  unfold ReconnectJob.cancel at h
  split at h
  · cases h
  · rename_i hnot
    exact hnot h

/-- Once the client's job is cancelled none is waiting. -/
theorem not_delayed_of_cancel (h : OneSocketOk w) (hj : w.cancelReconnect.jobs[j]? = some job) :
    job.phase ≠ .delayed := by
  intro hphase
  unfold cancelReconnect at hj
  split at hj
  · rename_i k hk
    simp only [getElem?_modify] at hj
    obtain ⟨job', hjob', hsame⟩ := map_eq_some_iff.1 hj
    split at hsame
    · subst hsame
      exact cancel_delayed hphase
    · rename_i hne
      subst hsame
      have hjob := h.jobs j job' hjob' hphase
      rw [hk] at hjob
      exact hne (some.inj hjob)
  · rename_i hnone
    have hjob := h.jobs j job hj hphase
    rw [hnone] at hjob
    cases hjob

@[simp] theorem length_cancelReconnect : w.cancelReconnect.jobs.length = w.jobs.length := by
  unfold cancelReconnect
  split
  · exact length_modify ..
  · rfl

theorem cancel_phase (h : job.cancel.phase = .woken) : job.phase = .woken := by
  unfold ReconnectJob.cancel at h
  split at h
  · cases h
  · exact h

theorem not_woken_of_cancel (h : ∀ job ∈ w.jobs, job.phase ≠ .woken)
    (hj : w.cancelReconnect.jobs[j]? = some job) : job.phase ≠ .woken := by
  intro hphase
  unfold cancelReconnect at hj
  split at hj
  · simp only [getElem?_modify] at hj
    obtain ⟨job', hjob', hsame⟩ := map_eq_some_iff.1 hj
    have hmem := mem_of_getElem? hjob'
    split at hsame
    · subst hsame
      exact h job' hmem (cancel_phase hphase)
    · subst hsame
      exact h job' hmem hphase
  · exact h job (mem_of_getElem? hj) hphase

/-! ## Its functions -/

variable {token : String}

theorem connect_rests (h : w.opens token = false) : Frame w (w.connect token) := by
  unfold opens at h
  unfold connect
  simp only
  split
  · exact ⟨rfl, rfl, rfl, rfl, rfl, rfl, fun _ s h => ⟨s, h, .refl s⟩⟩
  · rename_i hempty
    split
    · exact .refl w
    · rename_i hbusy
      simp [hempty, hbusy] at h

theorem connect_opens (h : w.opens token = true) :
    (w.connect token).sockets =
        w.sockets ++ [.connecting ⟨w.client.connectionGeneration + 1, Text.trim token⟩] ∧
      (w.connect token).client.socket = some w.sockets.length ∧
      (w.connect token).client.connectionGeneration = w.client.connectionGeneration + 1 ∧
      (w.connect token).client.reconnectJob = w.client.reconnectJob ∧
      (w.connect token).jobs = w.cancelReconnect.jobs ∧
      (w.connect token).resting = w.resting := by
  obtain ⟨hempty, hbusy⟩ := Bool.and_eq_true_iff.1 h
  rw [Bool.not_eq_true'] at hempty hbusy
  have hconnect : w.connect token =
      { w.cancelReconnect with
        client :=
          { w.client with
            authToken := some (Text.trim token)
            manualClose := false
            connectionGeneration := w.client.connectionGeneration + 1
            status := .connecting
            socket := some w.sockets.length }
        sockets :=
          w.sockets ++ [.connecting ⟨w.client.connectionGeneration + 1, Text.trim token⟩] } := by
    unfold connect
    simp only [hempty, hbusy, Bool.false_eq_true, if_false]
  rw [hconnect]
  refine ⟨rfl, rfl, rfl, rfl, rfl, ?_⟩
  unfold cancelReconnect
  split <;> rfl

variable (h : OneSocketOk w)

include h

theorem oneSocketOk_connect (hawake : w.resting = false) (hfree : w.opens token = true → w.free) :
    OneSocketOk (w.connect token) := by
  cases hopens : w.opens token with
  | false => exact h.frame (connect_rests hopens)
  | true =>
    obtain ⟨hsockets, hsocket, hgeneration, hjob, hjobs, hresting⟩ := connect_opens hopens
    refine ⟨?_, ?_, ?_, ?_, ?_⟩
    · intro i s hs
      rw [hsockets] at hs
      rw [hgeneration]
      rcases getElem?_push hs with hold | ⟨-, rfl⟩
      · exact Nat.le_succ_of_le (h.bounded i s hold)
      · exact Nat.le_refl _
    · intro i s hs hgen _
      rw [hsockets] at hs
      rw [hgeneration] at hgen
      rcases getElem?_push hs with hold | ⟨rfl, -⟩
      · have hle := h.bounded i s hold
        omega
      · exact hsocket
    · intro i s hs hlive
      rw [hsockets] at hs
      rcases getElem?_push hs with hold | ⟨rfl, -⟩
      · -- the socket that the client had is not live any more
        have hdead := hfree hopens i s (h.live i s hold hlive) hold
        rw [hdead] at hlive
        cases hlive
      · exact hsocket
    · intro j job hj hphase
      rw [hjobs] at hj
      exact absurd hphase (not_delayed_of_cancel h hj)
    · rw [hresting, hawake]
      exact fun hfalse => absurd hfalse Bool.false_ne_true

omit h in
theorem connect_awake (token : String) :
    { w with resting := false }.connect token = { w.connect token with resting := false } := by
  unfold connect
  simp only
  split
  · rfl
  · split
    · rfl
    · unfold cancelReconnect
      cases w.client.reconnectJob <;> rfl

theorem OneSocketOk.awake : OneSocketOk { w with resting := false } :=
  ⟨h.bounded, h.own, h.live, h.jobs, fun hfalse => absurd hfalse Bool.false_ne_true⟩

theorem oneSocketOk_disconnect (hwoken : ∀ job ∈ w.jobs, job.phase ≠ .woken) :
    OneSocketOk { w.disconnect with resting := true } := by
  have hages : ∀ (i : ℕ) (s' : Socket Listener), w.disconnect.sockets[i]? = some s' →
      ∃ s, w.sockets[i]? = some s ∧ Ages s s' := by
    intro i s' hs'
    unfold disconnect at hs'
    split at hs'
    · exact ages_modify ages_close _ i s' hs'
    · exact ⟨s', hs', .refl s'⟩
  refine ⟨?_, ?_, ?_, ?_, ?_⟩
  · intro i s' hs'
    obtain ⟨s, hs, hhandler, -⟩ := hages i s' hs'
    rw [hhandler]
    exact Nat.le_succ_of_le (h.bounded i s hs)
  · intro i s' hs' hgen _
    obtain ⟨s, hs, hhandler, -⟩ := hages i s' hs'
    have hle := h.bounded i s hs
    have hsucc : s'.handler.generation = w.client.connectionGeneration + 1 := hgen
    rw [hhandler] at hsucc
    omega
  · intro i s' hs' hlive
    obtain ⟨s, hs, -, -, hlive'⟩ := hages i s' hs'
    have hsocket := h.live i s hs (hlive' hlive)
    -- that socket is closed now
    have hclosed : (w.sockets.modify i (·.close))[i]? = some s' := by
      have heq : w.disconnect.sockets = w.sockets.modify i (·.close) := by
        unfold disconnect
        rw [hsocket]
      exact heq ▸ hs'
    rw [getElem?_modify_self hs] at hclosed
    obtain rfl : s.close = s' := some.inj hclosed
    rw [Socket.close_live] at hlive
    cases hlive
  · intro j job hj hphase
    exact absurd hphase (not_delayed_of_cancel h hj)
  · intro _
    refine ⟨rfl, fun job hmem => ?_⟩
    obtain ⟨j, hj⟩ := getElem?_of_mem hmem
    have hdelayed := not_delayed_of_cancel h hj
    have hnot := not_woken_of_cancel hwoken hj
    cases hphase : job.phase with
    | delayed => exact absurd hphase hdelayed
    | woken => exact absurd hphase hnot
    | finished => rfl

theorem oneSocketOk_scheduleReconnect (hawake : w.resting = false) (maxAttempts : ℕ) :
    OneSocketOk (w.scheduleReconnect maxAttempts) := by
  unfold scheduleReconnect
  split
  · exact h
  · split
    · exact h
    · refine ⟨h.bounded, h.own, h.live, ?_, fun hr => absurd (hawake ▸ hr) Bool.false_ne_true⟩
      intro j job hj hphase
      rcases getElem?_push hj with hold | ⟨rfl, -⟩
      · exact absurd hphase (not_delayed_of_cancel h hold)
      · rw [length_cancelReconnect]

omit h in
/-- The connection of the client is over, and the client does not rest. -/
structure Gone (w : World Payload) : Prop where
  dead : ∀ (i : ℕ) (s : Socket Listener), w.sockets[i]? = some s → s.live = false
  reported : ∀ (i : ℕ) (s : Socket Listener), w.sockets[i]? = some s →
    s.handler.generation = w.client.connectionGeneration → s.reported = true
  awake : w.resting = false

theorem oneSocketOk_handleClosed (hgone : w.isCurrentGeneration generation = true → Gone w)
    (maxAttempts : ℕ) : OneSocketOk (w.handleClosed maxAttempts generation) := by
  unfold handleClosed
  split
  · rename_i hcurrent
    obtain ⟨hdead, hreported, hawake⟩ := hgone hcurrent
    split
    · exact h
    · have hclosed : OneSocketOk { w with
          client :=
            { w.client with
              socket := none
              rooms := w.client.rooms.unsubscribe
              connectionId := none
              status := .disconnected } } := by
        refine ⟨h.bounded, ?_, ?_, h.jobs, fun hr => absurd (hawake ▸ hr) Bool.false_ne_true⟩
        · intro i s hs hgen hnot
          rw [hreported i s hs hgen] at hnot
          cases hnot
        · intro i s hs hlive
          rw [hdead i s hs] at hlive
          cases hlive
      dsimp only
      split
      · exact hclosed
      · exact oneSocketOk_scheduleReconnect hclosed hawake _
  · exact h

theorem oneSocketOk_handleFailure (hgone : w.isCurrentGeneration generation = true → Gone w)
    (maxAttempts : ℕ) (message : Option String) :
    OneSocketOk (w.handleFailure maxAttempts generation message) := by
  unfold handleFailure
  split
  · have hframe : Frame w { w with
        client :=
          { w.client with
            lastError := some (message.getD "WebSocket 连接异常")
            status := .error } } :=
      ⟨rfl, rfl, rfl, rfl, rfl, rfl, fun _ s h => ⟨s, h, .refl s⟩⟩
    refine oneSocketOk_handleClosed (h.frame hframe) (fun hcurrent => ?_) _
    obtain ⟨hdead, hreported, hawake⟩ := hgone hcurrent
    exact ⟨hdead, hreported, hawake⟩
  · exact h

variable (hs : w.sockets[i]? = some s)

include hs

variable (hopen : s.reported = false)

include hopen

/-- The last callback of a socket of the current generation: the connection is over. -/
theorem gone_report (hcurrent : w.isCurrentGeneration s.handler.generation = true) :
    Gone { w with sockets := w.sockets.modify i (·.report) } := by
  have hsocket := h.own i s hs (of_decide_eq_true hcurrent) hopen
  have hcases : ∀ (k : ℕ) s', (w.sockets.modify i (·.report))[k]? = some s' →
      s' = s.report ∨ (w.sockets[k]? = some s' ∧ w.client.socket ≠ some k) := by
    intro k s' hs'
    rw [getElem?_modify] at hs'
    obtain ⟨s₀, hs₀, hsame⟩ := map_eq_some_iff.1 hs'
    by_cases hk : i = k
    · subst hk
      rw [if_pos rfl] at hsame
      rw [hs] at hs₀
      cases hs₀
      exact .inl hsame.symm
    · rw [if_neg hk] at hsame
      subst hsame
      exact .inr ⟨hs₀, fun hsome => hk (some.inj (hsocket.symm.trans hsome))⟩
  refine ⟨?_, ?_, ?_⟩
  · intro k s' hs'
    rcases hcases k s' hs' with rfl | ⟨hold, hne⟩
    · exact s.report_live
    · exact Bool.eq_false_iff.2 fun hlive => hne (h.live k s' hold hlive)
  · intro k s' hs' hgen
    rcases hcases k s' hs' with rfl | ⟨hold, hne⟩
    · exact s.report_reported
    · by_contra hnot
      exact hne (h.own k s' hold hgen (Bool.eq_false_iff.2 hnot))
  · refine Bool.eq_false_iff.2 fun hrest => ?_
    rw [(h.rest hrest).1] at hsocket
    cases hsocket

/-! ## Callbacks -/

theorem oneSocketOk_callbackEnd (maxAttempts : ℕ) (message : Option String) :
    OneSocketOk ({ w with sockets := w.sockets.modify i (·.report) }.handleFailure maxAttempts
      s.handler.generation message) :=
  oneSocketOk_handleFailure (h.frame (frame_modify ages_report i))
    (fun hcurrent => gone_report h hs hopen hcurrent) _ _

theorem oneSocketOk_receive (text : String) : OneSocketOk (w.receive P i s text) := by
  unfold receive
  split
  · rename_i w' hw'
    exact h.frame (frame_handleTextFrame hw')
  · exact oneSocketOk_callbackEnd h hs hopen _ _

theorem oneSocketOk_answer : OneSocketOk (w.answer P i s) := by
  cases hrequests : s.requests with
  | nil =>
    rw [answer_nil hrequests]
    exact h
  | cons request requests =>
    rw [answer_cons hrequests]
    exact oneSocketOk_receive (w := { w with sockets := _ }) (s := s.answered)
      (h.frame (frame_modify ages_answered i)) (getElem?_modify_self hs _) hopen _

theorem oneSocketOk_handleOpen (token : String) :
    OneSocketOk (w.handleOpen s.handler.generation i token) := by
  unfold handleOpen
  split
  · rename_i hcurrent
    have hsocket := h.own i s hs (of_decide_eq_true hcurrent) hopen
    refine h.frame (Frame.trans ?_ (frame_send _))
    exact ⟨hsocket.symm, rfl, rfl, rfl, rfl, rfl, fun _ s h => ⟨s, h, .refl s⟩⟩
  · exact h.frame (frame_modify ages_close i)

omit hopen

omit hs

theorem oneSocketOk_jobs {f : ReconnectJob → ReconnectJob} (hawake : w.resting = false)
    (hf : ∀ job, (f job).phase ≠ .delayed) (j : ℕ) :
    OneSocketOk { w with jobs := w.jobs.modify j f } := by
  refine ⟨h.bounded, h.own, h.live, ?_, fun hr => absurd (hawake ▸ hr) Bool.false_ne_true⟩
  intro k job hk hphase
  rw [getElem?_modify] at hk
  obtain ⟨job', hjob', hsame⟩ := map_eq_some_iff.1 hk
  split at hsame
  · subst hsame
    exact absurd hphase (hf job')
  · subst hsame
    exact h.jobs k job' hjob' hphase

theorem awake_of_job (hjob : w.jobs[j]? = some job) (hphase : job.phase ≠ .finished) :
    w.resting = false :=
  Bool.eq_false_iff.2 fun hrest => hphase ((h.rest hrest).2 job (mem_of_getElem? hjob))

/-- Every act that the condition admits keeps it. -/
theorem oneSocketOk_act {a : Act} (hG : OneSocketAdmitted w a) (hact : w.act P a = some w') :
    OneSocketOk w' := by
  cases a with
  | connect token =>
    simp only [act, some.injEq] at hact
    subst hact
    rw [← connect_awake]
    exact oneSocketOk_connect h.awake rfl hG
  | disconnect =>
    simp only [act, some.injEq] at hact
    subst hact
    exact oneSocketOk_disconnect h hG
  | ensureRooms roomIds pruneMissing =>
    simp only [act, some.injEq] at hact
    subst hact
    exact h.frame (frame_ensureRooms _ _)
  | onOpen i =>
    simp only [act] at hact
    obtain ⟨s, hs, -, hopen, rfl⟩ := callback_eq hact
    have hstep := oneSocketOk_handleOpen (w := { w with sockets := _ }) (s := s.handshake)
      (h.frame (frame_modify ages_handshake i)) (getElem?_modify_self hs _)
      (by simpa using hopen) s.handler.token
    rwa [Socket.handshake_handler] at hstep
  | onMessage i text =>
    simp only [act] at hact
    obtain ⟨s, hs, -, hopen, rfl⟩ := callback_eq hact
    exact oneSocketOk_receive h hs hopen text
  | answer i =>
    simp only [act] at hact
    obtain ⟨s, hs, -, hopen, rfl⟩ := callback_eq hact
    exact oneSocketOk_answer h hs hopen
  | onClosing i =>
    simp only [act] at hact
    obtain ⟨s, -, -, -, rfl⟩ := callback_eq hact
    exact h.frame (frame_handleClosing _)
  | onClosed i =>
    simp only [act] at hact
    obtain ⟨s, hs, -, hopen, rfl⟩ := callback_eq hact
    exact oneSocketOk_handleClosed (h.frame (frame_modify ages_report i))
      (fun hcurrent => gone_report h hs hopen hcurrent) _
  | onFailure i message =>
    simp only [act] at hact
    obtain ⟨s, hs, -, hopen, rfl⟩ := callback_eq hact
    exact oneSocketOk_callbackEnd h hs hopen _ _
  | drop i =>
    simp only [act] at hact
    obtain ⟨s, -, -, -, rfl⟩ := callback_eq hact
    exact h.frame (frame_modify ages_drop i)
  | wake j =>
    simp only [act] at hact
    obtain ⟨job, hjob, hphase, rfl⟩ := resume_eq hact
    refine oneSocketOk_jobs h (awake_of_job h hjob ?_) (fun job => ?_) j
    · simp [hphase]
    · simp
  | reconnect j =>
    simp only [act] at hact
    obtain ⟨job, hjob, hphase, rfl⟩ := resume_eq hact
    have hawake := awake_of_job h hjob (by simp [hphase])
    exact oneSocketOk_connect (w := { w with jobs := _ })
      (oneSocketOk_jobs h hawake (fun job => by simp) j) hawake (hG job hjob)

/-- What a callback of a socket does that is not the client's own: nothing. -/
theorem act_stale {a : Act} (hact : w.act P a = some w') (hcall : a.callbackOf = some i)
    (hne : w.client.socket ≠ some i) :
    w'.client = w.client ∧ w'.sockets.length = w.sockets.length ∧
      w'.dispatched = w.dispatched ∧ w'.resting = w.resting := by
  have hstale {s : Socket Listener} (hs : w.sockets[i]? = some s) (hopen : s.reported = false) :
      ¬(s.handler.generation = w.client.connectionGeneration) :=
    fun hgen => hne (h.own i s hs hgen hopen)
  have hreceive {v : World Payload} {s : Socket Listener} (text : String)
      (hgen : ¬(s.handler.generation = v.client.connectionGeneration)) :
      v.receive P i s text = v := by
    simp [receive, handleTextFrame, isCurrentGeneration, hgen]
  cases a with
  | onOpen k =>
    cases hcall
    obtain ⟨s, hs, -, hopen, rfl⟩ := callback_eq hact
    simp [handleOpen, isCurrentGeneration, hstale hs hopen]
  | onMessage k text =>
    cases hcall
    simp only [act] at hact
    obtain ⟨s, hs, -, hopen, rfl⟩ := callback_eq hact
    rw [hreceive text (hstale hs hopen)]
    exact ⟨rfl, rfl, rfl, rfl⟩
  | answer k =>
    obtain rfl := some.inj hcall
    obtain ⟨s, hs, -, hopen, rfl⟩ := callback_eq hact
    cases hrequests : s.requests with
    | nil =>
      rw [answer_nil hrequests]
      exact ⟨rfl, rfl, rfl, rfl⟩
    | cons request requests =>
      rw [answer_cons hrequests, hreceive
        (v := { w with sockets := w.sockets.modify k (·.answered) }) _ (hstale hs hopen)]
      exact ⟨rfl, length_modify .., rfl, rfl⟩
  | onClosing k =>
    cases hcall
    simp only [act] at hact
    obtain ⟨s, hs, -, hopen, rfl⟩ := callback_eq hact
    simp [handleClosing, isCurrentGeneration, hstale hs hopen]
  | onClosed k =>
    cases hcall
    simp only [act] at hact
    obtain ⟨s, hs, -, hopen, rfl⟩ := callback_eq hact
    simp [handleClosed, isCurrentGeneration, hstale hs hopen]
  | onFailure k message =>
    cases hcall
    simp only [act] at hact
    obtain ⟨s, hs, -, hopen, rfl⟩ := callback_eq hact
    simp [handleFailure, isCurrentGeneration, hstale hs hopen]
  | _ => cases hcall

/-- A client that rests opens nothing and dispatches nothing. -/
theorem act_resting {a : Act} (hact : w.act P a = some w')
    (hconnects : (socketView Payload).connects a = false) (hrest : w.resting = true) :
    w'.resting = true ∧ w'.sockets.length = w.sockets.length ∧
      w'.dispatched.length = w.dispatched.length := by
  obtain ⟨hnone, hover⟩ := h.rest hrest
  have hstale {i : ℕ} (hcall : a.callbackOf = some i) : w'.resting = true ∧
      w'.sockets.length = w.sockets.length ∧ w'.dispatched.length = w.dispatched.length := by
    obtain ⟨-, hcount, hdispatched, hresting⟩ := act_stale h hact hcall (by simp [hnone])
    exact ⟨hresting.trans hrest, hcount, by rw [hdispatched]⟩
  cases a with
  | connect token => cases hconnects
  | disconnect =>
    simp only [act, some.injEq] at hact
    subst hact
    refine ⟨rfl, ?_, congrArg length (sameEvents_disconnect (w := w)).2⟩
    unfold disconnect
    simp only [hnone]
  | ensureRooms roomIds pruneMissing =>
    simp only [act, some.injEq] at hact
    subst hact
    have hframe := frame_ensureRooms (w := w) roomIds pruneMissing
    exact ⟨hframe.resting.trans hrest, hframe.count,
      by rw [(sameEvents_ensureRooms (w := w) roomIds pruneMissing).2]⟩
  | drop i =>
    simp only [act] at hact
    obtain ⟨s, -, -, -, rfl⟩ := callback_eq hact
    exact ⟨hrest, length_modify .., rfl⟩
  | wake | reconnect =>
    simp only [act] at hact
    obtain ⟨job, hjob, hphase, rfl⟩ := resume_eq hact
    rw [hover job (mem_of_getElem? hjob)] at hphase
    cases hphase
  | _ => exact hstale rfl

omit h

theorem oneSocketOk_new : OneSocketOk (new : World Payload) := by
  refine ⟨?_, ?_, ?_, ?_, fun hfalse => absurd hfalse Bool.false_ne_true⟩
  · exact fun _ _ hs => absurd hs (by simp [new])
  · exact fun _ _ hs => absurd hs (by simp [new])
  · exact fun _ _ hs => absurd hs (by simp [new])
  · exact fun _ _ hj => absurd hj (by simp [new])

end

/-- The client of the Android app has one socket at a time, in every run that the condition
admits. -/
theorem oneSocketKept (P : Setting Payload) : OneSocketKept P OneSocketAdmitted := by
  intro w hreach
  refine SingleSocket.of_invariant (I := OneSocketOk)
    (fun w a w' h hG hact => oneSocketOk_act h hG hact) ?_ ?_ ?_ oneSocketOk_new hreach
  · rintro w h i j ⟨s, hs, hlive⟩ ⟨t, ht, hlive'⟩
    exact some.inj ((h.live i s hs hlive).symm.trans (h.live j t ht hlive'))
  · intro w a w' i j h _ hact hcall hcurrent hne
    have hother : w.client.socket ≠ some i :=
      fun hi => hne (some.inj (hi.symm.trans hcurrent))
    obtain ⟨hclient, -⟩ := act_stale h hact hcall hother
    exact (congrArg RedCodeWebSocketClient.socket hclient).trans hcurrent
  · exact fun w a w' h _ hact hconnects hrest => act_resting h hact hconnects hrest

/-! ## A second socket -/

/-- A join is refused, and the app connects again. -/
def connectedAgain : List Act :=
  [.connect "token", .onOpen 0, .answer 0, .ensureRooms ["9"] false, .answer 0, .connect "token"]

theorem not_oneSocketKept : ¬OneSocketKept sampleSetting fun _ _ => True := by
  intro h
  have hrun : ((Machine.perform (act sampleSetting) connectedAgain .new).map fun w =>
      w.sockets.map (·.live)) = some [true, true] := by
    decide +kernel
  obtain ⟨w, hw, hlive⟩ := map_eq_some_iff.1 hrun
  have hsocket (i : ℕ) (hi : [true, true][i]? = some true) :
      (socketView (List (String × String))).live w i := by
    rw [← hlive, getElem?_map] at hi
    exact map_eq_some_iff.1 hi
  have hone := (h w (.of_perform (fun _ _ => trivial) hw)).one 0 1 (hsocket 0 rfl) (hsocket 1 rfl)
  cases hone

end RedcodeIm.Android
