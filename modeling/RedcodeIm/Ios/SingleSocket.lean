import RedcodeIm.Ios.WebSocketClient
import RedcodeIm.Realtime.SingleSocket

/-!
# One socket at a time, in the iOS app

A task goes on with whatever transport the actor has by then, and closes that one: a second
connection must not be begun before all that belongs to the first has come to its end.  An `error`
frame lets `connect` begin one; `disconnect` does not wait for a connection that is being opened,
nor for a frame that has been received.

* `OneSocketAdmitted` — a transport is opened only where there is none and nothing of an earlier one
  goes on, and a `disconnect` overlaps with no `connect` and with no frame.
* `OneSocketOk`, `oneSocketOk_act` — what every act keeps.
* `oneSocketKept` — one socket at a time, in every run that the condition admits.
-/

namespace RedcodeIm.Ios

open Realtime SocketWorld Bool Option

/-! ## What is expected -/

namespace SocketStage

/-- A connection is being opened. -/
def connecting : SocketStage → Bool
  | .dialing .. | .dialed .. | .authing .. => true
  | _ => false

/-- A frame is being processed. -/
def heeding : SocketStage → Bool
  | .received .. | .sending _ (.frame _ _) => true
  | _ => false

/-- A `disconnect` waits for the transport to be closed. -/
def leaving : SocketStage → Bool
  | .disconnecting _ => true
  | _ => false

/-- Nothing of a connection goes on. -/
def quiet : SocketStage → Bool
  | .finished | .sleeping _ | .sending _ .caller => true
  | _ => false

/-- The transport that has called back. -/
def socket : SocketStage → Option ℕ
  | .dialing i _ _ | .dialed i _ _ | .authing i _ _ | .listening i | .received i _
  | .sending _ (.frame i _) | .closing i _ _ => some i
  | _ => none

end SocketStage

def socketView : SocketView SocketWorld SocketAct where
  live w i := ∃ s, w.transports[i]? = some s ∧ s.live = true
  current w := w.client.transport
  opened w := w.dials
  dispatched w := w.dispatched.length
  resting w := w.resting
  callbackOf w
    | .run k _ => (w.tasks[k]?).bind fun task => task.stage.socket
    | _ => none
  connects
    | .connect _ => true
    | _ => false

/-- There is one socket at a time in every run. -/
def OneSocketKept (P : SocketSetting) (G : SocketWorld → SocketAct → Prop) : Prop :=
  ∀ w, Machine.Reach (act P) G .new w → SingleSocket (act P) G socketView w

/-- The actor has no transport, and nothing of one goes on. -/
def SocketWorld.free (w : SocketWorld) : Prop :=
  w.client.transport = none ∧ ∀ task ∈ w.tasks, task.stage.quiet = true

/-- A transport is opened, by the app or after a wait, only where there is none and nothing of one
goes on; `disconnect` begins only while none is being opened, and ends only while no frame is being
processed. -/
def OneSocketAdmitted (P : SocketSetting) (w : SocketWorld) : SocketAct → Prop
  | .connect token => w.opens (token.or P.accessToken) = true → w.free
  | .disconnect => ∀ task ∈ w.tasks, task.stage.connecting = false
  | .run k _ => ∀ task, w.tasks[k]? = some task →
      (∀ token, task.stage = .sleeping token → task.isCancelled = false →
        w.client.manualClose = false → w.opens (some token) = true → w.free) ∧
      (task.stage.leaving = true → ∀ task' ∈ w.tasks, task'.stage.heeding = false)
  | _ => True

/-! ## What every act keeps -/

/-- A task goes on with the actor's own transport, or with the last one that it had. -/
def Fits (transport : Option ℕ) (manualClose : Bool) : SocketStage → Prop
  | .dialing i _ _ | .dialed i _ _ | .authing i _ _ | .received i _ | .sending _ (.frame i _) =>
    transport = some i
  | .listening i => transport = some i ∨ transport = none
  | .closing i closed _ => closed = i ∧ (transport = some i ∨ transport = none)
  | .disconnecting i => (transport = some i ∨ transport = none) ∧ manualClose = true
  | _ => True

/-- The task belongs to a connection. -/
def SocketStage.listens (stage : SocketStage) : Bool := !stage.quiet && !stage.leaving

/-- Only the actor's own transport is live; one task at most belongs to a connection; none opens one
while a `disconnect` goes on; and an actor that rests has no transport, and no task that would get
one or dispatch anything. -/
structure OneSocketOk (w : SocketWorld) : Prop where
  live : ∀ (i : ℕ) (s : Socket Unit), w.transports[i]? = some s → s.live = true →
    w.client.transport = some i
  alone : ∀ (k l : ℕ) (t u : SocketTask), w.tasks[k]? = some t → w.tasks[l]? = some u →
    t.stage.listens = true → u.stage.listens = true → k = l
  fits : ∀ t ∈ w.tasks, Fits w.client.transport w.client.manualClose t.stage
  apart : ∀ t ∈ w.tasks, ∀ u ∈ w.tasks, t.stage.connecting = true → u.stage.leaving = false
  rest : w.resting = true → w.client.transport = none ∧ w.client.manualClose = true ∧
    ∀ t ∈ w.tasks, t.stage.connecting = false ∧ t.stage.heeding = false

/-- The actor keeps its transport, the tasks keep their stages, and no transport comes to life. -/
structure Frame (w w' : SocketWorld) : Prop where
  transport : w'.client.transport = w.client.transport
  manualClose : w'.client.manualClose = w.client.manualClose
  resting : w'.resting = w.resting
  stages : w'.tasks.map (·.stage) = w.tasks.map (·.stage)
  live : ∀ (i : ℕ) (s' : Socket Unit), w'.transports[i]? = some s' → s'.live = true →
    ∃ s, w.transports[i]? = some s ∧ s.live = true

section

variable {P : SocketSetting} {w w' w'' : SocketWorld} {i k : ℕ} {t : SocketTask}

variable {stage : SocketStage}

theorem listens_of_connecting (h : stage.connecting = true) : stage.listens = true := by
  cases stage with
  | dialing | dialed | authing => rfl
  | _ => cases h

theorem listens_of_heeding (h : stage.heeding = true) : stage.listens = true := by
  cases stage with
  | received i text => rfl
  | sending s after =>
    cases after with
    | caller => cases h
    | frame i event => rfl
  | _ => cases h

theorem Frame.refl (w : SocketWorld) : Frame w w :=
  ⟨rfl, rfl, rfl, rfl, fun _ s hs hlive => ⟨s, hs, hlive⟩⟩

theorem Frame.trans (h : Frame w w') (h' : Frame w' w'') : Frame w w'' := by
  refine ⟨h'.transport.trans h.transport, h'.manualClose.trans h.manualClose,
    h'.resting.trans h.resting, h'.stages.trans h.stages, ?_⟩
  intro i s'' hs'' hlive''
  obtain ⟨s', hs', hlive'⟩ := h'.live i s'' hs'' hlive''
  exact h.live i s' hs' hlive'

theorem Frame.of_client (htransport : w'.client.transport = w.client.transport)
    (hmanual : w'.client.manualClose = w.client.manualClose) (hresting : w'.resting = w.resting)
    (htasks : w'.tasks = w.tasks) (htransports : w'.transports = w.transports) : Frame w w' :=
  ⟨htransport, hmanual, hresting, congrArg _ htasks,
    fun _ s hs hlive => ⟨s, htransports ▸ hs, hlive⟩⟩

variable {u : SocketTask}

theorem Frame.task (h : Frame w w') (hu : w'.tasks[k]? = some u) :
    ∃ t, w.tasks[k]? = some t ∧ t.stage = u.stage := by
  have hmap := congrArg (·[k]?) h.stages
  simp only [List.getElem?_map, hu, map_some] at hmap
  exact map_eq_some_iff.1 hmap.symm

theorem Frame.task_mem (h : Frame w w') (hu : u ∈ w'.tasks) : ∃ t ∈ w.tasks, t.stage = u.stage := by
  obtain ⟨k, hk⟩ := List.getElem?_of_mem hu
  obtain ⟨t, ht, hstage⟩ := h.task hk
  exact ⟨t, List.mem_of_getElem? ht, hstage⟩

theorem OneSocketOk.frame (h : OneSocketOk w) (hframe : Frame w w') : OneSocketOk w' := by
  refine ⟨?_, ?_, ?_, ?_, ?_⟩
  · intro i s' hs' hlive'
    obtain ⟨s, hs, hlive⟩ := hframe.live i s' hs' hlive'
    rw [hframe.transport]
    exact h.live i s hs hlive
  · intro k l t' u' ht' hu' htl hul
    obtain ⟨t, ht, hts⟩ := hframe.task ht'
    obtain ⟨u, hu, hus⟩ := hframe.task hu'
    exact h.alone k l t u ht hu (hts ▸ htl) (hus ▸ hul)
  · intro t' ht'
    obtain ⟨t, ht, hts⟩ := hframe.task_mem ht'
    rw [hframe.transport, hframe.manualClose, ← hts]
    exact h.fits t ht
  · intro t' ht' u' hu' hc
    obtain ⟨t, ht, hts⟩ := hframe.task_mem ht'
    obtain ⟨u, hu, hus⟩ := hframe.task_mem hu'
    rw [← hus]
    exact h.apart t ht u hu (hts ▸ hc)
  · intro hr
    rw [hframe.resting] at hr
    obtain ⟨htransport, hmanual, hall⟩ := h.rest hr
    refine ⟨hframe.transport.trans htransport, hframe.manualClose.trans hmanual, ?_⟩
    intro t' ht'
    obtain ⟨t, ht, hts⟩ := hframe.task_mem ht'
    rw [← hts]
    exact hall t ht

/-- What is found among the tasks once one of them has another stage. -/
theorem task_setStage {l : ℕ} (hu : (w.setStage k stage).tasks[l]? = some u) :
    (l = k ∧ u.stage = stage) ∨ (l ≠ k ∧ w.tasks[l]? = some u) := by
  unfold setStage at hu
  rw [List.getElem?_modify] at hu
  obtain ⟨t, ht, hsame⟩ := map_eq_some_iff.1 hu
  by_cases hkl : k = l
  · rw [if_pos hkl] at hsame
    exact .inl ⟨hkl.symm, hsame ▸ rfl⟩
  · rw [if_neg hkl] at hsame
    exact .inr ⟨fun h => hkl h.symm, hsame ▸ ht⟩

theorem task_setStage_mem (hu : u ∈ (w.setStage k stage).tasks) :
    u.stage = stage ∨ u ∈ w.tasks := by
  obtain ⟨l, hl⟩ := List.getElem?_of_mem hu
  rcases task_setStage hl with ⟨-, hstage⟩ | ⟨-, hold⟩
  · exact .inl hstage
  · exact .inr (List.mem_of_getElem? hold)

/-- A task goes on to another stage. -/
theorem OneSocketOk.setStage (h : OneSocketOk w)
    (hlistens : stage.listens = true → ∀ (l : ℕ) (u : SocketTask), w.tasks[l]? = some u →
      u.stage.listens = true → l = k)
    (hconnecting : stage.connecting = true → ∀ u ∈ w.tasks, u.stage.leaving = false)
    (hleaving : stage.leaving = false) (hfits : Fits w.client.transport w.client.manualClose stage)
    (hrest : w.resting = true → stage.connecting = false ∧ stage.heeding = false) :
    OneSocketOk (w.setStage k stage) := by
  refine ⟨h.live, ?_, ?_, ?_, ?_⟩
  · intro l m u v hu hv hul hvl
    rcases task_setStage hu with ⟨hl, hus⟩ | ⟨-, hu'⟩ <;>
      rcases task_setStage hv with ⟨hm, hvs⟩ | ⟨-, hv'⟩
    · exact hl.trans hm.symm
    · exact hl.trans (hlistens (hus ▸ hul) m v hv' hvl).symm
    · exact (hlistens (hvs ▸ hvl) l u hu' hul).trans hm.symm
    · exact h.alone l m u v hu' hv' hul hvl
  · intro u hu
    rcases task_setStage_mem hu with hus | hu
    · exact hus ▸ hfits
    · exact h.fits u hu
  · intro u hu v hv hc
    rcases task_setStage_mem hv with hvs | hv
    · exact hvs ▸ hleaving
    · rcases task_setStage_mem hu with hus | hu
      · exact hconnecting (hus ▸ hc) v hv
      · exact h.apart u hu v hv hc
  · intro hr
    obtain ⟨htransport, hmanual, hall⟩ := h.rest hr
    refine ⟨htransport, hmanual, fun u hu => ?_⟩
    rcases task_setStage_mem hu with hus | hu
    · exact hus ▸ hrest hr
    · exact hall u hu

/-- A task goes on to a stage that claims nothing. -/
theorem OneSocketOk.setQuiet (h : OneSocketOk w) (hquiet : stage.quiet = true) (k : ℕ) :
    OneSocketOk (w.setStage k stage) := by
  have hfits : Fits w.client.transport w.client.manualClose stage := by
    cases stage with
    | sending s after =>
      cases after with
      | caller => trivial
      | frame i event => cases hquiet
    | finished | sleeping => trivial
    | _ => cases hquiet
  have hrest : stage.connecting = false ∧ stage.heeding = false ∧ stage.leaving = false := by
    cases stage with
    | sending s after =>
      cases after with
      | caller => exact ⟨rfl, rfl, rfl⟩
      | frame i event => cases hquiet
    | finished | sleeping => exact ⟨rfl, rfl, rfl⟩
    | _ => cases hquiet
  obtain ⟨hconnecting, hheeding, hleaving⟩ := hrest
  refine h.setStage (fun hl => ?_) (fun hc => ?_) hleaving hfits fun _ => ⟨hconnecting, hheeding⟩
  · unfold SocketStage.listens at hl
    rw [hquiet] at hl
    cases hl
  · rw [hconnecting] at hc
    cases hc

/-- A new task. -/
theorem OneSocketOk.spawn (h : OneSocketOk w)
    (hlistens : stage.listens = true → ∀ u ∈ w.tasks, u.stage.listens = false)
    (hconnecting : stage.connecting = true → ∀ u ∈ w.tasks, u.stage.leaving = false)
    (hleaving : stage.leaving = true → ∀ u ∈ w.tasks, u.stage.connecting = false)
    (happart : stage.connecting = true → stage.leaving = false)
    (hfits : Fits w.client.transport w.client.manualClose stage)
    (hrest : w.resting = true → stage.connecting = false ∧ stage.heeding = false) :
    OneSocketOk (w.spawn stage) := by
  have hmem {u : SocketTask} (hu : u ∈ (w.spawn stage).tasks) : u ∈ w.tasks ∨ u.stage = stage := by
    rcases List.mem_append.1 hu with hu | hu
    · exact .inl hu
    · exact .inr (List.mem_singleton.1 hu ▸ rfl)
  refine ⟨h.live, ?_, ?_, ?_, ?_⟩
  · intro k l u v hu hv hul hvl
    rcases getElem?_push hu with hu | ⟨rfl, rfl⟩ <;> rcases getElem?_push hv with hv | ⟨rfl, rfl⟩
    · exact h.alone k l u v hu hv hul hvl
    · have hnot := hlistens hvl u (List.mem_of_getElem? hu)
      rw [hnot] at hul
      cases hul
    · have hnot := hlistens hul v (List.mem_of_getElem? hv)
      rw [hnot] at hvl
      cases hvl
    · rfl
  · intro u hu
    rcases hmem hu with hu | hus
    · exact h.fits u hu
    · exact hus ▸ hfits
  · intro u hu v hv hc
    rcases hmem hu with hu | hus <;> rcases hmem hv with hv | hvs
    · exact h.apart u hu v hv hc
    · refine eq_false_iff.2 fun hl => ?_
      rw [hleaving (hvs ▸ hl) u hu] at hc
      cases hc
    · exact hconnecting (hus ▸ hc) v hv
    · exact hvs ▸ happart (hus ▸ hc)
  · intro hr
    obtain ⟨htransport, hmanual, hall⟩ := h.rest hr
    refine ⟨htransport, hmanual, fun u hu => ?_⟩
    rcases hmem hu with hu | hus
    · exact hall u hu
    · exact hus ▸ hrest hr

/-! ## Its functions -/

theorem oneSocketOk_reconnect (h : OneSocketOk w) (k : ℕ) :
    OneSocketOk (w.reconnectIfNeeded P k) := by
  unfold reconnectIfNeeded
  split
  · exact h.setQuiet rfl k
  · split
    · exact h.setQuiet rfl k
    · split
      · refine OneSocketOk.setQuiet (h.frame ?_) rfl k
        exact .of_client rfl rfl rfl rfl rfl
      · refine OneSocketOk.setQuiet (h.frame ?_) rfl k
        exact .of_client rfl rfl rfl rfl rfl

theorem oneSocketOk_failConnect (h : OneSocketOk w) (k : ℕ) (again : Bool) :
    OneSocketOk (w.failConnect P k again) := by
  unfold failConnect
  split
  · exact oneSocketOk_reconnect h k
  · exact h.setQuiet rfl k

/-- Without a live transport, and without a task that counts on one, the actor lets go of it. -/
theorem OneSocketOk.detach (h : OneSocketOk w)
    (hdead : ∀ (i : ℕ) (s : Socket Unit), w.transports[i]? = some s → s.live = false)
    (hquiet : ∀ u ∈ w.tasks, u.stage.connecting = false ∧ u.stage.heeding = false)
    (htransport : w'.client.transport = none)
    (hmanual : w'.client.manualClose = w.client.manualClose) (htasks : w'.tasks = w.tasks)
    (htransports : w'.transports = w.transports)
    (hrest : w'.resting = true → w'.client.manualClose = true) : OneSocketOk w' := by
  refine ⟨?_, htasks ▸ h.alone, ?_, htasks ▸ h.apart,
    fun hr => ⟨htransport, hrest hr, htasks ▸ hquiet⟩⟩
  · intro i s hs hlive
    rw [hdead i s (htransports ▸ hs)] at hlive
    cases hlive
  · intro u hu
    rw [htasks] at hu
    obtain ⟨hc, hh⟩ := hquiet u hu
    have hfits := h.fits u hu
    rw [htransport, hmanual]
    cases hstage : u.stage with
    | sending s after =>
      cases after with
      | caller => trivial
      | frame i event =>
        rw [hstage] at hh
        cases hh
    | listening i => exact .inr rfl
    | closing i closed message =>
      rw [hstage] at hfits
      exact ⟨hfits.1, .inr rfl⟩
    | disconnecting i =>
      rw [hstage] at hfits
      exact ⟨.inr rfl, hfits.2⟩
    | received i text => rw [hstage] at hh; cases hh
    | starting | sleeping | finished => trivial
    | _ => rw [hstage] at hc; cases hc

/-- Where a task belongs to the connection, no other one does. -/
theorem quiet_of_alone (h : OneSocketOk w) (hk : w.tasks[k]? = some t)
    (hlistens : t.stage.listens = true) (hconnecting : t.stage.connecting = false)
    (hheeding : t.stage.heeding = false) :
    ∀ u ∈ w.tasks, u.stage.connecting = false ∧ u.stage.heeding = false := by
  intro u hu
  obtain ⟨l, hl⟩ := List.getElem?_of_mem hu
  by_cases hul : u.stage.listens = true
  · obtain rfl := h.alone l k u t hl hk hul hlistens
    cases hl.symm.trans hk
    exact ⟨hconnecting, hheeding⟩
  · exact ⟨eq_false_iff.2 fun hc => hul (listens_of_connecting hc),
      eq_false_iff.2 fun hh => hul (listens_of_heeding hh)⟩

theorem oneSocketOk_finishClosed (h : OneSocketOk w)
    (hdead : ∀ (i : ℕ) (s : Socket Unit), w.transports[i]? = some s → s.live = false)
    (hquiet : ∀ u ∈ w.tasks, u.stage.connecting = false ∧ u.stage.heeding = false) (k : ℕ)
    (message : String) : OneSocketOk (w.finishClosed P k message) := by
  have hclosed : OneSocketOk { w with
      client :=
        { w.client with
          transport := none
          rooms := w.client.rooms.unsubscribe
          connectionID := none
          status := .disconnected } } :=
    h.detach hdead hquiet rfl rfl rfl rfl fun hr => (h.rest hr).2.1
  unfold finishClosed
  dsimp only
  split
  · exact hclosed.setQuiet rfl k
  · refine oneSocketOk_reconnect (hclosed.frame ?_) k
    exact .of_client rfl rfl rfl rfl rfl

theorem oneSocketOk_handleTransportClosed (h : OneSocketOk w) (hk : w.tasks[k]? = some t)
    (hlistens : t.stage.listens = true) (hconnecting : t.stage.connecting = false)
    (hheeding : w.client.transport = none → t.stage.heeding = false)
    (hsocket : w.client.transport = some i ∨ w.client.transport = none) (message : String) :
    OneSocketOk (w.handleTransportClosed P k i message) := by
  unfold handleTransportClosed
  split
  · rename_i transport htransport
    refine h.setStage (fun _ l u hu hul => h.alone l k u t hu hk hul hlistens)
      (fun hfalse => absurd hfalse false_ne_true) rfl ⟨?_, hsocket⟩ fun _ => ⟨rfl, rfl⟩
    rcases hsocket with hsome | hnone
    · exact some.inj (htransport.symm.trans hsome)
    · rw [htransport] at hnone
      cases hnone
  · rename_i hnone
    refine oneSocketOk_finishClosed h ?_ (quiet_of_alone h hk hlistens hconnecting (hheeding hnone))
      k message
    intro j s hs
    refine eq_false_iff.2 fun hlive => ?_
    rw [h.live j s hs hlive] at hnone
    cases hnone

theorem oneSocketOk_receiveLoop (h : OneSocketOk w) (hk : w.tasks[k]? = some t)
    (hlistens : t.stage.listens = true) (isCancelled : Bool) :
    OneSocketOk (w.receiveLoop k isCancelled) := by
  unfold receiveLoop
  split
  · rename_i i hi
    exact h.setStage (fun _ l u hu hul => h.alone l k u t hu hk hul hlistens)
      (fun hfalse => absurd hfalse false_ne_true) rfl (.inl hi) fun _ => ⟨rfl, rfl⟩
  · exact h.setQuiet rfl k

theorem oneSocketOk_finishFrame (h : OneSocketOk w) (hk : w.tasks[k]? = some t)
    (hlistens : t.stage.listens = true) (isCancelled : Bool) (event : WebSocketServerEvent) :
    OneSocketOk (w.finishFrame P k isCancelled event) := by
  refine oneSocketOk_receiveLoop (t := t) (h.frame ?_) ?_ hlistens isCancelled
  · exact .of_client rfl rfl rfl rfl rfl
  · exact hk

theorem oneSocketOk_afterEnsure {r : SocketWorld × Option Sending} {after : AfterSending}
    (h : OneSocketOk r.1) (hk : r.1.tasks[k]? = some t)
    (hafter : ∀ i event, after = .frame i event → r.1.client.transport = some i ∧
      t.stage.listens = true ∧ r.1.resting = false) (isCancelled : Bool) :
    OneSocketOk (afterEnsure P k isCancelled after r) := by
  obtain ⟨w, next⟩ := r
  cases after with
  | caller =>
    cases next with
    | _ => exact h.setQuiet rfl k
  | frame i event =>
    obtain ⟨htransport, hlistens, hawake⟩ := hafter i event rfl
    cases next with
    | none => exact oneSocketOk_finishFrame h hk hlistens isCancelled event
    | some sending =>
      exact h.setStage (fun _ l u hu hul => h.alone l k u t hu hk hul hlistens)
        (fun hfalse => absurd hfalse false_ne_true) rfl htransport
        fun hr => absurd (hawake ▸ hr) Bool.false_ne_true

theorem frame_ensureOn (leaving targets : List String) :
    Frame w (w.ensureOn leaving targets).1 := by
  exact .of_client rfl rfl rfl rfl rfl

theorem frame_ensureRooms (roomIDs : List String) (pruneMissing : Bool) :
    Frame w (w.ensureRoomsSubscribed roomIDs pruneMissing).1 := frame_ensureOn _ _

theorem frame_heedRoom (roomID : Option String) (f : Rooms → String → Rooms) :
    Frame w (w.heedRoom roomID f) ∧ (w.heedRoom roomID f).tasks = w.tasks := by
  unfold heedRoom
  split
  · exact ⟨.of_client rfl rfl rfl rfl rfl, rfl⟩
  · exact ⟨.refl w, rfl⟩

theorem oneSocketOk_processFrame (h : OneSocketOk w) (hk : w.tasks[k]? = some t) {text : String}
    (hstage : t.stage = .received i text) (isCancelled : Bool) :
    OneSocketOk (w.processFrame P k i isCancelled text) := by
  have htransport : w.client.transport = some i := by
    have hfits := h.fits t (List.mem_of_getElem? hk)
    rw [hstage] at hfits
    exact hfits
  have hlistens : t.stage.listens = true := by
    rw [hstage]
    rfl
  have hawake : w.resting = false := by
    refine eq_false_iff.2 fun hr => ?_
    rw [(h.rest hr).1] at htransport
    cases htransport
  unfold processFrame
  split
  · refine oneSocketOk_handleTransportClosed (t := t) (h.frame ?_) ?_ hlistens ?_ ?_ ?_ _
    · exact .of_client rfl rfl rfl rfl rfl
    · exact hk
    · rw [hstage]
      rfl
    · exact fun hnone => by cases htransport.symm.trans hnone
    · exact .inl htransport
  · rename_i event hevent
    split
    · refine oneSocketOk_afterEnsure (t := t) (h.frame ?_) ?_ ?_ _
      · refine Frame.trans ?_ (frame_ensureOn _ _)
        exact .of_client rfl rfl rfl rfl rfl
      · exact hk
      · rintro j event' heq
        cases heq
        exact ⟨htransport, hlistens, hawake⟩
    · obtain ⟨hframe, htasks⟩ :=
        frame_heedRoom (w := w) (event.stringValueFor P.numberText "room_id") Rooms.joined
      exact oneSocketOk_finishFrame (h.frame hframe) (htasks ▸ hk) hlistens _ _
    · obtain ⟨hframe, htasks⟩ :=
        frame_heedRoom (w := w) (event.stringValueFor P.numberText "room_id") Rooms.left
      exact oneSocketOk_finishFrame (h.frame hframe) (htasks ▸ hk) hlistens _ _
    · refine oneSocketOk_finishFrame (t := t) (h.frame ?_) ?_ hlistens _ _
      · exact .of_client rfl rfl rfl rfl rfl
      · exact hk
    · exact oneSocketOk_finishFrame h hk hlistens _ _

theorem frame_transports {f : Socket Unit → Socket Unit}
    (hf : ∀ s, (f s).live = true → s.live = true) (i : ℕ) :
    Frame w { w with transports := w.transports.modify i f } := by
  refine ⟨rfl, rfl, rfl, rfl, ?_⟩
  intro j s' hs' hlive'
  rw [List.getElem?_modify] at hs'
  obtain ⟨s, hs, hsame⟩ := map_eq_some_iff.1 hs'
  refine ⟨s, hs, ?_⟩
  split at hsame
  · subst hsame
    exact hf s hlive'
  · subst hsame
    exact hlive'

theorem frame_sendText (i : ℕ) (requests : List ClientRequest) :
    Frame w (w.sendText i requests) := by
  refine frame_transports (fun s hlive => ?_) i
  split at hlive
  · exact hlive
  · exact hlive

theorem frame_closeTransport (i : ℕ) : Frame w (w.closeTransport i) :=
  frame_transports (fun s hlive => by rw [Socket.drop_live] at hlive; cases hlive) i

theorem frame_cancelListening : Frame w w.cancelListening := by
  unfold cancelListening
  split
  · rename_i k hk
    refine ⟨rfl, rfl, rfl, ?_, fun _ s hs hlive => ⟨s, hs, hlive⟩⟩
    refine List.ext_getElem? fun l => ?_
    simp only [List.getElem?_map, List.getElem?_modify, map_eq_map, map_map]
    refine congrArg (Option.map · (w.tasks[l]?)) (funext fun task => ?_)
    split <;> rfl
  · exact .refl w

/-- The transport that the actor had is closed: none is live. -/
theorem dead_closeTransport (h : OneSocketOk w)
    (hi : w.client.transport = some i ∨ w.client.transport = none) :
    ∀ (j : ℕ) (s : Socket Unit), (w.closeTransport i).transports[j]? = some s → s.live = false := by
  intro j s' hs'
  refine eq_false_iff.2 fun hlive' => ?_
  unfold closeTransport at hs'
  rw [List.getElem?_modify] at hs'
  obtain ⟨s, hs, hsame⟩ := map_eq_some_iff.1 hs'
  by_cases hij : i = j
  · rw [if_pos hij] at hsame
    rw [← hsame, Socket.drop_live] at hlive'
    cases hlive'
  · rw [if_neg hij] at hsame
    subst hsame
    have hj := h.live j s hs hlive'
    rcases hi with hsome | hnone
    · exact hij (some.inj (hsome.symm.trans hj))
    · rw [hnone] at hj
      cases hj

theorem oneSocketOk_startListening (h : OneSocketOk w) (hk : w.tasks[k]? = some t)
    (hlistens : t.stage.listens = true) : OneSocketOk (w.startListening k) := by
  have hcancelled := h.frame (frame_cancelListening (w := w))
  have hlisten : OneSocketOk { w.cancelListening with
      client :=
        { w.cancelListening.client with
          listenTask := some w.cancelListening.tasks.length } } :=
    hcancelled.frame (.of_client rfl rfl rfl rfl rfl)
  have hended := hlisten.setQuiet (show SocketStage.finished.quiet = true from rfl) k
  refine hended.spawn (fun _ u hu => ?_)
    (fun hfalse => absurd hfalse false_ne_true)
    (fun hfalse => absurd hfalse false_ne_true) (fun _ => rfl) trivial fun _ => ⟨rfl, rfl⟩
  obtain ⟨l, hl⟩ := List.getElem?_of_mem hu
  rcases task_setStage hl with ⟨-, hover⟩ | ⟨hne, hold⟩
  · rw [hover]
    rfl
  · -- no other task belongs to the connection
    obtain ⟨v, hv, hvs⟩ := (frame_cancelListening (w := w)).task hold
    rw [← hvs]
    exact eq_false_iff.2 fun hvl => hne (h.alone l k v t hv hk hvl hlistens)

theorem oneSocketOk_sendAuth (h : OneSocketOk w) (hk : w.tasks[k]? = some t)
    (hconnecting : t.stage.connecting = true) (token : String) (again : Bool) :
    OneSocketOk (w.sendAuth P k token again) := by
  have hconnected : OneSocketOk { w with client := { w.client with status := .connected } } :=
    h.frame (.of_client rfl rfl rfl rfl rfl)
  have hmem := List.mem_of_getElem? hk
  unfold sendAuth
  dsimp only
  split
  · rename_i i hi
    refine hconnected.setStage
      (fun _ l u hu hul => h.alone l k u t hu hk hul (listens_of_connecting hconnecting))
      (fun _ u hu => h.apart t hmem u hu hconnecting) rfl hi fun hr => ?_
    rw [(h.rest hr).1] at hi
    cases hi
  · exact oneSocketOk_failConnect hconnected k again

/-! ## Connecting and disconnecting -/

variable {token : Option String}

theorem connect_rests (again : Bool) (h : w.opens token = false) :
    Frame w (w.connect token again).1 ∧ (w.connect token again).2 = none := by
  unfold opens at h
  unfold connect
  split
  · exact ⟨.refl w, rfl⟩
  · rename_i hbusy
    split
    · exact ⟨.of_client rfl rfl rfl rfl rfl, rfl⟩
    · rename_i t ht
      rw [ht, eq_false_iff.2 hbusy] at h
      cases h

theorem connect_opens (again : Bool) (h : w.opens token = true) :
    ∃ client t, client.transport = some w.transports.length ∧
      w.connect token again =
        ({ w with client, transports := w.transports ++ [.connecting ()] },
          some (.dialing w.transports.length t again)) := by
  obtain ⟨hbusy, htoken⟩ := and_eq_true_iff.1 h
  rw [not_eq_true'] at hbusy
  obtain ⟨t, ht⟩ := isSome_iff_exists.1 htoken
  unfold connect
  rw [hbusy, ht]
  exact ⟨_, t, rfl, rfl⟩

variable {transport : Option ℕ} {manualClose : Bool}

theorem fits_of_quiet (h : stage.quiet = true) : Fits transport manualClose stage := by
  cases stage with
  | sending s after =>
    cases after with
    | caller => trivial
    | frame i event => cases h
  | finished | sleeping => trivial
  | _ => cases h

/-- A transport is opened where there is none and nothing of one goes on. -/
theorem OneSocketOk.opened (h : OneSocketOk w) (hawake : w.resting = false) (hfree : w.free)
    {client : WebSocketClient} (hclient : client.transport = some w.transports.length) :
    OneSocketOk { w with client, transports := w.transports ++ [.connecting ()] } := by
  obtain ⟨hnone, hquiet⟩ := hfree
  refine ⟨?_, h.alone, fun u hu => fits_of_quiet (hquiet u hu), h.apart,
    fun hr => absurd (hawake ▸ hr) Bool.false_ne_true⟩
  intro i s hs hlive
  rcases getElem?_push hs with hold | ⟨rfl, -⟩
  · have hi := h.live i s hold hlive
    rw [hnone] at hi
    cases hi
  · exact hclient

theorem not_listens_of_quiet (h : stage.quiet = true) : stage.listens = false := by
  unfold SocketStage.listens
  rw [h]
  rfl

theorem not_leaving_of_quiet (h : stage.quiet = true) : stage.leaving = false := by
  cases stage with
  | disconnecting i => cases h
  | _ => rfl

theorem oneSocketOk_wake (h : OneSocketOk w) {token : String} (isCancelled : Bool)
    (hfree : isCancelled = false → w.client.manualClose = false →
      w.opens (some token) = true → w.free) : OneSocketOk (w.wake k isCancelled token) := by
  unfold wake
  split
  · exact h.setQuiet rfl k
  · rename_i hgo
    obtain ⟨hcancelled, hmanual⟩ := not_or.1 hgo
    rw [not_eq_true] at hcancelled hmanual
    have hawake : w.resting = false := by
      refine eq_false_iff.2 fun hr => ?_
      rw [(h.rest hr).2.1] at hmanual
      cases hmanual
    cases hopens : w.opens (some token) with
    | false =>
      obtain ⟨hframe, hnone⟩ := connect_rests true hopens
      split
      · rename_i w₁ stage heq
        rw [heq] at hnone
        cases hnone
      · rename_i w₁ heq
        rw [heq] at hframe
        exact (h.frame hframe).setQuiet rfl k
    | true =>
      have hfree' := hfree hcancelled hmanual hopens
      obtain ⟨client, t, hclient, heq⟩ := connect_opens true hopens
      rw [heq]
      refine (h.opened hawake hfree' hclient).setStage (fun _ l u hu hul => ?_)
        (fun _ u hu => not_leaving_of_quiet (hfree'.2 u hu)) rfl hclient
        fun hr => absurd (hawake ▸ hr) Bool.false_ne_true
      rw [not_listens_of_quiet (hfree'.2 u (List.mem_of_getElem? hu))] at hul
      cases hul

theorem OneSocketOk.awake (h : OneSocketOk w) : OneSocketOk { w with resting := false } :=
  ⟨h.live, h.alone, h.fits, h.apart, fun hfalse => absurd hfalse false_ne_true⟩

theorem oneSocketOk_connect (h : OneSocketOk w)
    (hfree : w.opens (token.or P.accessToken) = true → w.free)
    (hact : w.act P (.connect token) = some w') : OneSocketOk w' := by
  unfold act at hact
  dsimp only at hact
  cases hopens : w.opens (token.or P.accessToken) with
  | false =>
    obtain ⟨hframe, hnone⟩ := connect_rests false hopens
    split at hact
    · rename_i w₁ stage heq
      rw [heq] at hnone
      cases hnone
    · rename_i w₁ heq
      rw [heq] at hframe
      cases hact
      exact (h.frame hframe).awake
  | true =>
    obtain ⟨client, t, hclient, heq⟩ := connect_opens false hopens
    rw [heq] at hact
    cases hact
    have hfree' := hfree hopens
    refine OneSocketOk.spawn (w := { w with
      client
      transports := w.transports ++ [.connecting ()]
      resting := false }) ?_ (fun _ u hu => not_listens_of_quiet (hfree'.2 u hu))
      (fun _ u hu => not_leaving_of_quiet (hfree'.2 u hu))
      (fun hfalse => absurd hfalse false_ne_true) (fun _ => rfl) hclient
      fun hfalse => absurd hfalse false_ne_true
    exact h.awake.opened (w := { w with resting := false }) rfl hfree' hclient

theorem fits_manual (h : Fits transport manualClose stage) : Fits transport true stage := by
  cases stage with
  | disconnecting i => exact ⟨h.1, rfl⟩
  | sending s after =>
    cases after with
    | caller => trivial
    | frame i event => exact h
  | _ => exact h

theorem oneSocketOk_beginDisconnect (h : OneSocketOk w) : OneSocketOk w.beginDisconnect := by
  have hcancelled := h.frame (frame_cancelListening (w := w))
  have hframe := frame_cancelListening (w := w)
  refine ⟨?_, hcancelled.alone, fun u hu => ?_, hcancelled.apart, fun hr => ?_⟩
  · intro i s hs hlive
    exact hframe.transport.symm.trans (hcancelled.live i s hs hlive)
  · have hfits := hcancelled.fits u hu
    rw [hframe.transport] at hfits
    exact fits_manual hfits
  · obtain ⟨htransport, -, hall⟩ := hcancelled.rest hr
    exact ⟨hframe.transport.symm.trans htransport, rfl, hall⟩

theorem oneSocketOk_disconnect (h : OneSocketOk w)
    (hconnecting : ∀ u ∈ w.tasks, u.stage.connecting = false) : OneSocketOk w.disconnect := by
  have hbegun := oneSocketOk_beginDisconnect h
  have hconnecting' : ∀ u ∈ w.beginDisconnect.tasks, u.stage.connecting = false := by
    intro u hu
    obtain ⟨v, hv, hvs⟩ := (frame_cancelListening (w := w)).task_mem hu
    rw [← hvs]
    exact hconnecting v hv
  unfold disconnect
  split
  · rename_i i hi
    exact hbegun.spawn (fun hfalse => absurd hfalse false_ne_true)
      (fun hfalse => absurd hfalse false_ne_true) (fun _ => hconnecting')
      (fun hfalse => absurd hfalse false_ne_true) ⟨.inl hi, rfl⟩ fun _ => ⟨rfl, rfl⟩
  · rename_i hnone
    refine hbegun.detach ?_ ?_ rfl rfl rfl rfl fun _ => rfl
    · intro j s hs
      refine eq_false_iff.2 fun hlive => ?_
      have hj := hbegun.live j s hs hlive
      rw [show w.beginDisconnect.client.transport = none from hnone] at hj
      cases hj
    · intro u hu
      refine ⟨hconnecting' u hu, eq_false_iff.2 fun hh => ?_⟩
      have hfits := hbegun.fits u hu
      rw [show w.beginDisconnect.client.transport = none from hnone] at hfits
      cases hstage : u.stage with
      | received i text => rw [hstage] at hfits; cases hfits
      | sending s after =>
        rw [hstage] at hfits hh
        cases after with
        | caller => cases hh
        | frame i event => cases hfits
      | _ => rw [hstage] at hh; cases hh

/-! ## One act -/

/-- A socket is opened for the actor's own transport. -/
theorem oneSocketOk_dial (h : OneSocketOk w) (hi : w.client.transport = some i) :
    OneSocketOk { w with transports := w.transports.modify i dial, dials := w.dials + 1 } := by
  refine ⟨?_, h.alone, h.fits, h.apart, h.rest⟩
  intro j s' hs' hlive'
  rw [List.getElem?_modify] at hs'
  obtain ⟨s, hs, hsame⟩ := map_eq_some_iff.1 hs'
  by_cases hij : i = j
  · exact hij ▸ hi
  · rw [if_neg hij] at hsame
    subst hsame
    exact h.live j s hs hlive'

theorem oneSocketOk_received (h : OneSocketOk w) (hk : w.tasks[k]? = some t)
    (hstage : t.stage = .listening i) {s : Socket Unit} (hs : w.transports[i]? = some s)
    (hopened : s.phase = .opened) (text : String) :
    OneSocketOk (w.setStage k (.received i text)) := by
  have htransport := h.live i s hs (by simp [Socket.live, hopened])
  have hlistens : t.stage.listens = true := by
    rw [hstage]
    rfl
  refine h.setStage (fun _ l u hu hul => h.alone l k u t hu hk hul hlistens)
    (fun hfalse => absurd hfalse false_ne_true) rfl htransport fun hr => ?_
  rw [(h.rest hr).1] at htransport
  cases htransport

variable {x : SocketChance}

theorem oneSocketOk_receiveText (h : OneSocketOk w) (hk : w.tasks[k]? = some t)
    (hstage : t.stage = .listening i) (hrun : w.receiveText P k i x = some w') :
    OneSocketOk w' := by
  unfold receiveText at hrun
  split at hrun
  · split at hrun
    · rename_i s hs
      split at hrun
      · rename_i hopened
        cases hrun
        exact oneSocketOk_received h hk hstage hs hopened _
      · cases hrun
    · cases hrun
  · split at hrun
    · rename_i s hs
      split at hrun
      · split at hrun
        · rename_i hopened
          cases hrun
          exact oneSocketOk_received
            (h.frame (frame_transports (f := (·.answered)) (fun s hlive => hlive) i)) hk hstage
            (getElem?_modify_self hs _) hopened _
        · cases hrun
      · cases hrun
    · cases hrun
  · cases hrun

theorem oneSocketOk_runTask (h : OneSocketOk w) (hk : w.tasks[k]? = some t)
    (hG : OneSocketAdmitted P w (.run k x)) (hrun : w.runTask P k t x = some w') :
    OneSocketOk w' := by
  have hmem := List.mem_of_getElem? hk
  have hfits := h.fits t hmem
  obtain ⟨hsleeping, hleaving⟩ := hG t hk
  unfold runTask at hrun
  split at hrun
  · rename_i i token again hstage
    cases hrun
    rw [hstage] at hfits
    refine OneSocketOk.setStage (oneSocketOk_dial h hfits)
      (fun _ l u hu hul => h.alone l k u t hu hk hul ?_)
      (fun _ u hu => h.apart t hmem u hu ?_) rfl hfits fun hr => ?_
    · rw [hstage]
      rfl
    · rw [hstage]
      rfl
    · have hc := ((h.rest hr).2.2 t hmem).1
      rw [hstage] at hc
      cases hc
  · cases hrun
    exact oneSocketOk_failConnect h k _
  · rename_i i token again hstage
    cases hrun
    exact oneSocketOk_sendAuth h hk (hstage ▸ rfl) token again
  · rename_i i token again hstage
    cases hrun
    exact oneSocketOk_startListening (h.frame (frame_sendText i _)) hk (hstage ▸ rfl)
  · cases hrun
    exact oneSocketOk_failConnect h k _
  · rename_i hstage
    cases hrun
    exact oneSocketOk_receiveLoop h hk (hstage ▸ rfl) _
  · rename_i i message hstage
    cases hrun
    rw [hstage] at hfits
    refine oneSocketOk_handleTransportClosed h hk ?_ ?_ (fun _ => ?_) hfits message
    · rw [hstage]
      rfl
    · rw [hstage]
      rfl
    · rw [hstage]
      rfl
  · split at hrun
    · cases hrun
      exact h.setQuiet rfl k
    · cases hrun
  · rename_i hstage _ _
    exact oneSocketOk_receiveText h hk hstage hrun
  · rename_i i text hstage
    cases hrun
    exact oneSocketOk_processFrame h hk hstage _
  · rename_i sending after hstage
    cases hrun
    refine oneSocketOk_afterEnsure (t := t) (h.frame ((frame_sendText _ _).trans
      (frame_ensureOn _ _))) hk (fun i event hafter => ?_) _
    subst hafter
    rw [hstage] at hfits
    refine ⟨hfits, hstage ▸ rfl, eq_false_iff.2 fun hr => ?_⟩
    rw [(h.rest hr).1] at hfits
    cases hfits
  · rename_i sending after message hstage
    cases hrun
    refine oneSocketOk_afterEnsure (t := t) (h.frame (frame_ensureOn _ _)) hk
      (fun i event hafter => ?_) _
    subst hafter
    rw [hstage] at hfits
    refine ⟨hfits, hstage ▸ rfl, eq_false_iff.2 fun hr => ?_⟩
    rw [(h.rest hr).1] at hfits
    cases hfits
  · rename_i i closed message hstage
    cases hrun
    rw [hstage] at hfits
    obtain ⟨rfl, hi⟩ := hfits
    have hquiet := quiet_of_alone h hk (hstage ▸ rfl) (hstage ▸ rfl) (hstage ▸ rfl)
    exact oneSocketOk_finishClosed (h.frame (frame_closeTransport _)) (dead_closeTransport h hi)
      hquiet k message
  · rename_i token hstage
    cases hrun
    exact oneSocketOk_wake h _ (hsleeping token hstage)
  · rename_i closed hstage
    cases hrun
    rw [hstage] at hfits
    have hfinished : OneSocketOk (w.closeTransport closed).finishDisconnect := by
      refine OneSocketOk.detach (h.frame (frame_closeTransport closed))
        (dead_closeTransport h hfits.1) (fun u hu => ⟨?_, ?_⟩) rfl rfl rfl rfl fun _ => hfits.2
      · refine eq_false_iff.2 fun hc => ?_
        have hnot := h.apart u hu t hmem hc
        rw [hstage] at hnot
        cases hnot
      · exact hleaving (hstage ▸ rfl) u hu
    exact hfinished.setQuiet rfl k
  · cases hrun

/-- Every act that the condition admits keeps it. -/
theorem oneSocketOk_act {a : SocketAct} (h : OneSocketOk w) (hG : OneSocketAdmitted P w a)
    (hact : w.act P a = some w') : OneSocketOk w' := by
  cases a with
  | connect token => exact oneSocketOk_connect h hG hact
  | disconnect =>
    cases hact
    exact oneSocketOk_disconnect h hG
  | ensureRooms roomIDs pruneMissing =>
    unfold act at hact
    dsimp only at hact
    split at hact
    · rename_i w₁ sending heq
      cases hact
      have hframe := frame_ensureRooms (w := w) roomIDs pruneMissing
      rw [heq] at hframe
      exact (h.frame hframe).spawn (fun hfalse => absurd hfalse false_ne_true)
        (fun hfalse => absurd hfalse false_ne_true)
        (fun hfalse => absurd hfalse false_ne_true) (fun _ => rfl) trivial
        fun _ => ⟨rfl, rfl⟩
    · rename_i w₁ heq
      cases hact
      have hframe := frame_ensureRooms (w := w) roomIDs pruneMissing
      rw [heq] at hframe
      exact h.frame hframe
  | run k x =>
    obtain ⟨t, hk, hrun⟩ := bind_eq_some_iff.1 hact
    exact oneSocketOk_runTask h hk hG hrun
  | drop i =>
    unfold act at hact
    dsimp only at hact
    split at hact
    · cases hact
      exact h.frame (frame_closeTransport i)
    · cases hact

/-! ## An actor that rests -/

/-- The actor rests, and has opened and dispatched nothing more. -/
def Still (w w' : SocketWorld) : Prop :=
  w'.resting = true ∧ w'.dials = w.dials ∧ w'.dispatched = w.dispatched

theorem still_finishClosed (hrest : w.resting = true) (hmanual : w.client.manualClose = true)
    (k : ℕ) (message : String) : Still w (w.finishClosed P k message) := by
  unfold finishClosed
  rw [if_pos hmanual]
  exact ⟨hrest, rfl, rfl⟩

theorem still_runTask (h : OneSocketOk w) (hk : w.tasks[k]? = some t) (hrest : w.resting = true)
    (hrun : w.runTask P k t x = some w') : Still w w' := by
  obtain ⟨hnone, hmanual, hall⟩ := h.rest hrest
  obtain ⟨hconnecting, hheeding⟩ := hall t (List.mem_of_getElem? hk)
  have hdead {i : ℕ} {s : Socket Unit} (hs : w.transports[i]? = some s)
      (hopened : s.phase = .opened) : False := by
    have hi := h.live i s hs (by simp [Socket.live, hopened])
    rw [hnone] at hi
    cases hi
  unfold runTask at hrun
  split at hrun
  · rename_i hstage
    rw [hstage] at hconnecting
    cases hconnecting
  · rename_i hstage
    rw [hstage] at hconnecting
    cases hconnecting
  · rename_i hstage
    rw [hstage] at hconnecting
    cases hconnecting
  · rename_i hstage
    rw [hstage] at hconnecting
    cases hconnecting
  · rename_i hstage
    rw [hstage] at hconnecting
    cases hconnecting
  · cases hrun
    unfold receiveLoop
    split <;> exact ⟨hrest, rfl, rfl⟩
  · cases hrun
    unfold handleTransportClosed
    split
    · exact ⟨hrest, rfl, rfl⟩
    · exact still_finishClosed hrest hmanual _ _
  · split at hrun
    · cases hrun
      exact ⟨hrest, rfl, rfl⟩
    · cases hrun
  · unfold receiveText at hrun
    split at hrun
    · split at hrun
      · rename_i s hs
        split at hrun
        · rename_i hopened
          exact (hdead hs hopened).elim
        · cases hrun
      · cases hrun
    · split at hrun
      · rename_i s hs
        split at hrun
        · split at hrun
          · rename_i hopened
            exact (hdead hs hopened).elim
          · cases hrun
        · cases hrun
      · cases hrun
    · cases hrun
  · rename_i hstage
    rw [hstage] at hheeding
    cases hheeding
  · rename_i sending after hstage
    cases hrun
    rw [hstage] at hheeding
    cases after with
    | frame i event => cases hheeding
    | caller =>
      unfold afterEnsure
      split <;> rename_i heq <;> obtain rfl := (Prod.mk.inj heq).1.symm <;>
        exact ⟨hrest, rfl, rfl⟩
  · rename_i sending after message hstage
    cases hrun
    rw [hstage] at hheeding
    cases after with
    | frame i event => cases hheeding
    | caller =>
      unfold afterEnsure
      split <;> rename_i heq <;> obtain rfl := (Prod.mk.inj heq).1.symm <;>
        exact ⟨hrest, rfl, rfl⟩
  · cases hrun
    exact still_finishClosed (w := w.closeTransport _) hrest hmanual _ _
  · cases hrun
    unfold wake
    rw [if_pos (.inr hmanual)]
    exact ⟨hrest, rfl, rfl⟩
  · cases hrun
    exact ⟨rfl, rfl, rfl⟩
  · cases hrun

/-- An actor that rests opens nothing and dispatches nothing. -/
theorem still_act {a : SocketAct} (h : OneSocketOk w) (hact : w.act P a = some w')
    (hconnects : socketView.connects a = false) (hrest : w.resting = true) : Still w w' := by
  cases a with
  | connect token => cases hconnects
  | disconnect =>
    cases hact
    have hcancel : w.cancelListening.dials = w.dials ∧
        w.cancelListening.dispatched = w.dispatched := by
      unfold cancelListening
      split <;> exact ⟨rfl, rfl⟩
    unfold disconnect
    rw [(h.rest hrest).1]
    exact ⟨rfl, hcancel.1, hcancel.2⟩
  | ensureRooms roomIDs pruneMissing =>
    unfold act at hact
    dsimp only at hact
    have hsame : (w.ensureRoomsSubscribed roomIDs pruneMissing).1.resting = w.resting ∧
        (w.ensureRoomsSubscribed roomIDs pruneMissing).1.dials = w.dials ∧
        (w.ensureRoomsSubscribed roomIDs pruneMissing).1.dispatched = w.dispatched :=
      ⟨rfl, rfl, rfl⟩
    split at hact
    · rename_i w₁ sending heq
      cases hact
      rw [heq] at hsame
      exact ⟨hsame.1.trans hrest, hsame.2⟩
    · rename_i w₁ heq
      cases hact
      rw [heq] at hsame
      exact ⟨hsame.1.trans hrest, hsame.2⟩
  | run k x =>
    obtain ⟨t, hk, hrun⟩ := bind_eq_some_iff.1 hact
    exact still_runTask h hk hrest hrun
  | drop i =>
    unfold act at hact
    dsimp only at hact
    split at hact
    · cases hact
      exact ⟨hrest, rfl, rfl⟩
    · cases hact

theorem oneSocketOk_new : OneSocketOk new where
  live i s hs := absurd hs (by simp [new])
  alone k l t u ht := absurd ht (by simp [new])
  fits t ht := absurd ht List.not_mem_nil
  apart t ht := absurd ht List.not_mem_nil
  rest hr := absurd hr false_ne_true

/-- What calls back is the actor's own transport, as long as it has one. -/
theorem socket_of_fits {j : ℕ} (h : Fits transport manualClose stage)
    (hsocket : stage.socket = some i) (hj : transport = some j) : i = j := by
  subst hj
  cases stage with
  | listening n =>
    cases hsocket
    rcases h with hsome | hnone
    · exact (some.inj hsome).symm
    · cases hnone
  | sending s after =>
    cases after with
    | caller => cases hsocket
    | frame n event =>
      cases hsocket
      exact (some.inj h).symm
  | closing n closed message =>
    cases hsocket
    rcases h.2 with hsome | hnone
    · exact (some.inj hsome).symm
    · cases hnone
  | starting | sleeping | disconnecting | finished => cases hsocket
  | _ =>
    cases hsocket
    exact (some.inj h).symm

end

/-- The client of the iOS app has one socket at a time, in every run that the condition admits. -/
theorem oneSocketKept (P : SocketSetting) : OneSocketKept P (OneSocketAdmitted P) := by
  intro w hreach
  refine SingleSocket.of_invariant (I := OneSocketOk)
    (fun w a w' h hG hact => oneSocketOk_act h hG hact) ?_ ?_ ?_ oneSocketOk_new hreach
  · rintro w h i j ⟨s, hs, hlive⟩ ⟨t, ht, hlive'⟩
    exact some.inj ((h.live i s hs hlive).symm.trans (h.live j t ht hlive'))
  · intro w a w' i j h _ hact hcall hcurrent hne
    cases a with
    | run k x =>
      obtain ⟨t, hk, hsocket⟩ := bind_eq_some_iff.1 hcall
      exact absurd (socket_of_fits (h.fits t (List.mem_of_getElem? hk)) hsocket hcurrent) hne
    | _ => cases hcall
  · intro w a w' h _ hact hconnects hrest
    obtain ⟨hresting, hdials, hdispatched⟩ := still_act h hact hconnects hrest
    exact ⟨hresting, hdials, congrArg List.length hdispatched⟩

/-! ## A second socket -/

/-- A server that accepts everything, and frames that are the names of their types. -/
def sampleSocketSetting : SocketSetting where
  parse text := some (.object [("type", .string text)])
  numberText _ := ""
  server :=
    { mayJoin := fun _ => true
      text := fun answer =>
        match answer with
        | .authed => "authed"
        | .refused => "error"
        | .joined _ => "joined"
        | .left _ => "left" }
  accessToken := some "token"
  reconnectsAutomatically := true
  maxReconnectAttempts := 5

/-- The server sends an `error` frame, and the app connects again. -/
def connectedAgain : List SocketAct :=
  [.connect none, .run 0 .ok, .run 0 .ok, .run 0 .ok, .run 1 .ok, .run 1 (.text "error"),
    .run 1 .ok, .connect none, .run 2 .ok]

theorem not_oneSocketKept : ¬OneSocketKept sampleSocketSetting fun _ _ => True := by
  intro h
  have hrun : ((Machine.perform (act sampleSocketSetting) connectedAgain .new).map
      fun w => w.transports.map (·.live)) = some [true, true] := by
    decide +kernel
  obtain ⟨w, hw, hlive⟩ := map_eq_some_iff.1 hrun
  have hsocket (i : ℕ) (hi : [true, true][i]? = some true) : socketView.live w i := by
    rw [← hlive, List.getElem?_map] at hi
    exact map_eq_some_iff.1 hi
  have hone := (h w (.of_perform (fun _ _ => trivial) hw)).one 0 1 (hsocket 0 rfl) (hsocket 1 rfl)
  cases hone

end RedcodeIm.Ios
