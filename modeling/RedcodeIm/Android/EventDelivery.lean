import RedcodeIm.Android.WebSocketClient
import RedcodeIm.Lib.Machine

/-!
# The events that reach the app

The client puts each event into a `StateFlow`, which keeps the latest value.  `MainShell` collects
the flow into a state of the composition, and an effect with this state as its key hands it on: once
the effect has been launched anew, it reads the state as it then is.

* `MainShell` — the state that is collected, and the effect.
* `Delivery.act` — the client, the collector, the composition and the effect, in any order.
* `Delivery.pending` — the events that have arrived, and are still to be handed on.
* `DeliveryAct.Spaced` — the condition: an event arrives only when the one before has been
  collected, and is collected only when the effect has begun on the one before.
* `every_event_handed` — then each event is handed on once, in the order of arrival.
* `event_overwritten` — otherwise it may get lost.
-/

namespace RedcodeIm.Android

open Realtime List
open Machine (Reach)

/-! ## The composition -/

/-- The coroutine of `LaunchedEffect`. -/
inductive EffectJob where
  | idle
  /-- It has been launched, and has not begun. -/
  | launched
  /-- It is in `handle`. -/
  | handling
  deriving DecidableEq

/-- `MainShell`, as far as the events of the client go. -/
structure MainShell (Payload : Type) where
  /-- `realtimeEvent`. -/
  realtimeEvent : Option (WebSocketServerEvent Payload)
  /-- The key that `LaunchedEffect` was given last. -/
  key : Option (WebSocketServerEvent Payload)
  job : EffectJob
  deriving DecidableEq

/-- The client, and the composition where there is one.  `arrived` are the events that frames on the
current connection were parsed as, and `handed` those that `handle` was called with. -/
structure Delivery (Payload : Type) where
  net : World Payload
  shell : Option (MainShell Payload)
  arrived : List (WebSocketServerEvent Payload)
  handed : List (WebSocketServerEvent Payload)

variable {Payload : Type} [DecidableEq Payload] (P : Setting Payload)

inductive DeliveryAct where
  | client (a : Act)
  /-- `MainShell` enters the composition. -/
  | enter
  /-- It leaves it, and the client is disconnected. -/
  | leave
  /-- The collector takes the value of the flow. -/
  | collect
  | recompose
  /-- The effect begins, and reads the state. -/
  | begin
  /-- `handle` returns. -/
  | finish
  deriving DecidableEq

namespace Delivery

variable (w : Delivery Payload)

def new : Delivery Payload := ⟨.new, none, [], []⟩

/-- `client.events.value`. -/
def flow : Option (WebSocketServerEvent Payload) := w.net.client.eventState

/-- What the composition does, where there is one. -/
def inShell (f : MainShell Payload → Delivery Payload) : Option (Delivery Payload) := w.shell.map f

def act : DeliveryAct → Option (Delivery Payload)
  | .client a =>
    (w.net.act P a).map fun net =>
      { w with net, arrived := w.arrived ++ (w.net.eventReceived P a).toList }
  | .enter =>
    match w.shell with
    | some _ => none
    | none => some { w with shell := some ⟨w.flow, w.flow, .launched⟩ }
  | .leave => w.inShell fun _ => { w with shell := none, net := w.net.disconnect }
  | .collect =>
    w.inShell fun shell => { w with shell := some { shell with realtimeEvent := w.flow } }
  | .recompose =>
    w.inShell fun shell =>
      if shell.realtimeEvent = shell.key then w
      else { w with shell := some { shell with key := shell.realtimeEvent, job := .launched } }
  | .begin =>
    w.inShell fun shell =>
      if shell.job = .launched then
        { w with
          shell := some { shell with job := .handling }
          handed := w.handed ++ shell.realtimeEvent.toList }
      else w
  | .finish =>
    w.inShell fun shell =>
      if shell.job = .handling then { w with shell := some { shell with job := .idle } } else w

/-- The latest value of what is to follow another, unless it is that value already. -/
def newer (value previous : Option (WebSocketServerEvent Payload)) :
    List (WebSocketServerEvent Payload) :=
  if value = previous then [] else value.toList

/-- The events of a composition that are still to be handed on. -/
def pendingIn (shell : MainShell Payload) : List (WebSocketServerEvent Payload) :=
  (if shell.job = .launched then shell.key.toList else []) ++
    newer shell.realtimeEvent shell.key ++ newer w.flow shell.realtimeEvent

/-- Nothing is on its way to the effect, and it has begun on the last event. -/
def Settled : Prop :=
  ∃ shell, w.shell = some shell ∧ w.flow = shell.realtimeEvent ∧ shell.realtimeEvent = shell.key ∧
    shell.job ≠ .launched

/-- What is handed on is what has arrived, one event after the other, and all of it once nothing is
on its way. -/
def Delivers : Prop := w.handed <+: w.arrived ∧ (w.Settled → w.handed = w.arrived)

end Delivery

/-! ## The condition -/

/-- **The condition**.  An event arrives only when the one before has been collected, and is not
equal to it; a value is collected only when the effect has begun on the one before; the effect
begins only when what it reads is what it was launched for; and the composition is entered only
while the flow holds no event that has been handed on, and left with at most one event still to be
handed on. -/
def DeliveryAct.Spaced (w : Delivery Payload) : DeliveryAct → Prop
  | .client a => ∀ event ∈ w.net.eventReceived P a, event.Heeded P.json ∧
    (∀ shell ∈ w.shell, w.flow = shell.realtimeEvent ∧ w.flow ≠ some event) ∧
    (w.shell = none → w.handed.length = w.arrived.length)
  | .enter => w.arrived.length = w.handed.length + w.flow.toList.length
  | .leave => ∀ shell ∈ w.shell, (w.pendingIn shell).length ≤ 1
  | .collect => ∀ shell ∈ w.shell, w.flow ≠ shell.realtimeEvent →
    shell.realtimeEvent = shell.key ∧ (shell.job = .launched → shell.key = none)
  | .begin => ∀ shell ∈ w.shell, shell.job = .launched → shell.realtimeEvent = shell.key
  | .recompose | .finish => True

instance (event : WebSocketServerEvent Payload) (json : JsonLibrary Payload) :
    Decidable (event.Heeded json) :=
  inferInstanceAs (Decidable (∀ _ ∈ _, _))

instance (w : Delivery Payload) (a : DeliveryAct) : Decidable (a.Spaced P w) :=
  match a with
  | .client _ => inferInstanceAs (Decidable (∀ _ ∈ _, _))
  | .enter => inferInstanceAs (Decidable (_ = _))
  | .leave => inferInstanceAs (Decidable (∀ _ ∈ _, _))
  | .collect => inferInstanceAs (Decidable (∀ _ ∈ _, _))
  | .begin => inferInstanceAs (Decidable (∀ _ ∈ _, _))
  | .recompose | .finish => inferInstanceAs (Decidable True)

/-! ## Each event is handed on once -/

namespace Delivery

variable {P} {w w' : Delivery Payload} {a : DeliveryAct}

/-- What has arrived has been handed on, or is still to be. -/
structure Ok (w : Delivery Payload) : Prop where
  shown : ∀ shell, w.shell = some shell → w.arrived = w.handed ++ w.pendingIn shell
  begun : ∀ shell, w.shell = some shell → shell.job = .launched → shell.key ≠ none →
    shell.realtimeEvent = shell.key
  valued : ∀ shell, w.shell = some shell → w.flow = none → shell.realtimeEvent = none
  hidden : w.shell = none → w.arrived = w.handed ∨ w.arrived = w.handed ++ w.flow.toList

@[simp] theorem newer_self {value : Option (WebSocketServerEvent Payload)} :
    newer value value = [] :=
  if_pos rfl

theorem newer_of_ne {value previous : Option (WebSocketServerEvent Payload)}
    (h : value ≠ previous) : newer value previous = value.toList :=
  if_neg h

theorem ok_new : Ok (new : Delivery Payload) :=
  ⟨(fun _ h => by cases h), (fun _ h => by cases h), (fun _ h => by cases h), fun _ => .inl rfl⟩

theorem ok_client {a : Act} (h : Ok w) (hG : (DeliveryAct.client a).Spaced P w)
    (hw : w.act P (.client a) = some w') : Ok w' := by
  obtain ⟨net, hnet, rfl⟩ := Option.map_eq_some_iff.1 hw
  cases hevent : w.net.eventReceived P a with
  | none =>
    have hflow : net.client.eventState = w.flow := (act_sameEvents hevent hnet).1
    refine ⟨fun shell hshell => ?_, h.begun, fun shell hshell hnone => ?_, fun hshell => ?_⟩
    · simpa [pendingIn, flow, hflow] using h.shown shell hshell
    · exact h.valued shell hshell (hflow.symm.trans hnone)
    · simpa [flow, hflow] using h.hidden hshell
  | some event =>
    obtain ⟨hheeded, hcollected, hquiet⟩ := hG event hevent
    have hflow : net.client.eventState = some event := act_event hevent hheeded hnet
    refine ⟨fun shell hshell => ?_, h.begun, fun shell hshell hnone => ?_, fun hshell => ?_⟩
    · obtain ⟨hcollected, hne⟩ := hcollected shell hshell
      have harrived := h.shown shell hshell
      have hne' : some event ≠ shell.realtimeEvent := fun heq => hne (hcollected.trans heq.symm)
      unfold pendingIn at harrived ⊢
      rw [hcollected, newer_self, append_nil] at harrived
      show w.arrived ++ (some event).toList = w.handed ++ (_ ++ newer net.client.eventState _)
      rw [hflow, newer_of_ne hne', harrived, append_assoc]
    · have hsome : net.client.eventState = none := hnone
      rw [hflow] at hsome
      cases hsome
    · have hlast := hquiet hshell
      have harrived : w.arrived = w.handed := by
        rcases h.hidden hshell with heq | heq
        · exact heq
        · have hlength := congrArg length heq
          rw [length_append] at hlength
          have hnil : w.flow.toList = [] := length_eq_zero_iff.1 (by omega)
          rw [heq, hnil, append_nil]
      refine .inr ?_
      show w.arrived ++ (some event).toList = w.handed ++ net.client.eventState.toList
      rw [hflow, harrived]

theorem ok_enter (h : Ok w) (hG : DeliveryAct.enter.Spaced P w)
    (hw : w.act P .enter = some w') : Ok w' := by
  simp only [act] at hw
  split at hw
  · cases hw
  · rename_i hshell
    cases hw
    have hlength : w.arrived.length = w.handed.length + w.flow.toList.length := hG
    have harrived : w.arrived = w.handed ++ w.flow.toList := by
      rcases h.hidden hshell with heq | heq
      · have hnil : w.flow.toList = [] := by
          rw [heq] at hlength
          exact length_eq_zero_iff.1 (by omega)
        rw [heq, hnil, append_nil]
      · exact heq
    refine ⟨fun shell hs => ?_, fun shell hs => ?_, fun shell hs hnone => ?_, fun hs => ?_⟩
    · cases hs
      show w.arrived = w.handed ++ ((if EffectJob.launched = .launched then w.flow.toList else [])
        ++ newer w.flow w.flow ++ newer w.flow w.flow)
      rw [newer_self, if_pos rfl, append_nil, append_nil, harrived]
    · cases hs
      exact fun _ _ => rfl
    · cases hs
      exact hnone
    · cases hs

/-- Of at most one event still to be handed on, the flow has it. -/
theorem pendingIn_of_length {shell : MainShell Payload} (h : (w.pendingIn shell).length ≤ 1)
    (hbegun : shell.job = .launched → shell.key ≠ none → shell.realtimeEvent = shell.key)
    (hvalued : w.flow = none → shell.realtimeEvent = none) :
    w.pendingIn shell = [] ∨ w.pendingIn shell = w.flow.toList := by
  unfold pendingIn at h ⊢
  by_cases hflow : w.flow = shell.realtimeEvent
  · rw [← hflow] at h hbegun ⊢
    rw [newer_self, append_nil] at h ⊢
    by_cases hkey : w.flow = shell.key
    · rw [← hkey, newer_self, append_nil]
      split
      · exact .inr rfl
      · exact .inl rfl
    · rw [newer_of_ne hkey]
      split
      · rename_i hjob
        have hnone : shell.key = none := by
          by_contra hne
          exact hkey (hbegun hjob hne)
        rw [hnone]
        exact .inr (nil_append _)
      · exact .inr (nil_append _)
  · rw [newer_of_ne hflow] at h ⊢
    obtain ⟨event, hvalue⟩ : ∃ event, w.flow = some event :=
      Option.ne_none_iff_exists'.1 fun hnone => hflow (hnone.trans (hvalued hnone).symm)
    have hnil : (if shell.job = .launched then shell.key.toList else []) ++
        newer shell.realtimeEvent shell.key = [] := by
      refine length_eq_zero_iff.1 ?_
      rw [length_append, hvalue, Option.toList_some, length_singleton] at h
      omega
    rw [hnil]
    exact .inr (nil_append _)

theorem ok_leave (h : Ok w) (hG : DeliveryAct.leave.Spaced P w)
    (hw : w.act P .leave = some w') : Ok w' := by
  obtain ⟨shell, hshell, rfl⟩ := Option.map_eq_some_iff.1 hw
  refine ⟨(fun _ hs => by cases hs), (fun _ hs => by cases hs), (fun _ hs => by cases hs),
    fun _ => ?_⟩
  have hflow : w.net.disconnect.client.eventState = w.flow := sameEvents_disconnect.1
  show w.arrived = w.handed ∨ w.arrived = w.handed ++ w.net.disconnect.client.eventState.toList
  rw [hflow, h.shown shell hshell]
  rcases pendingIn_of_length (hG shell hshell) (h.begun shell hshell) (h.valued shell hshell) with
    hnil | hlast
  · rw [hnil]
    exact .inl (append_nil _)
  · rw [hlast]
    exact .inr rfl

theorem ok_collect (h : Ok w) (hG : DeliveryAct.collect.Spaced P w)
    (hw : w.act P .collect = some w') : Ok w' := by
  obtain ⟨shell, hshell, rfl⟩ := Option.map_eq_some_iff.1 hw
  by_cases hflow : w.flow = shell.realtimeEvent
  · -- There is nothing new.
    have heq : ({ shell with realtimeEvent := w.flow } : MainShell Payload) = shell := by
      rw [hflow]
    rw [heq]
    refine ⟨fun s hs => ?_, fun s hs => ?_, fun s hs => ?_, fun hs => ?_⟩
    · exact h.shown s (hshell.trans hs)
    · exact h.begun s (hshell.trans hs)
    · exact h.valued s (hshell.trans hs)
    · cases hs
  · obtain ⟨hkey, hnone⟩ := hG shell hshell hflow
    have harrived := h.shown shell hshell
    have hjob : (if shell.job = .launched then shell.key.toList else []) = [] := by
      split
      · rename_i hjob
        rw [hnone hjob]
        rfl
      · rfl
    unfold pendingIn at harrived
    rw [hjob, hkey, newer_self, nil_append, nil_append] at harrived
    refine ⟨fun s hs => ?_, fun s hs => ?_, fun s hs => ?_, fun hs => ?_⟩
    · cases hs
      show w.arrived = w.handed ++ ((if shell.job = .launched then shell.key.toList else []) ++
        newer w.flow shell.key ++ newer w.flow w.flow)
      rw [hjob, newer_self, append_nil, nil_append, harrived]
    · cases hs
      exact fun hlaunched hne => absurd (hnone hlaunched) hne
    · cases hs
      exact id
    · cases hs

theorem ok_recompose (h : Ok w) (hw : w.act P .recompose = some w') : Ok w' := by
  obtain ⟨shell, hshell, rfl⟩ := Option.map_eq_some_iff.1 hw
  split
  · exact h
  · rename_i hkey
    have harrived := h.shown shell hshell
    have hjob : (if shell.job = .launched then shell.key.toList else []) = [] := by
      split
      · rename_i hjob
        by_contra hne
        exact hkey (h.begun shell hshell hjob fun hnone => hne (by rw [hnone]; rfl))
      · rfl
    unfold pendingIn at harrived
    rw [hjob, newer_of_ne hkey, nil_append] at harrived
    refine ⟨fun s hs => ?_, fun s hs => ?_, fun s hs => ?_, fun hs => ?_⟩
    · cases hs
      show w.arrived = w.handed ++
        ((if EffectJob.launched = .launched then shell.realtimeEvent.toList else []) ++
          newer shell.realtimeEvent shell.realtimeEvent ++ newer w.flow shell.realtimeEvent)
      rw [if_pos rfl, newer_self, append_nil, harrived]
    · cases hs
      exact fun _ _ => rfl
    · cases hs
      exact h.valued shell hshell
    · cases hs

theorem ok_begin (h : Ok w) (hG : DeliveryAct.begin.Spaced P w)
    (hw : w.act P .begin = some w') : Ok w' := by
  obtain ⟨shell, hshell, rfl⟩ := Option.map_eq_some_iff.1 hw
  split
  · rename_i hjob
    have hkey := hG shell hshell hjob
    have harrived := h.shown shell hshell
    unfold pendingIn at harrived
    rw [if_pos hjob, ← hkey, newer_self, append_nil] at harrived
    refine ⟨fun s hs => ?_, fun s hs => ?_, fun s hs => ?_, fun hs => ?_⟩
    · cases hs
      show w.arrived = w.handed ++ shell.realtimeEvent.toList ++
        ((if EffectJob.handling = .launched then shell.key.toList else []) ++
          newer shell.realtimeEvent shell.key ++ newer w.flow shell.realtimeEvent)
      rw [← hkey, newer_self, harrived, append_assoc]
      rfl
    · cases hs
      exact fun hlaunched => by cases hlaunched
    · cases hs
      exact h.valued shell hshell
    · cases hs
  · exact h

theorem ok_finish (h : Ok w) (hw : w.act P .finish = some w') : Ok w' := by
  obtain ⟨shell, hshell, rfl⟩ := Option.map_eq_some_iff.1 hw
  split
  · rename_i hjob
    have harrived := h.shown shell hshell
    unfold pendingIn at harrived
    rw [hjob] at harrived
    refine ⟨fun s hs => ?_, fun s hs => ?_, fun s hs => ?_, fun hs => ?_⟩
    · cases hs
      exact harrived
    · cases hs
      exact fun hlaunched => by cases hlaunched
    · cases hs
      exact h.valued shell hshell
    · cases hs
  · exact h

/-- Every act that meets the condition keeps what has arrived in order. -/
theorem ok_act (h : Ok w) (hG : a.Spaced P w) (hw : w.act P a = some w') : Ok w' := by
  cases a with
  | client a => exact ok_client h hG hw
  | enter => exact ok_enter h hG hw
  | leave => exact ok_leave h hG hw
  | collect => exact ok_collect h hG hw
  | recompose => exact ok_recompose h hw
  | begin => exact ok_begin h hG hw
  | finish => exact ok_finish h hw

theorem Ok.delivers (h : Ok w) : w.Delivers := by
  refine ⟨?_, ?_⟩
  · cases hshell : w.shell with
    | some shell => exact ⟨_, (h.shown shell hshell).symm⟩
    | none =>
      rcases h.hidden hshell with heq | heq
      · exact ⟨[], by rw [heq, append_nil]⟩
      · exact ⟨_, heq.symm⟩
  · rintro ⟨shell, hshell, hflow, hkey, hjob⟩
    have harrived := h.shown shell hshell
    unfold pendingIn at harrived
    rw [hflow, hkey, newer_self, if_neg hjob] at harrived
    rw [harrived]
    exact (append_nil _).symm

end Delivery

/-- **Each event is handed to `handle` once, and in the order of arrival**, in every run of the
client, the collector, the composition and the effect in which the events are far enough apart. -/
theorem every_event_handed {Payload : Type} [DecidableEq Payload] (P : Setting Payload)
    (w : Delivery Payload)
    (hreach : Reach (Delivery.act P) (fun w a => a.Spaced P w) .new w) : w.Delivers :=
  Delivery.Ok.delivers (hreach.invariant (fun _ _ _ h hG hw => Delivery.ok_act h hG hw)
    Delivery.ok_new)

/-! ## Samples -/

/-- The texts of some frames, and what they are parsed as. -/
def sampleFrames : List (String × List (String × String)) :=
  [("\x7b\"type\":\"authed\"\x7d", [("type", "authed")]),
    ("\x7b\"type\":\"error\"\x7d", [("type", "error")]),
    ("\x7b\"type\":\"joined\",\"room_id\":\"7\"\x7d", [("type", "joined"), ("room_id", "7")]),
    ("\x7b\"type\":\"left\",\"room_id\":\"7\"\x7d", [("type", "left"), ("room_id", "7")]),
    ("\x7b\"type\":\"message\",\"id\":\"1\"\x7d", [("type", "message"), ("id", "1")]),
    ("\x7b\"type\":\"message\",\"id\":\"2\"\x7d", [("type", "message"), ("id", "2")])]

def sampleMessage (id : String) : String := "\x7b\"type\":\"message\",\"id\":\"" ++ id ++ "\"\x7d"

def sampleSetting : Setting (List (String × String)) where
  json :=
    { parseObject := fun text => sampleFrames.lookup text
      get := fun payload member =>
        match payload.lookup member with
        | some content => .primitive content
        | none => .absent }
  server :=
    { mayJoin := fun roomId => roomId = "7"
      text := fun answer =>
        match answer with
        | .authed => "\x7b\"type\":\"authed\"\x7d"
        | .refused => "\x7b\"type\":\"error\"\x7d"
        | .joined roomId => "\x7b\"type\":\"joined\",\"room_id\":\"" ++ roomId ++ "\"\x7d"
        | .left roomId => "\x7b\"type\":\"left\",\"room_id\":\"" ++ roomId ++ "\"\x7d" }
  maxAttempts := 5

/-- The app is opened, and its connection comes up. -/
def appOpened : List DeliveryAct :=
  [.enter, .begin, .finish, .client (.connect "token"), .client (.onOpen 0)]

/-- Two messages, one after the other. -/
def spacedMessages : List DeliveryAct :=
  appOpened ++
    [.client (.onMessage 0 (sampleMessage "1")), .collect, .recompose, .begin,
      .client (.onMessage 0 (sampleMessage "2")), .collect, .recompose, .begin, .finish]

theorem every_event_handed_spaced :
    ∃ w, Machine.performUnder (Delivery.act sampleSetting) (fun w a => a.Spaced sampleSetting w)
      spacedMessages .new = some w ∧ w.Delivers := by
  have hrun : (Machine.performUnder (Delivery.act sampleSetting)
      (fun w a => a.Spaced sampleSetting w) spacedMessages .new).isSome = true := by
    decide +kernel
  obtain ⟨w, hw⟩ := Option.isSome_iff_exists.1 hrun
  exact ⟨w, hw, every_event_handed sampleSetting w (.of_performUnder hw)⟩

/-- The second message arrives before the first has been collected. -/
def messagesAtOnce : List DeliveryAct :=
  appOpened ++
    [.client (.onMessage 0 (sampleMessage "1")), .client (.onMessage 0 (sampleMessage "2")),
      .collect, .recompose, .begin, .finish]

/-- The first of them is never handed on. -/
theorem event_overwritten :
    ¬ ∀ w, Reach (Delivery.act sampleSetting) (fun _ _ => True) .new w → w.Delivers := by
  intro h
  have hrun : (Machine.perform (Delivery.act sampleSetting) messagesAtOnce .new).map (fun w =>
      (w.shell = some ⟨w.flow, w.flow, .idle⟩ : Bool) && w.handed ≠ w.arrived) = some true := by
    decide +kernel
  obtain ⟨w, hw, heq⟩ := Option.map_eq_some_iff.1 hrun
  obtain ⟨hshell, hne⟩ := Bool.and_eq_true_iff.1 heq
  obtain ⟨-, hall⟩ := h w (.of_perform (fun _ _ => trivial) hw)
  refine of_decide_eq_true hne (hall ⟨_, of_decide_eq_true hshell, rfl, rfl, ?_⟩)
  exact fun hjob => by cases hjob

end RedcodeIm.Android
