import Mathlib.Data.Nat.Notation
import RedcodeIm.Lib.Machine

/-!
# One socket at a time

What is expected of a realtime client and its sockets, whatever the client is.

* `SocketView` — what there is to see of the sockets of a client.
* `SingleSocket` — one live socket at most, which no callback of another one takes away, and none
  that is opened or heard of while the client rests.
* `SingleSocket.of_invariant` — from an invariant of the client.
-/

namespace RedcodeIm.Realtime

variable {World Act : Type}

/-- What there is to see of the sockets of a client. -/
structure SocketView (World Act : Type) where
  /-- A socket is open, or is being opened. -/
  live : World → ℕ → Prop
  /-- The socket that the client takes for its own. -/
  current : World → Option ℕ
  /-- How many sockets were opened. -/
  opened : World → ℕ
  /-- How many events were dispatched. -/
  dispatched : World → ℕ
  /-- `disconnect` has been called, and `connect` not since. -/
  resting : World → Bool
  /-- The socket that an act is a callback of. -/
  callbackOf : World → Act → Option ℕ
  /-- An act is a call of `connect`. -/
  connects : Act → Bool

/-- A client has one live socket at most; a callback of another socket leaves it the one that it
has; and while it rests it opens none and dispatches nothing. -/
structure SingleSocket (act : World → Act → Option World) (G : World → Act → Prop)
    (V : SocketView World Act) (w : World) : Prop where
  one : ∀ i j, V.live w i → V.live w j → i = j
  kept : ∀ a w' i j, G w a → act w a = some w' → V.callbackOf w a = some i →
    V.current w = some j → i ≠ j → V.current w' = some j
  still : ∀ w', V.resting w = true →
    Machine.Reach act (fun w a => G w a ∧ V.connects a = false) w w' →
    V.opened w' = V.opened w ∧ V.dispatched w' = V.dispatched w

variable {act : World → Act → Option World} {G : World → Act → Prop} {V : SocketView World Act}
  {I : World → Prop} {w w' w₀ : World}

/-- Where every act but a `connect` leaves a resting client as it is, so do any number of them. -/
theorem still_of_steps (hstep : ∀ w a w', I w → G w a → act w a = some w' → I w')
    (hstill : ∀ w a w', I w → G w a → act w a = some w' → V.connects a = false →
      V.resting w = true → V.resting w' = true ∧ V.opened w' = V.opened w ∧
        V.dispatched w' = V.dispatched w)
    (hI : I w) (hrest : V.resting w = true)
    (h : Machine.Reach act (fun w a => G w a ∧ V.connects a = false) w w') :
    V.opened w' = V.opened w ∧ V.dispatched w' = V.dispatched w := by
  have hall : (I w' ∧ V.resting w' = true) ∧
      V.opened w' = V.opened w ∧ V.dispatched w' = V.dispatched w := by
    refine h.invariant (I := fun x => (I x ∧ V.resting x = true) ∧
      V.opened x = V.opened w ∧ V.dispatched x = V.dispatched w) ?_ ⟨⟨hI, hrest⟩, rfl, rfl⟩
    rintro x a x' ⟨⟨hx, hxrest⟩, hopened, hdispatched⟩ ⟨hG, hconnects⟩ ha
    obtain ⟨hrest', hopened', hdispatched'⟩ := hstill x a x' hx hG ha hconnects hxrest
    exact ⟨⟨hstep x a x' hx hG ha, hrest'⟩, hopened'.trans hopened,
      hdispatched'.trans hdispatched⟩
  exact hall.2

/-- An invariant that every act keeps, and that gives of each act what is expected, gives it of
every run. -/
theorem SingleSocket.of_invariant
    (hstep : ∀ w a w', I w → G w a → act w a = some w' → I w')
    (hone : ∀ w, I w → ∀ i j, V.live w i → V.live w j → i = j)
    (hkept : ∀ w a w' i j, I w → G w a → act w a = some w' → V.callbackOf w a = some i →
      V.current w = some j → i ≠ j → V.current w' = some j)
    (hstill : ∀ w a w', I w → G w a → act w a = some w' → V.connects a = false →
      V.resting w = true → V.resting w' = true ∧ V.opened w' = V.opened w ∧
        V.dispatched w' = V.dispatched w)
    (hinit : I w₀) (h : Machine.Reach act G w₀ w) : SingleSocket act G V w := by
  have hI := h.invariant hstep hinit
  exact ⟨hone w hI, fun a w' i j => hkept w a w' i j hI,
    fun w' hrest => still_of_steps hstep hstill hI hrest⟩

theorem getElem?_modify_self {α : Type} {l : List α} {x : α} {i : ℕ} (h : l[i]? = some x)
    (f : α → α) : (l.modify i f)[i]? = some (f x) := by
  rw [List.getElem?_modify, h]
  simp

/-- What is found in a list that has grown at its end. -/
theorem getElem?_push {α : Type} {l : List α} {a x : α} {i : ℕ} (h : (l ++ [a])[i]? = some x) :
    l[i]? = some x ∨ (i = l.length ∧ x = a) := by
  by_cases hi : i < l.length
  · rw [List.getElem?_append_left hi] at h
    exact .inl h
  · rw [List.getElem?_append_right (Nat.le_of_not_lt hi), List.getElem?_singleton] at h
    split at h
    · exact .inr ⟨by omega, (Option.some.inj h).symm⟩
    · cases h

end RedcodeIm.Realtime
