import Mathlib.Logic.Relation

/-!
# Machines

A machine does one act at a time; an act that cannot be done in a state has no outcome there.

* `Machine.Step`, `Machine.Reach` — one act, and any number of them, under a condition on the acts.
* `Machine.Reach.invariant` — what every act keeps holds of all that is reached.
* `Machine.perform`, `Machine.Reach.of_perform` — a list of acts, carried out.
* `Machine.perform_map` — the same acts, carried out on images of the states.
* `Machine.performUnder`, `Machine.Reach.of_performUnder` — and carried out under the condition.
-/

namespace Machine

variable {World Act : Type}

/-- One act, which the condition admits. -/
def Step (act : World → Act → Option World) (G : World → Act → Prop) (w w' : World) : Prop :=
  ∃ a, G w a ∧ act w a = some w'

/-- Any number of acts. -/
abbrev Reach (act : World → Act → Option World) (G : World → Act → Prop) : World → World → Prop :=
  Relation.ReflTransGen (Step act G)

/-- A list of acts, carried out one after the other. -/
def perform (act : World → Act → Option World) : List Act → World → Option World
  | [], w => some w
  | a :: acts, w =>
    match act w a with
    | some w' => perform act acts w'
    | none => none

variable {act : World → Act → Option World} {G : World → Act → Prop} {w w' : World}

theorem Reach.invariant {I : World → Prop}
    (hstep : ∀ w a w', I w → G w a → act w a = some w' → I w') (h : Reach act G w w')
    (hw : I w) : I w' := by
  induction h with
  | refl => exact hw
  | tail _ hlast ih =>
    obtain ⟨a, hG, ha⟩ := hlast
    exact hstep _ a _ ih hG ha

/-- Acts that can be carried out, and that the condition admits wherever they are done, reach what
they come to. -/
theorem Reach.of_perform_mem {acts : List Act} (hG : ∀ a ∈ acts, ∀ w, G w a)
    (h : perform act acts w = some w') : Reach act G w w' := by
  induction acts generalizing w with
  | nil =>
    cases h
    exact .refl
  | cons a acts ih =>
    simp only [perform] at h
    split at h
    · rename_i w₁ ha
      exact .head ⟨a, hG a (.head _) w, ha⟩ (ih (fun b hb => hG b (.tail _ hb)) h)
    · cases h

theorem Reach.of_perform {acts : List Act} (hG : ∀ w a, G w a) (h : perform act acts w = some w') :
    Reach act G w w' :=
  .of_perform_mem (fun a _ w => hG w a) h

/-- Machines that do corresponding acts in corresponding ways come to corresponding states. -/
theorem perform_map {World' Act' : Type} {act' : World' → Act' → Option World'} {f : World → World'}
    {g : Act → Act'} (h : ∀ w a, act' (f w) (g a) = (act w a).map f) (acts : List Act) (w : World) :
    perform act' (acts.map g) (f w) = (perform act acts w).map f := by
  induction acts generalizing w with
  | nil => rfl
  | cons a acts ih =>
    simp only [List.map_cons, perform]
    rw [h]
    cases act w a with
    | none => rfl
    | some w' => exact ih w'

/-- A list of acts, carried out as long as the condition admits them. -/
def performUnder (act : World → Act → Option World) (G : World → Act → Prop)
    [∀ w a, Decidable (G w a)] : List Act → World → Option World
  | [], w => some w
  | a :: acts, w => if G w a then (act w a).bind (performUnder act G acts) else none

theorem Reach.of_performUnder [∀ w a, Decidable (G w a)] {acts : List Act}
    (h : performUnder act G acts w = some w') : Reach act G w w' := by
  induction acts generalizing w with
  | nil =>
    cases h
    exact .refl
  | cons a acts ih =>
    simp only [performUnder] at h
    split at h
    · rename_i hG
      obtain ⟨w₁, ha, hrest⟩ := Option.bind_eq_some_iff.1 h
      exact .head ⟨a, hG, ha⟩ (ih hrest)
    · cases h

end Machine
