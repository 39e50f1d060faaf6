import Mathlib.Logic.Relation
import RedcodeIm.Lib.Awaiting

/-!
# Programs that are cut short and begun again

A program runs, stops anywhere, and another one runs in the world it has left behind.  Others
change that world at any time, also while a program waits for its next effect.

* `among` — an environment in which others act before each effect.
* `History` — programs run one after another, each of which may have been cut short.
* `always_among` — the rule for an effect among others.
* `History.holds` — an invariant that the others keep, and every program at each of its effects.
* `History.keeps` — what each step keeps of the world before it.
-/

namespace Restarts

open Awaiting Relation

variable {S : Signature} {W α : Type}

/-- An environment in which others act before each effect. -/
def among (others : W → W → Prop) (env : Env S W) : Env S W :=
  fun w e r w' => ∃ w₁, ReflTransGen others w w₁ ∧ env w₁ e r w'

/-- The worlds that programs run one after another, cut short anywhere, lead to. -/
inductive History (env : Env S W) (others : W → W → Prop) (admitted : Action S α → Prop)
    (w : W) : W → Prop where
  | nil : History env others admitted w w
  /-- A program runs for a while. -/
  | attempt {p p' : Action S α} {w₁ w₂ : W} {events : List (Event S)}
      (h : History env others admitted w w₁) (hp : admitted p)
      (hrun : Action.Run (among others env) p w₁ events p' w₂) : History env others admitted w w₂
  /-- No program runs. -/
  | meanwhile {w₁ w₂ : W} (h : History env others admitted w w₁) (hothers : others w₁ w₂) :
      History env others admitted w w₂

section

variable {env env' : Env S W} {others others' : W → W → Prop} {admitted : Action S α → Prop}
  {I : W → Prop} {G : W → S.Effect → Prop} {Q : Outcome S α → W → Prop} {w w' w'' : W}

theorem among_self {e : S.Effect} {r : S.Answer e} (h : env w e r w') :
    among others env w e r w' :=
  ⟨w, .refl, h⟩

/-- What a step of the others keeps, any number of them keep. -/
theorem stable_of_step (hstable : ∀ w w', I w → others w w' → I w') (hI : I w)
    (h : ReflTransGen others w w') : I w' := by
  induction h with
  | refl => exact hI
  | tail _ ho ih => exact hstable _ _ ih ho

/-- An effect of a program: what is known before it may only be what the others keep. -/
theorem always_among {e : S.Effect} {k : S.Answer e → Action S α}
    (hstable : ∀ w w', I w → others w w' → I w') (hI : I w) (hG : G w e)
    (h : ∀ w₁ r w', I w₁ → env w₁ e r w' → Action.Always (among others env) G Q (k r) w') :
    Action.Always (among others env) G Q (.await e k) w := by
  refine ⟨hG, fun r w' hw => ?_⟩
  obtain ⟨w₁, hw₁, he⟩ := hw
  exact h w₁ r w' (stable_of_step hstable hI hw₁) he

/-- **An invariant over restarts.** -/
theorem History.holds (hstable : ∀ w w', I w → others w w' → I w')
    (hrun : ∀ p w, admitted p → I w →
      Action.Always (among others env) (fun w _ => I w) (fun _ w => I w) p w)
    (h : History env others admitted w w') (hI : I w) : I w' := by
  induction h with
  | nil => exact hI
  | attempt _ hp hr ih =>
    exact ((hrun _ _ hp ih).imp fun _ _ h => ⟨h, h⟩).stop hr
  | meanwhile _ ho ih => exact hstable _ _ ih ho

/-- **What each step keeps** of the world before it, a whole history keeps. -/
theorem History.keeps {R : W → W → Prop} (hrefl : ∀ w, R w w)
    (htrans : ∀ {w w' w''}, R w w' → R w' w'' → R w w'')
    (hstable : ∀ w w', I w → others w w' → I w' ∧ R w w')
    (henv : ∀ w e r w', I w → env w e r w' → R w w')
    (hrun : ∀ p w, admitted p → I w →
      Action.Always (among others env) (fun w _ => I w) (fun _ w => I w) p w)
    (h : History env others admitted w w') (hI : I w) : R w w' := by
  have hstep : ∀ w w', I w → others w w' → I w' := fun w w' hI ho => (hstable w w' hI ho).1
  have hothers : ∀ {w w'}, I w → ReflTransGen others w w' → I w' ∧ R w w' := by
    intro w w' hI ho
    induction ho with
    | refl => exact ⟨hI, hrefl w⟩
    | tail _ ho ih => exact ⟨hstep _ _ ih.1 ho, htrans ih.2 (hstable _ _ ih.1 ho).2⟩
  have hkeep : ∀ {p p' : Action S α} {w w' : W} {events : List (Event S)},
      Action.Always (among others env) (fun w _ => I w) (fun _ w => I w) p w →
      Action.Run (among others env) p w events p' w' → R w w' := by
    intro p p' w w' events hp hr
    induction hr with
    | refl => exact hrefl _
    | step he _ ih =>
      have hnext := hp.2 _ _ he
      obtain ⟨w₁, hw₁, he⟩ := he
      obtain ⟨hI₁, hR⟩ := hothers hp.1 hw₁
      exact htrans (htrans hR (henv _ _ _ _ hI₁ he)) (ih hnext)
  induction h with
  | nil => exact hrefl _
  | attempt h hp hr ih => exact htrans ih (hkeep (hrun _ _ hp (h.holds hstep hrun hI)) hr)
  | meanwhile h ho ih => exact htrans ih (hstable _ _ (h.holds hstep hrun hI) ho).2

end

end Restarts
