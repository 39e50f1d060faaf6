import Mathlib.Logic.Relation
import RedcodeIm.Lib.Awaiting

/-!
# Programs that await side by side

Programs that share a world and take turns: at each step one of them has the effect it
awaits performed, in whatever order.  Between two of its own steps a program may find that
the others have changed the world, so what is known of it may only rest on what holds of
the world at all times.

* `Pool` — the world and the programs on their way in it; a program that has been cut
  short is one that has no further turn.
* `Step`, `Reach` — a program is admitted, or one of the pool takes a turn.
* `Disciplined` — what a program awaits, if the answers come from worlds with the invariant.
* `Disciplined.holds` — the invariant that the admitted programs keep by their discipline
  holds in every pool that is reached.
* `Disciplined.since` — programs admitted after an invariant has come to hold for good.
* `Relies` — what a program awaits, if the others only take the world where they may; it may
  remember what it has been told, as far as the others leave it true.
* `Relies.holds` — the invariant that programs keep which rely on each other.
* `Reach.run` — a program that runs alone.
-/

namespace Interleaving

open Awaiting List

variable {S : Signature} {W α : Type}

/-- A world, and the programs that share it. -/
structure Pool (S : Signature) (W α : Type) where
  world : W
  running : List (Action S α)

/-- The effect is the next one of a program of the pool. -/
def Pool.Awaits (pool : Pool S W α) (e : S.Effect) : Prop :=
  ∃ k, Action.await e k ∈ pool.running

/-- One step of a pool. -/
inductive Step (env : Env S W) (admitted : Action S α → Prop) :
    Pool S W α → Pool S W α → Prop where
  | begin {p : Action S α} (w : W) (running : List (Action S α)) (h : admitted p) :
      Step env admitted ⟨w, running⟩ ⟨w, running ++ [p]⟩
  | act {w w' : W} {e : S.Effect} {k : S.Answer e → Action S α} {r : S.Answer e}
      (before after : List (Action S α)) (h : env w e r w') :
      Step env admitted ⟨w, before ++ .await e k :: after⟩ ⟨w', before ++ k r :: after⟩

/-- Any number of steps. -/
abbrev Reach (env : Env S W) (admitted : Action S α → Prop) : Pool S W α → Pool S W α → Prop :=
  Relation.ReflTransGen (Step env admitted)

/-! ## Discipline -/

/-- The answers that come from worlds with the invariant, whichever they are. -/
def answers (I : W → Prop) (env : Env S W) : Env S Unit :=
  fun _ e r _ => ∃ w w', I w ∧ env w e r w'

/-- Wherever the program has come to, by answers from worlds with the invariant, the effect it
awaits is one of `G`. -/
def Disciplined (I : W → Prop) (env : Env S W) (G : S.Effect → Prop) (p : Action S α) : Prop :=
  Action.Always (answers I env) (fun _ e => G e) (fun _ _ => True) p ()

variable {env : Env S W} {I : W → Prop} {G : S.Effect → Prop} {admitted : Action S α → Prop}
  {pool pool' : Pool S W α}

variable {p : Action S α}

theorem Disciplined.of_uses (h : p.Uses G) : Disciplined I env G p :=
  (h.always (I := fun _ => True) (fun _ _ he => he) (fun _ _ _ _ _ _ _ => trivial) trivial).imp
    fun _ _ _ => trivial

theorem Disciplined.awaits (h : ∀ p ∈ pool.running, Disciplined I env G p) {e : S.Effect}
    (he : pool.Awaits e) : G e := by
  obtain ⟨k, hk⟩ := he
  exact (h _ hk).1

/-- One turn. -/
theorem Disciplined.step (hadmitted : ∀ p, admitted p → Disciplined I env G p)
    (hkeep : ∀ w e r w', I w → G e → env w e r w' → I w') (h : Step env admitted pool pool')
    (hI : I pool.world) (hp : ∀ p ∈ pool.running, Disciplined I env G p) :
    I pool'.world ∧ ∀ p ∈ pool'.running, Disciplined I env G p := by
  cases h with
  | begin w running hbegin =>
    refine ⟨hI, fun q hq => ?_⟩
    rcases mem_append.mp hq with hq | hq
    · exact hp q hq
    · obtain rfl := mem_singleton.mp hq
      exact hadmitted q hbegin
  | act before after henv =>
    obtain ⟨hG, hnext⟩ := hp _ (mem_append_right _ mem_cons_self)
    refine ⟨hkeep _ _ _ _ hI hG henv, fun q hq => ?_⟩
    rcases mem_append.mp hq with hq | hq
    · exact hp q (mem_append_left _ hq)
    · rcases mem_cons.mp hq with rfl | hq
      · exact hnext _ () ⟨_, _, hI, henv⟩
      · exact hp q (mem_append_right _ (mem_cons_of_mem _ hq))

/-- **Rely and guarantee**: an invariant that every effect of the admitted programs keeps, as
long as their answers come from worlds with it, holds whatever the order of their turns. -/
theorem Disciplined.holds (hadmitted : ∀ p, admitted p → Disciplined I env G p)
    (hkeep : ∀ w e r w', I w → G e → env w e r w' → I w') (h : Reach env admitted pool pool')
    (hI : I pool.world) (hp : ∀ p ∈ pool.running, Disciplined I env G p) :
    I pool'.world ∧ ∀ p ∈ pool'.running, Disciplined I env G p := by
  induction h with
  | refl => exact ⟨hI, hp⟩
  | tail _ hstep ih => exact Disciplined.step hadmitted hkeep hstep ih.1 ih.2

/-! ## Relying on the others -/

/-- Before each effect the others have taken the world somewhere by `R`, with the invariant. -/
def relying (I : W → Prop) (R : W → W → Prop) (env : Env S W) : Env S W :=
  fun w e r w' => ∃ w₁, R w w₁ ∧ I w₁ ∧ env w₁ e r w'

/-- Wherever the program has come to among others that keep to `R`, the effect it awaits is one
that `G` allows. -/
def Relies (I : W → Prop) (R : W → W → Prop) (env : Env S W) (G : W → S.Effect → Prop)
    (p : Action S α) (w : W) : Prop :=
  Action.Always (relying I R env) G (fun _ _ => True) p w

section

variable {R : W → W → Prop} {H : W → S.Effect → Prop}

variable {p : Action S α}

theorem Relies.of_uses {w : W} {P : S.Effect → Prop} (h : p.Uses P) (hP : ∀ w e, P e → H w e) :
    Relies I R env H p w :=
  h.always (I := fun _ => True) hP (fun _ _ _ _ _ _ _ => trivial) trivial

/-- What the others leave true is still known at the end. -/
theorem Relies.remembers {K : W → Prop} (hK : ∀ w w', R w w' → K w → K w')
    (hstable : ∀ w w' e, R w w' → H w e → H w' e)
    (hkeep : ∀ w e r w', I w → H w e → env w e r w' → R w w') {w : W} (h : Relies I R env H p w)
    (hw : K w) :
    Action.Always (relying I R env) H (fun _ w' => K w') p w := by
  have hknown : ∀ w e r w', K w → H w e → relying I R env w e r w' → K w' := by
    rintro w e r w' hw he ⟨w₁, hR, hI, henv⟩
    exact hK w₁ w' (hkeep w₁ e r w' hI (hstable w w₁ e hR he) henv) (hK w w₁ hR hw)
  exact (h.invariant hknown hw).mono (fun _ _ h => h.2) fun _ _ h => h.1

/-- What the others do meanwhile is what the program relies on. -/
theorem Relies.meanwhile (htrans : ∀ w w' w'', R w w' → R w' w'' → R w w'')
    (hstable : ∀ w w' e, R w w' → H w e → H w' e) {w w' : W} (h : Relies I R env H p w)
    (hR : R w w') : Relies I R env H p w' := by
  cases p with
  | await e k =>
    refine ⟨hstable _ _ _ hR h.1, fun r w'' henv => h.2 r w'' ?_⟩
    obtain ⟨w₁, hw₁, hI, he⟩ := henv
    exact ⟨w₁, htrans _ _ _ hR hw₁, hI, he⟩
  | _ => trivial

/-- **Rely and guarantee, with a memory**: every effect that is allowed keeps the invariant and
goes by `R`, so each program may rely on it of the others. -/
theorem Relies.holds (hrefl : ∀ w, R w w) (htrans : ∀ w w' w'', R w w' → R w' w'' → R w w'')
    (hstable : ∀ w w' e, R w w' → H w e → H w' e)
    (hadmitted : ∀ p w, admitted p → I w → Relies I R env H p w)
    (hkeep : ∀ w e r w', I w → H w e → env w e r w' → I w' ∧ R w w')
    (h : Reach env admitted pool pool') (hI : I pool.world)
    (hp : ∀ p ∈ pool.running, Relies I R env H p pool.world) :
    I pool'.world ∧ ∀ p ∈ pool'.running, Relies I R env H p pool'.world := by
  induction h with
  | refl => exact ⟨hI, hp⟩
  | tail _ hstep ih =>
    obtain ⟨hI, hp⟩ := ih
    cases hstep with
    | begin w running hbegin =>
      refine ⟨hI, fun q hq => ?_⟩
      rcases mem_append.mp hq with hq | hq
      · exact hp q hq
      · obtain rfl := mem_singleton.mp hq
        exact hadmitted q w hbegin hI
    | @act w w' e k r before after henv =>
      obtain ⟨hH, hnext⟩ := hp _ (mem_append_right _ mem_cons_self)
      obtain ⟨hI', hR⟩ := hkeep _ _ _ _ hI hH henv
      have hothers : ∀ q : Action S α, Relies I R env H q w → Relies I R env H q w' :=
        fun q hq => hq.meanwhile htrans hstable hR
      refine ⟨hI', fun q hq => ?_⟩
      rcases mem_append.mp hq with hq | hq
      · exact hothers q (hp q (mem_append_left _ hq))
      · rcases mem_cons.mp hq with rfl | hq
        · exact hnext _ _ ⟨w, hrefl w, hI, henv⟩
        · exact hothers q (hp q (mem_append_right _ (mem_cons_of_mem _ hq)))

end

/-! ## From some point on -/

/-- The steps between worlds with the invariant. -/
def within (I : W → Prop) (env : Env S W) : Env S W :=
  fun w e r w' => I w ∧ env w e r w' ∧ I w'

variable {p' : Action S α} {events : List (Event S)}

theorem within_run {w w' : W} (h : Action.Run env p w events p' w') (hI : I w)
    (hkeep : ∀ w e r w', I w → env w e r w' → I w') :
    Action.Run (within I env) p w events p' w' := by
  induction h with
  | refl p w => exact .refl p w
  | step he _ ih =>
    have hI' := hkeep _ _ _ _ hI he
    exact .step ⟨hI, he, hI'⟩ (ih hI')

theorem Reach.of_within (h : Reach (within I env) admitted pool pool') :
    Reach env admitted pool pool' := by
  induction h with
  | refl => exact .refl
  | tail _ hstep ih =>
    refine ih.tail ?_
    cases hstep with
    | begin w running hp => exact .begin w running hp
    | act before after he => exact .act before after he.2.1

/-- The effect is the next one of a program that came after the first `n`. -/
def Pool.AwaitsFrom (n : ℕ) (pool : Pool S W α) (e : S.Effect) : Prop :=
  ∃ k, Action.await e k ∈ pool.running.drop n

theorem Disciplined.step_within {n : ℕ} (hadmitted : ∀ p, admitted p → Disciplined I env G p)
    (h : Step (within I env) admitted pool pool') (hn : n ≤ pool.running.length)
    (hp : ∀ p ∈ pool.running.drop n, Disciplined I env G p) :
    n ≤ pool'.running.length ∧ ∀ p ∈ pool'.running.drop n, Disciplined I env G p := by
  cases h with
  | @begin p w running hbegin =>
    have hlength : n ≤ (running ++ [p]).length := by
      rw [length_append]
      exact Nat.le_trans hn (Nat.le_add_right _ _)
    refine ⟨hlength, fun q hq => ?_⟩
    rw [drop_append_of_le_length hn] at hq
    rcases mem_append.mp hq with hq | hq
    · exact hp q hq
    · obtain rfl := mem_singleton.mp hq
      exact hadmitted q hbegin
  | act before after henv =>
    refine ⟨by simpa using hn, fun q hq => ?_⟩
    rw [drop_append] at hp hq
    rcases mem_append.mp hq with hq | hq
    · exact hp q (mem_append_left _ hq)
    · cases hdrop : n - before.length with
      | zero =>
        rw [hdrop] at hp hq
        obtain ⟨-, hnext⟩ := hp _ (mem_append_right _ mem_cons_self)
        rcases mem_cons.mp hq with rfl | hq
        · exact hnext _ () ⟨_, _, henv.1, henv.2.1⟩
        · exact hp q (mem_append_right _ (mem_cons_of_mem _ hq))
      | succ m =>
        rw [hdrop] at hp hq
        exact hp q (mem_append_right _ hq)

theorem Disciplined.reach_within {n : ℕ} (hadmitted : ∀ p, admitted p → Disciplined I env G p)
    (h : Reach (within I env) admitted pool pool') (hn : n ≤ pool.running.length)
    (hp : ∀ p ∈ pool.running.drop n, Disciplined I env G p) :
    n ≤ pool'.running.length ∧ ∀ p ∈ pool'.running.drop n, Disciplined I env G p := by
  induction h with
  | refl => exact ⟨hn, hp⟩
  | tail _ hstep ih =>
    obtain ⟨hn, hp⟩ := ih
    exact Disciplined.step_within hadmitted hstep hn hp

/-- The programs that came while the invariant held all along are disciplined, whatever the
others are. -/
theorem Disciplined.since (hadmitted : ∀ p, admitted p → Disciplined I env G p)
    (h : Reach (within I env) admitted pool pool') {e : S.Effect}
    (he : pool'.AwaitsFrom pool.running.length e) : G e := by
  have hnone : ∀ p ∈ pool.running.drop pool.running.length, Disciplined I env G p := by
    rw [drop_length]
    exact forall_mem_nil _
  obtain ⟨k, hk⟩ := he
  exact ((Disciplined.reach_within hadmitted h (Nat.le_refl _) hnone).2 _ hk).1

/-! ## Turns of one program -/

theorem Reach.turns {w w' : W} (h : Action.Run env p w events p' w')
    (before after : List (Action S α)) :
    Reach env admitted ⟨w, before ++ p :: after⟩ ⟨w', before ++ p' :: after⟩ := by
  induction h with
  | refl => exact .refl
  | step he _ ih => exact .head (.act before after he) ih

/-- A program is admitted and has some turns in a row. -/
theorem Reach.run {w w' : W} (h : Action.Run env p w events p' w') (hp : admitted p)
    (running : List (Action S α)) :
    Reach env admitted ⟨w, running⟩ ⟨w', running ++ [p']⟩ :=
  .head (.begin w running hp) (Reach.turns h running [])

end Interleaving
