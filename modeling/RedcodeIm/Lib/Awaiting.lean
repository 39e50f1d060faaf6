import Mathlib.Data.List.Basic
import Mathlib.Order.Basic

/-!
# Programs that await

A program that acts only through awaited effects is a tree: at each node it awaits an
effect, and the answer, or the failure in its place, decides where it goes on.  What an
effect does is for the environment to say, so the same program can be met by a faithful
server, by one that loses answers, or by any other.

* `Action` — the programs, with the loops of recursive ones bounded by fuel.
* `Action.Run` — what a program has done when it stops, wherever that is.
* `Action.Run.of_bind`, `Action.Run.of_attempt` — a run that has ended, taken apart.
* `Action.CanEnd` — a run put together, from runs of the parts of a program.
* `Action.Always` — where a program awaits which effects, and how it ends, in every run;
  with a rule for each way of building programs.
* `Action.Always.ends`, `Action.Always.holds` — what that says of the runs.
* `Action.embed`, `Action.Always.embed` — a program among those of a larger signature.
* `Action.exec`, `Action.Le`, `Action.exec_of_le` — in an environment that answers in one
  way, more fuel changes nothing of a run that ends.
-/

namespace Awaiting

/-- The effects of a family of programs, what they answer and how they fail. -/
structure Signature where
  Effect : Type
  Reply : Effect → Type
  Error : Type

/-- What comes back from an effect. -/
abbrev Signature.Answer (S : Signature) (e : S.Effect) : Type := Except S.Error (S.Reply e)

/-- A program. -/
inductive Action (S : Signature) (α : Type) : Type where
  | done (a : α)
  | fail (err : S.Error)
  /-- The fuel of a loop is spent. -/
  | spent
  | await (e : S.Effect) (k : S.Answer e → Action S α)

/-- How a program ends. -/
inductive Outcome (S : Signature) (α : Type) : Type where
  | done (a : α)
  | fail (err : S.Error)
  | spent

theorem Outcome.done_ne_spent {S : Signature} {α : Type} (a : α) :
    (Outcome.done a : Outcome S α) ≠ .spent := by
  intro h
  cases h

theorem Outcome.fail_ne_spent {S : Signature} {α : Type} (err : S.Error) :
    (Outcome.fail err : Outcome S α) ≠ .spent := by
  intro h
  cases h

/-- An effect and its answer. -/
abbrev Event (S : Signature) : Type := Σ e : S.Effect, S.Answer e

/-- The effect has not failed. -/
def Event.Succeeded {S : Signature} (x : Event S) : Prop := ∃ a, x.2 = .ok a

/-- The first failure of a run is in one place. -/
theorem Event.first_failure {S : Signature} {e e' : S.Effect} {err err' : S.Error} :
    ∀ {before before' rest rest' : List (Event S)},
      (∀ x ∈ before, Event.Succeeded x) → (∀ x ∈ before', Event.Succeeded x) →
      before ++ ⟨e, .error err⟩ :: rest = before' ++ ⟨e', .error err'⟩ :: rest' → rest = rest'
  | [], [], _, _, _, _, h => (List.cons.inj h).2
  | x :: _, [], _, _, hb, _, h => by
    obtain ⟨a, ha⟩ := hb x List.mem_cons_self
    obtain rfl := (List.cons.inj h).1
    cases ha
  | [], x :: _, _, _, _, hb', h => by
    obtain ⟨a, ha⟩ := hb' x List.mem_cons_self
    obtain rfl := (List.cons.inj h).1
    cases ha
  | _ :: _, _ :: _, _, _, hb, hb', h =>
    Event.first_failure (List.forall_mem_cons.1 hb).2 (List.forall_mem_cons.1 hb').2
      (List.cons.inj h).2

/-- What an effect can answer in a world, and the world it leaves behind. -/
abbrev Env (S : Signature) (W : Type) : Type := W → (e : S.Effect) → S.Answer e → W → Prop

/-- The steps of an environment that meet a condition. -/
def Env.guard {S : Signature} {W : Type} (condition : W → S.Effect → Prop) (env : Env S W) :
    Env S W :=
  fun w e r w' => condition w e ∧ env w e r w'

/-- An environment that answers in one way. -/
abbrev Handler (S : Signature) (W : Type) : Type := W → (e : S.Effect) → S.Answer e × W

/-- The one way, as an environment. -/
def Handler.env {S : Signature} {W : Type} (h : Handler S W) : Env S W :=
  fun w e r w' => h w e = (r, w')

namespace Action

variable {S : Signature} {W α β : Type}

/-! ## Building programs -/

/-- One program after another. -/
def bind : Action S α → (α → Action S β) → Action S β
  | done a, f => f a
  | fail err, _ => fail err
  | spent, _ => spent
  | await e k, f => await e fun r => (k r).bind f

instance : Monad (Action S) where
  pure := done
  bind := bind

/-- Await one effect. -/
def perform (e : S.Effect) : Action S (S.Reply e) :=
  await e fun
    | .ok a => done a
    | .error err => fail err

/-- Turn a failure into a result. -/
def attempt : Action S α → Action S (Except S.Error α)
  | done a => done (.ok a)
  | fail err => done (.error err)
  | spent => spent
  | await e k => await e fun r => (k r).attempt

variable (a : α)

@[simp] theorem pure_eq : (pure a : Action S α) = done a := rfl

@[simp] theorem done_bind (f : α → Action S β) : (done a >>= f) = f a := rfl

variable (err : S.Error)

@[simp] theorem attempt_fail : (fail err : Action S α).attempt = done (.error err) := rfl

variable {γ : Type}

theorem bind_assoc (p : Action S α) (f : α → Action S β) (g : β → Action S γ) :
    (p >>= f) >>= g = p >>= fun a => f a >>= g := by
  induction p with
  | done | fail | spent => rfl
  | await e k ih => exact congrArg (await e) (funext ih)

/-! ## Runs -/

variable {env : Env S W}

/-- A program, run from a world, has come with the events of the list to another program in
another world. -/
inductive Run (env : Env S W) : Action S α → W → List (Event S) → Action S α → W → Prop where
  | refl (p : Action S α) (w : W) : Run env p w [] p w
  | step {e : S.Effect} {k : S.Answer e → Action S α} {w w' w'' : W} {r : S.Answer e}
      {events : List (Event S)} {p : Action S α} (h : env w e r w')
      (rest : Run env (k r) w' events p w'') :
      Run env (await e k) w (⟨e, r⟩ :: events) p w''

variable {p p' : Action S α} {w w' : W}

theorem Run.trans {p'' : Action S α} {w'' : W} {before after : List (Event S)}
    (h : Run env p w before p' w') (h' : Run env p' w' after p'' w'') :
    Run env p w (before ++ after) p'' w'' := by
  induction h with
  | refl => exact h'
  | step he _ ih => exact .step he (ih h')

variable {events : List (Event S)}

theorem Run.mono {env' : Env S W} (h : Run env p w events p' w')
    (henv : ∀ w e r w', env w e r w' → env' w e r w') :
    Run env' p w events p' w' := by
  induction h with
  | refl p w => exact .refl p w
  | step he _ ih => exact .step (henv _ _ _ _ he) ih

/-- A program that has ended. -/
def ended : Outcome S α → Action S α
  | .done a => .done a
  | .fail err => .fail err
  | .spent => .spent

/-! ## Runs that have ended, taken apart -/

variable {o : Outcome S α}

/-- A program that has ended does nothing more. -/
theorem Run.of_ended {o' : Outcome S α} (h : Run env (ended o) w events (ended o') w') :
    o' = o ∧ events = [] ∧ w' = w := by
  cases o <;> cases o' <;> cases h <;> exact ⟨rfl, rfl, rfl⟩

variable {e : S.Effect}

theorem Run.of_await {k : S.Answer e → Action S α} (h : Run env (await e k) w events (ended o) w') :
    ∃ r w₁ rest, env w e r w₁ ∧ events = ⟨e, r⟩ :: rest ∧ Run env (k r) w₁ rest (ended o) w' := by
  generalize hp : ended o = p at h
  cases h with
  | refl => cases o <;> cases hp
  | step he hrest => exact ⟨_, _, _, he, rfl, hp ▸ hrest⟩

variable {f : α → Action S β}

/-- Of two programs in a row, the first has come to an end; the second has run after it where
it has ended well. -/
theorem Run.of_bind {o : Outcome S β} (h : Run env (p >>= f) w events (ended o) w') :
    ∃ o₁ w₁ before after, Run env p w before (ended o₁) w₁ ∧ events = before ++ after ∧
      match o₁ with
      | .done a => Run env (f a) w₁ after (ended o) w'
      | .fail err => o = .fail err ∧ after = [] ∧ w' = w₁
      | .spent => o = .spent ∧ after = [] ∧ w' = w₁ := by
  induction p generalizing w events with
  | done a => exact ⟨.done a, w, [], events, .refl _ _, rfl, h⟩
  | fail err => exact ⟨.fail err, w, [], events, .refl _ _, rfl, h.of_ended (o := .fail err)⟩
  | spent => exact ⟨.spent, w, [], events, .refl _ _, rfl, h.of_ended (o := .spent)⟩
  | await e k ih =>
    obtain ⟨r, w₁, rest, he, rfl, hrest⟩ := h.of_await
    obtain ⟨o₁, w₂, before, after, hbefore, rfl, hafter⟩ := ih r hrest
    exact ⟨o₁, w₂, ⟨e, r⟩ :: before, after, .step he hbefore, rfl, hafter⟩

theorem Run.of_attempt {o : Outcome S (Except S.Error α)}
    (h : Run env p.attempt w events (ended o) w') :
    ∃ o₁, Run env p w events (ended o₁) w' ∧ o = match o₁ with
      | .done a => .done (.ok a)
      | .fail err => .done (.error err)
      | .spent => .spent := by
  induction p generalizing w events with
  | done a =>
    obtain ⟨rfl, rfl, rfl⟩ := h.of_ended (o := .done (Except.ok a))
    exact ⟨.done a, .refl _ _, rfl⟩
  | fail err =>
    obtain ⟨rfl, rfl, rfl⟩ := h.of_ended (o := .done (Except.error err))
    exact ⟨.fail err, .refl _ _, rfl⟩
  | spent =>
    obtain ⟨rfl, rfl, rfl⟩ := h.of_ended (o := .spent)
    exact ⟨.spent, .refl _ _, rfl⟩
  | await e k ih =>
    obtain ⟨r, w₁, rest, he, rfl, hrest⟩ := h.of_await
    obtain ⟨o₁, hrun, ho⟩ := ih r hrest
    exact ⟨o₁, .step he hrun, ho⟩

/-! ## Runs put together -/

/-- Some run of the program ends so. -/
def CanEnd (env : Env S W) (p : Action S α) (w : W) (o : Outcome S α) (w' : W) : Prop :=
  ∃ events, Run env p w events (ended o) w'

theorem canEnd_done (w : W) : CanEnd env (done a) w (.done a) w := ⟨[], .refl _ _⟩

theorem canEnd_perform {a : S.Reply e} (h : env w e (.ok a) w') :
    CanEnd env (perform e) w (.done a) w' := ⟨[⟨e, .ok a⟩], .step h (.refl _ _)⟩

/-- A run of a program, with another program after it. -/
theorem Run.bind (h : Run env p w events p' w') : Run env (p >>= f) w events (p' >>= f) w' := by
  induction h with
  | refl p w => exact .refl _ w
  | step he _ ih => exact .step he ih

theorem CanEnd.bind {a : α} {o : Outcome S β} {w₁ : W} (h : CanEnd env p w (.done a) w₁)
    (h' : CanEnd env (f a) w₁ o w') :
    CanEnd env (p >>= f) w o w' := by
  obtain ⟨before, hbefore⟩ := h
  obtain ⟨after, hafter⟩ := h'
  exact ⟨before ++ after, hbefore.bind.trans hafter⟩

theorem CanEnd.bind_fail {err : S.Error} (h : CanEnd env p w (.fail err) w') :
    CanEnd env (p >>= f) w (.fail err) w' := by
  obtain ⟨events, hrun⟩ := h
  exact ⟨events, hrun.bind⟩

theorem CanEnd.attempt {a : α} (h : CanEnd env p w (.done a) w') :
    CanEnd env p.attempt w (.done (.ok a)) w' := by
  obtain ⟨events, hrun⟩ := h
  refine ⟨events, ?_⟩
  generalize hp : ended (.done a : Outcome S α) = q at hrun
  induction hrun with
  | refl p w =>
    obtain rfl := hp
    exact .refl _ w
  | step he _ ih => exact .step he (ih hp)

/-! ## What holds along every run -/

/-- In every run from the world, each effect is awaited where `G` allows it, and `Q` holds at
the end. -/
def Always (env : Env S W) (G : W → S.Effect → Prop) (Q : Outcome S α → W → Prop) :
    Action S α → W → Prop
  | done a, w => Q (.done a) w
  | fail err, w => Q (.fail err) w
  | spent, w => Q .spent w
  | await e k, w => G w e ∧ ∀ r w', env w e r w' → Always env G Q (k r) w'

variable {G G' : W → S.Effect → Prop} {I : W → Prop} {Q Q' : Outcome S α → W → Prop}

@[simp] theorem always_done (w : W) : Always env G Q (done a) w ↔ Q (.done a) w := Iff.rfl

@[simp] theorem always_fail (w : W) : Always env G Q (fail err) w ↔ Q (.fail err) w := Iff.rfl

@[simp] theorem always_spent (w : W) : Always env G Q spent w ↔ Q .spent w := Iff.rfl

theorem always_true (p : Action S α) (w : W) :
    Always env (fun _ _ => True) (fun _ _ => True) p w := by
  induction p generalizing w with
  | done | fail | spent => trivial
  | await e k ih => exact ⟨trivial, fun r w' _ => ih r w'⟩

theorem Always.mono (h : Always env G Q p w) (hG : ∀ w e, G w e → G' w e)
    (hQ : ∀ o w, Q o w → Q' o w) : Always env G' Q' p w := by
  induction p generalizing w with
  | done | fail | spent => exact hQ _ _ h
  | await e k ih => exact ⟨hG w e h.1, fun r w' hw => ih r (h.2 r w' hw)⟩

/-- Another end of the same runs. -/
theorem Always.imp (h : Always env G Q p w) (hQ : ∀ o w, Q o w → Q' o w) : Always env G Q' p w :=
  h.mono (fun _ _ h => h) hQ

/-- Fewer answers make fewer runs. -/
theorem Always.mono_env {env' : Env S W} (h : Always env G Q p w)
    (henv : ∀ w e r w', env' w e r w' → env w e r w') : Always env' G Q p w := by
  induction p generalizing w with
  | done | fail | spent => exact h
  | await e k ih => exact ⟨h.1, fun r w' hw => ih r (h.2 r w' (henv w e r w' hw))⟩

theorem Always.and (h : Always env G Q p w) (h' : Always env G' Q' p w) :
    Always env (fun w e => G w e ∧ G' w e) (fun o w => Q o w ∧ Q' o w) p w := by
  induction p generalizing w with
  | done | fail | spent => exact ⟨h, h'⟩
  | await e k ih => exact ⟨⟨h.1, h'.1⟩, fun r w' hw => ih r (h.2 r w' hw) (h'.2 r w' hw)⟩

/-- What every allowed effect keeps holds throughout. -/
theorem Always.invariant (h : Always env G Q p w)
    (hkeep : ∀ w e r w', I w → G w e → env w e r w' → I w') (hI : I w) :
    Always env (fun w e => I w ∧ G w e) (fun o w => I w ∧ Q o w) p w := by
  induction p generalizing w with
  | done | fail | spent => exact ⟨hI, h⟩
  | await e k ih => exact ⟨⟨hI, h.1⟩, fun r w' hw => ih r (h.2 r w' hw) (hkeep w e r w' hI h.1 hw)⟩

theorem always_bind {Q : Outcome S β → W → Prop} :
    Always env G Q (p >>= f) w ↔ Always env G (fun o w' => match o with
      | .done a => Always env G Q (f a) w'
      | .fail err => Q (.fail err) w'
      | .spent => Q .spent w') p w := by
  induction p generalizing w with
  | done | fail | spent => exact Iff.rfl
  | await e k ih =>
    exact and_congr_right fun _ => forall_congr' fun r => forall_congr' fun w' =>
      imp_congr_right fun _ => ih r

/-- One program after another, by what is known of the first. -/
theorem Always.bind {Q : Outcome S α → W → Prop} {Q' : Outcome S β → W → Prop}
    (hp : Always env G Q p w) (hdone : ∀ a w', Q (.done a) w' → Always env G Q' (f a) w')
    (hfail : ∀ err w', Q (.fail err) w' → Q' (.fail err) w')
    (hspent : ∀ w', Q .spent w' → Q' .spent w') : Always env G Q' (p >>= f) w := by
  refine always_bind.2 (hp.imp fun o w' ho => ?_)
  cases o with
  | done a => exact hdone a w' ho
  | fail err => exact hfail err w' ho
  | spent => exact hspent w' ho

theorem always_attempt {Q : Outcome S (Except S.Error α) → W → Prop} :
    Always env G Q p.attempt w ↔ Always env G (fun o w' => match o with
      | .done a => Q (.done (.ok a)) w'
      | .fail err => Q (.done (.error err)) w'
      | .spent => Q .spent w') p w := by
  induction p generalizing w with
  | done | fail | spent => exact Iff.rfl
  | await e k ih =>
    exact and_congr_right fun _ => forall_congr' fun r => forall_congr' fun w' =>
      imp_congr_right fun _ => ih r

theorem always_perform {Q : Outcome S (S.Reply e) → W → Prop} :
    Always env G Q (perform e) w ↔ G w e ∧ ∀ r w', env w e r w' → match r with
      | .ok a => Q (.done a) w'
      | .error err => Q (.fail err) w' := by
  refine and_congr_right fun _ => forall_congr' fun r => forall_congr' fun w' =>
    imp_congr_right fun _ => ?_
  cases r <;> exact Iff.rfl

/-- The effect is allowed, and from each answer to it the program goes on well. -/
theorem always_perform_bind {f : S.Reply e → Action S α} :
    Always env G Q (perform e >>= f) w ↔ G w e ∧ ∀ r w', env w e r w' → match r with
      | .ok a => Always env G Q (f a) w'
      | .error err => Q (.fail err) w' := by
  refine and_congr_right fun _ => forall_congr' fun r => forall_congr' fun w' =>
    imp_congr_right fun _ => ?_
  cases r <;> exact Iff.rfl

/-- A loop over a list: what holds of the list that is left and of the value so far. -/
theorem Always.foldlM {f : β → γ → Action S β} {P : List γ → β → W → Prop} {E : S.Error → W → Prop}
    {R : W → Prop} (hstep : ∀ x xs b w, P (x :: xs) b w → Always env G (fun o w' => match o with 
      | .done b' => P xs b' w'
      | .fail err => E err w'
      | .spent => R w') (f b x) w) :
    ∀ (xs : List γ) (b : β) (w : W), P xs b w → Always env G (fun o w' => match o with
      | .done b' => P [] b' w'
      | .fail err => E err w'
      | .spent => R w') (xs.foldlM f b) w
  | [], _, _, h => h
  | x :: xs, b, w, h => by
    rw [List.foldlM_cons, always_bind]
    refine (hstep x xs b w h).imp fun o w' ho => ?_
    cases o with
    | done b' => exact Always.foldlM hstep xs b' w' ho
    | fail | spent => exact ho

/-- A loop that leaves the world as it is, and finds `P` of each value before it goes on. -/
theorem Always.forM {f : γ → Action S PUnit} {P : γ → Prop} {w : W}
    (hstep : ∀ x, Always env G (fun o w' => w' = w ∧ (o = .done ⟨⟩ → P x)) (f x) w) :
    ∀ xs : List γ, Always env G (fun o w' => w' = w ∧ (o = .done ⟨⟩ → ∀ x ∈ xs, P x)) (xs.forM f) w
  | [] => ⟨rfl, fun _ => List.forall_mem_nil P⟩
  | x :: xs => by
    refine (hstep x).bind (fun _ w' h => ?_) (fun err w' h => ⟨h.1, fun he => by cases he⟩)
      (fun w' h => ⟨h.1, fun he => by cases he⟩)
    obtain ⟨rfl, hx⟩ := h
    refine (Always.forM hstep xs).imp fun o w' h => ⟨h.1, fun ho => ?_⟩
    exact List.forall_mem_cons.2 ⟨hx rfl, h.2 ho⟩

/-- **Soundness**: what is left of a program on the way goes on well. -/
theorem Always.run (h : Always env G Q p w) (hrun : Run env p w events p' w') :
    Always env G Q p' w' := by
  induction hrun with
  | refl => exact h
  | step he _ ih => exact ih (h.2 _ _ he)

/-- At the end of a run `Q` holds. -/
theorem Always.ends (h : Always env G Q p w) (hrun : Run env p w events (ended o) w') : Q o w' := by
  have hend := h.run hrun
  cases o <;> exact hend

/-- What every allowed effect keeps holds wherever a run stops. -/
theorem Always.holds (h : Always env G Q p w)
    (hkeep : ∀ w e r w', I w → G w e → env w e r w' → I w') (hI : I w)
    (hrun : Run env p w events p' w') : I w' := by
  induction hrun with
  | refl => exact hI
  | step he _ ih => exact ih (h.2 _ _ he) (hkeep _ _ _ _ hI h.1 he)

/-- What is guaranteed before every effect and at the end is true where a run stops. -/
theorem Always.stop (h : Always env (fun w _ => I w) (fun o w => I w ∧ Q o w) p w)
    (hrun : Run env p w events p' w') : I w' := by
  have hstop := h.run hrun
  cases p' with
  | _ => exact hstop.1

/-! ## The effects a program may await -/

/-- Every effect of the program is one of `P`. -/
def Uses (P : S.Effect → Prop) : Action S α → Prop
  | done _ => True
  | fail _ => True
  | spent => True
  | await e k => P e ∧ ∀ r, Uses P (k r)

variable {P : S.Effect → Prop}

theorem Uses.bind (hp : Uses P p) (hf : ∀ a, Uses P (f a)) : Uses P (p >>= f) := by
  induction p with
  | done a => exact hf a
  | fail | spent => trivial
  | await e k ih => exact ⟨hp.1, fun r => ih r (hp.2 r)⟩

theorem Uses.attempt (hp : Uses P p) : Uses P p.attempt := by
  induction p with
  | done | fail | spent => trivial
  | await e k ih => exact ⟨hp.1, fun r => ih r (hp.2 r)⟩

theorem uses_perform (h : P e) : Uses P (perform e) :=
  ⟨h, fun r => by cases r <;> trivial⟩

theorem Uses.forM {f : γ → Action S PUnit} (hf : ∀ x, Uses P (f x)) :
    ∀ xs : List γ, Uses P (xs.forM f)
  | [] => trivial
  | x :: xs => (hf x).bind fun _ => Uses.forM hf xs

theorem Uses.mono {P' : S.Effect → Prop} (hp : Uses P p) (h : ∀ e, P e → P' e) : Uses P' p := by
  induction p with
  | done | fail | spent => trivial
  | await e k ih => exact ⟨h e hp.1, fun r => ih r (hp.2 r)⟩

/-- What every effect of the program keeps, every run of it keeps. -/
theorem Uses.always (h : Uses P p) (hG : ∀ w e, P e → G w e)
    (hkeep : ∀ w e r w', P e → env w e r w' → I w → I w') (hI : I w) :
    Always env G (fun _ w => I w) p w := by
  induction p generalizing w with
  | done | fail | spent => exact hI
  | await e k ih => exact ⟨hG w e h.1, fun r w' hw => ih r (h.2 r) (hkeep w e r w' h.1 hw hI)⟩

/-- A run of the program meets a condition that its effects meet. -/
theorem Uses.guard {condition : W → S.Effect → Prop} (h : Uses P p)
    (hcondition : ∀ w e, P e → condition w e) (hrun : Run env p w events p' w') :
    Run (env.guard condition) p w events p' w' := by
  induction hrun with
  | refl p w => exact .refl p w
  | step he _ ih => exact .step ⟨hcondition _ _ h.1, he⟩ (ih (h.2 _))

/-! ## Programs without loops on fuel -/

/-- The program does not run out of fuel. -/
def Unspent : Action S α → Prop
  | done _ => True
  | fail _ => True
  | spent => False
  | await _ k => ∀ r, Unspent (k r)

theorem Unspent.bind (hp : Unspent p) (hf : ∀ a, Unspent (f a)) : Unspent (p >>= f) := by
  induction p with
  | done a => exact hf a
  | fail err => trivial
  | spent => cases hp
  | await e k ih => exact fun r => ih r (hp r)

theorem Unspent.attempt (hp : Unspent p) : Unspent p.attempt := by
  induction p with
  | done | fail => trivial
  | spent => cases hp
  | await e k ih => exact fun r => ih r (hp r)

theorem unspent_perform (e : S.Effect) : Unspent (perform e) :=
  fun r => by cases r <;> trivial

theorem Unspent.foldlM {f : β → γ → Action S β} (hf : ∀ b x, Unspent (f b x)) :
    ∀ (xs : List γ) (b : β), Unspent (xs.foldlM f b)
  | [], _ => trivial
  | x :: xs, b => by
    rw [List.foldlM_cons]
    exact (hf b x).bind fun b' => Unspent.foldlM hf xs b'

theorem Unspent.always (h : Unspent p) :
    Always env (fun _ _ => True) (fun o _ => o ≠ .spent) p w := by
  induction p generalizing w with
  | done a => exact Outcome.done_ne_spent a
  | fail err => exact Outcome.fail_ne_spent err
  | spent => cases h
  | await e k ih => exact ⟨trivial, fun r w' _ => ih r (h r)⟩

/-! ## One signature within another -/

section

variable {S' : Signature} {env' : Env S' W}

/-- The effects of one signature among those of another. -/
structure Embedding (S S' : Signature) where
  effect : S.Effect → S'.Effect
  answer : (e : S.Effect) → S'.Answer (effect e) → S.Answer e
  error : S.Error → S'.Error

/-- A program that awaits its effects among those of a larger signature. -/
def embed (ι : Embedding S S') : Action S α → Action S' α
  | done a => done a
  | fail err => fail (ι.error err)
  | spent => spent
  | await e k => await (ι.effect e) fun r => (k (ι.answer e r)).embed ι

/-- The larger environment, as such a program meets it. -/
def Embedding.pull (ι : Embedding S S') (env' : Env S' W) : Env S W :=
  fun w e r w' => ∃ r', env' w (ι.effect e) r' w' ∧ ι.answer e r' = r

theorem Always.embed {ι : Embedding S S'} {G' : W → S'.Effect → Prop}
    {Q' : Outcome S' α → W → Prop} {p : Action S α} {w : W}
    (h : Always (ι.pull env') (fun w e => G' w (ι.effect e)) (fun o w => match o with
      | .done a => Q' (.done a) w
      | .fail err => Q' (.fail (ι.error err)) w
      | .spent => Q' .spent w) p w) : Always env' G' Q' (p.embed ι) w := by
  induction p generalizing w with
  | done | fail | spent => exact h
  | await e k ih => exact ⟨h.1, fun r w' henv => ih _ (h.2 _ w' ⟨r, henv, rfl⟩)⟩

theorem Uses.embed {ι : Embedding S S'} {P' : S'.Effect → Prop} {p : Action S α}
    (h : Uses (fun e => P' (ι.effect e)) p) : Uses P' (p.embed ι) := by
  induction p with
  | done | fail | spent => trivial
  | await e k ih => exact ⟨h.1, fun r => ih _ (h.2 _)⟩

end

/-! ## One way to answer -/

/-- The run of a program when every effect is answered in one way. -/
def exec (h : Handler S W) : Action S α → W → Outcome S α × W
  | done a, w => (.done a, w)
  | fail err, w => (.fail err, w)
  | spent, w => (.spent, w)
  | await e k, w => exec h (k (h w e).1) (h w e).2

variable {h : Handler S W}

theorem run_exec (p : Action S α) (w : W) :
    ∃ events, Run h.env p w events (ended (exec h p w).1) (exec h p w).2 := by
  induction p generalizing w with
  | done | fail | spent => exact ⟨[], .refl _ _⟩
  | await e k ih =>
    obtain ⟨events, hrun⟩ := ih (h w e).1 (h w e).2
    exact ⟨⟨e, (h w e).1⟩ :: events, .step rfl hrun⟩

theorem exec_bind (p : Action S α) (f : α → Action S β) (w : W) :
    exec h (p >>= f) w = match exec h p w with
      | (.done a, w') => exec h (f a) w'
      | (.fail err, w') => (.fail err, w')
      | (.spent, w') => (.spent, w') := by
  induction p generalizing w with
  | done | fail | spent => rfl
  | await e k ih => exact ih (h w e).1 (h w e).2

end Action

end Awaiting
