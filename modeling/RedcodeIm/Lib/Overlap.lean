import Mathlib.Data.Nat.Notation
import Mathlib.Logic.Function.Basic
import Mathlib.Logic.Relation

/-!
# Calls that overlap

A service answers any number of calls at a time.  A call is a row of statements, each of them
atomic; between any two of them other calls run, and time goes on.  A statement may fail, and one
that fails may have been carried out all the same; a call may also get no further for good.

* `System` — the statements of the calls, by stages, and what happens beside them.
* `State` — the world, every call that was made, and where it stands.
* `Step`, `Reach` — whatever happens, under a condition on the statements that are carried out.
* `Reach.invariant`, `Reach.each`, `Reach.apart` — invariants of the whole, of each call, and of
  each two calls.
* `State.act`, `Reach.of_perform`, `Reach.of_perform_below` — a schedule, carried out.
-/

namespace Overlap

/-! ## Calls -/

/-- What a statement makes of its call: it goes on at a stage, or it ends with an answer. -/
inductive Next (Stage Answer : Type) where
  | goto (stage : Stage)
  | done (answer : Answer)
  deriving DecidableEq

/-- Where a call stands. -/
inductive Status (Stage Answer : Type) where
  | running (stage : Stage)
  | answered (answer : Answer)
  | failed
  deriving DecidableEq

def Next.status {Stage Answer : Type} : Next Stage Answer → Status Stage Answer
  | .goto stage => .running stage
  | .done answer => .answered answer

/-- The stages, as stages of something larger. -/
def Next.map {Stage Stage' Answer : Type} (f : Stage → Stage') :
    Next Stage Answer → Next Stage' Answer
  | .goto stage => .goto (f stage)
  | .done answer => .done answer

/-- The statements of a service.  A choice is what a statement draws from outside: a random
number, or what it meets by chance. -/
structure System (World Call Stage Answer Choice Tick : Type) where
  start : Call → Stage
  stmt : World → Call → Stage → Choice → World × Next Stage Answer
  possible : World → Call → Stage → Choice → Bool
  /-- What happens beside the calls: time goes on. -/
  tick : World → Tick → World

/-- The world, and all the calls. -/
structure State (World Call Stage Answer : Type) where
  world : World
  calls : ℕ → Option (Call × Status Stage Answer)

variable {World Call Stage Answer Choice Tick : Type}

namespace State

/-- A world in which nobody has called. -/
def idle (w : World) : State World Call Stage Answer := ⟨w, fun _ => none⟩

/-- A call comes to stand elsewhere, in another world. -/
def put (s : State World Call Stage Answer) (w : World) (i : ℕ) (c : Call)
    (st : Status Stage Answer) : State World Call Stage Answer :=
  ⟨w, Function.update s.calls i (some (c, st))⟩

variable {s : State World Call Stage Answer} {w : World} {i j : ℕ} {c c' : Call}
  {st st' : Status Stage Answer}

@[simp] theorem put_self : (s.put w i c st).calls i = some (c, st) := Function.update_self ..

theorem put_of_ne (h : j ≠ i) : (s.put w i c st).calls j = s.calls j := Function.update_of_ne h ..

/-- A call of the new state is the one that was moved, or one that stands where it stood. -/
theorem put_cases (h : (s.put w i c st).calls j = some (c', st')) :
    (j = i ∧ c' = c ∧ st' = st) ∨ (j ≠ i ∧ s.calls j = some (c', st')) := by
  by_cases hj : j = i
  · subst hj
    rw [put_self] at h
    cases Option.some.inj h
    exact .inl ⟨rfl, rfl, rfl⟩
  · rw [put_of_ne hj] at h
    exact .inr ⟨hj, h⟩

end State

/-! ## Steps -/

/-- A condition on the statements that are carried out: in which state, of which call, with which
choice. -/
abbrev Condition (World Call Stage Answer Choice : Type) : Type :=
  State World Call Stage Answer → ℕ → Choice → Prop

/-- One thing that happens. -/
inductive Step (P : System World Call Stage Answer Choice Tick)
    (G : Condition World Call Stage Answer Choice) (s : State World Call Stage Answer) :
    State World Call Stage Answer → Prop where
  | start {i : ℕ} (c : Call) (hnew : s.calls i = none) :
      Step P G s (s.put s.world i c (.running (P.start c)))
  | run {i : ℕ} {c : Call} {stage : Stage} {x : Choice}
      (hcall : s.calls i = some (c, .running stage))
      (hx : P.possible s.world c stage x = true) (hG : G s i x) :
      Step P G s (s.put (P.stmt s.world c stage x).1 i c (P.stmt s.world c stage x).2.status)
  /-- The statement is carried out, and the call learns nothing of it. -/
  | lose {i : ℕ} {c : Call} {stage : Stage} {x : Choice}
      (hcall : s.calls i = some (c, .running stage))
      (hx : P.possible s.world c stage x = true) (hG : G s i x) :
      Step P G s (s.put (P.stmt s.world c stage x).1 i c .failed)
  | drop {i : ℕ} {c : Call} {stage : Stage} (hcall : s.calls i = some (c, .running stage)) :
      Step P G s (s.put s.world i c .failed)
  | tick (t : Tick) : Step P G s ⟨P.tick s.world t, s.calls⟩

/-- Any number of steps. -/
abbrev Reach (P : System World Call Stage Answer Choice Tick)
    (G : Condition World Call Stage Answer Choice) :
    State World Call Stage Answer → State World Call Stage Answer → Prop :=
  Relation.ReflTransGen (Step P G)

section

variable {P : System World Call Stage Answer Choice Tick}
  {G : Condition World Call Stage Answer Choice} {s s' : State World Call Stage Answer}

/-! ## Invariants -/

variable {I : State World Call Stage Answer → Prop}

theorem Reach.invariant (hstep : ∀ s s', I s → Step P G s s' → I s') (h : Reach P G s s') (hI : I s)
    : I s' := by
  induction h with
  | refl => exact hI
  | tail _ hlast ih => exact hstep _ _ ih hlast

/-- What holds of every state that is reached may be used at every step. -/
theorem Reach.strengthen (hI : ∀ s', Reach P G s s' → I s') (h : Reach P G s s') :
    Reach P (fun s i x => G s i x ∧ I s) s s' := by
  induction h with
  | refl => exact .refl
  | tail hr hlast ih =>
    refine .tail ih ?_
    cases hlast with
    | start c hnew => exact .start c hnew
    | run hcall hx hg => exact .run hcall hx ⟨hg, hI _ hr⟩
    | lose hcall hx hg => exact .lose hcall hx ⟨hg, hI _ hr⟩
    | drop hcall => exact .drop hcall
    | tick t => exact .tick t

/-- What holds of the world, and of each call in it. -/
def Each (W : World → Prop) (L : World → ℕ → Call → Status Stage Answer → Prop)
    (s : State World Call Stage Answer) : Prop :=
  W s.world ∧ ∀ i c st, s.calls i = some (c, st) → L s.world i c st

variable {W : World → Prop} {L : World → ℕ → Call → Status Stage Answer → Prop}

variable {w : World} {st : Status Stage Answer}

/-- A call that stands elsewhere in another world, with the others as they were. -/
theorem Each.put {i : ℕ} {c : Call} (h : Each W L s) (hw : W w) (hself : L w i c st)
    (hothers : ∀ j c' st', j ≠ i → s.calls j = some (c', st') → L s.world j c' st' →
      L w j c' st') : Each W L (s.put w i c st) := by
  refine ⟨hw, fun j c' st' hj => ?_⟩
  rcases State.put_cases hj with ⟨rfl, rfl, rfl⟩ | ⟨hne, hj⟩
  · exact hself
  · exact hothers j c' st' hne hj (h.2 j c' st' hj)

/-- **An invariant of each call**: it holds of a call that comes, every statement keeps it of its
call and of the others, and it does not mind a failure or what happens beside the calls. -/
theorem Each.step (hstart : ∀ s i c, Each W L s → L s.world i c (.running (P.start c)))
    (hstmt : ∀ s i c stage x, Each W L s → s.calls i = some (c, .running stage) →
      P.possible s.world c stage x = true → G s i x →
      W (P.stmt s.world c stage x).1 ∧
        L (P.stmt s.world c stage x).1 i c (P.stmt s.world c stage x).2.status ∧
        ∀ j c' st', j ≠ i → s.calls j = some (c', st') → L s.world j c' st' →
          L (P.stmt s.world c stage x).1 j c' st')
    (hfailed : ∀ w i c, L w i c .failed)
    (htick : ∀ w t, W w → W (P.tick w t) ∧ ∀ i c st, L w i c st → L (P.tick w t) i c st)
    (hI : Each W L s) (h : Step P G s s') : Each W L s' := by
  cases h with
  | start c hnew => exact hI.put hI.1 (hstart _ _ c hI) fun _ _ _ _ _ h => h
  | run hcall hx hG =>
    obtain ⟨hw, hself, hothers⟩ := hstmt _ _ _ _ _ hI hcall hx hG
    exact hI.put hw hself hothers
  | lose hcall hx hG =>
    obtain ⟨hw, -, hothers⟩ := hstmt _ _ _ _ _ hI hcall hx hG
    exact hI.put hw (hfailed _ _ _) hothers
  | drop hcall => exact hI.put hI.1 (hfailed _ _ _) fun _ _ _ _ _ h => h
  | tick t =>
    obtain ⟨hw, hkeep⟩ := htick s.world t hI.1
    exact ⟨hw, fun i c st hi => hkeep i c st (hI.2 i c st hi)⟩

theorem Reach.each (hstart : ∀ s i c, Each W L s → L s.world i c (.running (P.start c)))
    (hstmt : ∀ s i c stage x, Each W L s → s.calls i = some (c, .running stage) →
      P.possible s.world c stage x = true → G s i x →
      W (P.stmt s.world c stage x).1 ∧
        L (P.stmt s.world c stage x).1 i c (P.stmt s.world c stage x).2.status ∧
        ∀ j c' st', j ≠ i → s.calls j = some (c', st') → L s.world j c' st' →
          L (P.stmt s.world c stage x).1 j c' st')
    (hfailed : ∀ w i c, L w i c .failed)
    (htick : ∀ w t, W w → W (P.tick w t) ∧ ∀ i c st, L w i c st → L (P.tick w t) i c st)
    (h : Reach P G s s') (hI : Each W L s) : Each W L s' :=
  h.invariant (fun _ _ hs hstep => Each.step hstart hstmt hfailed htick hs hstep) hI

theorem each_idle (hw : W w) : Each W L (State.idle w) := by
  refine ⟨hw, fun i c st h => ?_⟩
  cases h

/-- What holds of each two calls. -/
def EachTwo (R : Call → Status Stage Answer → Call → Status Stage Answer → Prop)
    (s : State World Call Stage Answer) : Prop :=
  ∀ i j c st c' st', i ≠ j → s.calls i = some (c, st) → s.calls j = some (c', st') → R c st c' st'

variable {R : Call → Status Stage Answer → Call → Status Stage Answer → Prop}

/-- A call that stands elsewhere, and the others as they were. -/
theorem EachTwo.put {i : ℕ} {c : Call} (h : EachTwo R s)
    (hsymm : ∀ c st c' st', R c st c' st' → R c' st' c st)
    (hself : ∀ j c' st', j ≠ i → s.calls j = some (c', st') → R c st c' st') :
    EachTwo R (s.put w i c st) := by
  intro j k c₁ st₁ c₂ st₂ hjk hj hk
  rcases State.put_cases hj with ⟨rfl, rfl, rfl⟩ | ⟨hne, hj'⟩
  · rcases State.put_cases hk with ⟨rfl, rfl, rfl⟩ | ⟨hne, hk'⟩
    · exact absurd rfl hjk
    · exact hself k c₂ st₂ hne hk'
  · rcases State.put_cases hk with ⟨rfl, rfl, rfl⟩ | ⟨-, hk'⟩
    · exact hsymm _ _ _ _ (hself j c₁ st₁ hne hj')
    · exact h j k c₁ st₁ c₂ st₂ hjk hj' hk'

/-- **An invariant of each two calls**, beside one of each: no call that comes minds the others,
every statement leaves its call apart from the others, and so does a failure. -/
theorem EachTwo.step (hsymm : ∀ c st c' st', R c st c' st' → R c' st' c st)
    (hstart : ∀ c c' st', R c (.running (P.start c)) c' st')
    (hstmt : ∀ s i c stage x, Each W L s → EachTwo R s → s.calls i = some (c, .running stage) →
      P.possible s.world c stage x = true → G s i x →
      ∀ j c' st', j ≠ i → s.calls j = some (c', st') →
        R c (P.stmt s.world c stage x).2.status c' st')
    (hfailed : ∀ c c' st', R c .failed c' st')
    (hE : Each W L s) (hR : EachTwo R s) (h : Step P G s s') : EachTwo R s' := by
  cases h with
  | start c hnew => exact hR.put hsymm fun j c' st' _ _ => hstart c c' st'
  | run hcall hx hG => exact hR.put hsymm (hstmt _ _ _ _ _ hE hR hcall hx hG)
  | tick t => exact fun i j c st c' st' hij hi hj => hR i j c st c' st' hij hi hj
  | _ => exact hR.put hsymm fun j c' st' _ _ => hfailed _ c' st'

/-- Both, over a run: an invariant of each call that holds of every state reached, and one of each
two calls. -/
theorem Reach.apart (heach : ∀ s', Reach P G s s' → Each W L s')
    (hsymm : ∀ c st c' st', R c st c' st' → R c' st' c st)
    (hstart : ∀ c c' st', R c (.running (P.start c)) c' st')
    (hstmt : ∀ s i c stage x, Each W L s → EachTwo R s → s.calls i = some (c, .running stage) →
      P.possible s.world c stage x = true → G s i x →
      ∀ j c' st', j ≠ i → s.calls j = some (c', st') →
        R c (P.stmt s.world c stage x).2.status c' st')
    (hfailed : ∀ c c' st', R c .failed c' st') (h : Reach P G s s') (hR : EachTwo R s) :
    EachTwo R s' := by
  induction h with
  | refl => exact hR
  | tail hr hlast ih => exact EachTwo.step hsymm hstart hstmt hfailed (heach _ hr) ih hlast

theorem apart_idle : EachTwo R (State.idle w : State World Call Stage Answer) := by
  intro i j c st c' st' _ hi
  cases hi

end

/-! ## Schedules -/

/-- One thing that happens, by name. -/
inductive Act (Call Choice Tick : Type) where
  | start (i : ℕ) (c : Call)
  | run (i : ℕ) (x : Choice)
  | lose (i : ℕ) (x : Choice)
  | drop (i : ℕ)
  | tick (t : Tick)

/-- What an act comes to, if it can be done and the check admits it. -/
def State.act (P : System World Call Stage Answer Choice Tick)
    (check : State World Call Stage Answer → ℕ → Choice → Bool)
    (s : State World Call Stage Answer) :
    Act Call Choice Tick → Option (State World Call Stage Answer)
  | .start i c =>
    match s.calls i with
    | none => some (s.put s.world i c (.running (P.start c)))
    | some _ => none
  | .run i x =>
    match s.calls i with
    | some (c, .running stage) =>
      if P.possible s.world c stage x && check s i x then
        some (s.put (P.stmt s.world c stage x).1 i c (P.stmt s.world c stage x).2.status)
      else none
    | _ => none
  | .lose i x =>
    match s.calls i with
    | some (c, .running stage) =>
      if P.possible s.world c stage x && check s i x then
        some (s.put (P.stmt s.world c stage x).1 i c .failed)
      else none
    | _ => none
  | .drop i =>
    match s.calls i with
    | some (c, .running _) => some (s.put s.world i c .failed)
    | _ => none
  | .tick t => some ⟨P.tick s.world t, s.calls⟩

/-- A schedule, carried out. -/
def perform (P : System World Call Stage Answer Choice Tick)
    (check : State World Call Stage Answer → ℕ → Choice → Bool) :
    List (Act Call Choice Tick) → State World Call Stage Answer →
      Option (State World Call Stage Answer)
  | [], s => some s
  | a :: acts, s =>
    match s.act P check a with
    | some s' => perform P check acts s'
    | none => none

section

variable {P : System World Call Stage Answer Choice Tick}
  {check : State World Call Stage Answer → ℕ → Choice → Bool}
  {G : Condition World Call Stage Answer Choice} {s s' : State World Call Stage Answer}

variable {a : Act Call Choice Tick}

theorem Step.of_act (hcheck : ∀ i x, check s i x = true → G s i x) (h : s.act P check a = some s') :
    Step P G s s' := by
  cases a with
  | start i c =>
    simp only [State.act] at h
    split at h
    · rename_i hnew
      cases h
      exact .start c hnew
    · cases h
  | run i x =>
    simp only [State.act] at h
    split at h
    · rename_i hcall
      split at h
      · rename_i hx
        cases h
        exact .run hcall (Bool.and_eq_true_iff.1 hx).1 (hcheck _ _ (Bool.and_eq_true_iff.1 hx).2)
      · cases h
    · cases h
  | lose i x =>
    simp only [State.act] at h
    split at h
    · rename_i hcall
      split at h
      · rename_i hx
        cases h
        exact .lose hcall (Bool.and_eq_true_iff.1 hx).1 (hcheck _ _ (Bool.and_eq_true_iff.1 hx).2)
      · cases h
    · cases h
  | drop i =>
    simp only [State.act] at h
    split at h
    · rename_i hcall
      cases h
      exact .drop hcall
    · cases h
  | tick t =>
    cases h
    exact .tick t

variable {acts : List (Act Call Choice Tick)}

/-- A schedule that can be carried out reaches what it comes to. -/
theorem Reach.of_perform (hcheck : ∀ s i x, check s i x = true → G s i x)
    (h : perform P check acts s = some s') :
    Reach P G s s' := by
  induction acts generalizing s with
  | nil =>
    cases h
    exact .refl
  | cons a acts ih =>
    simp only [perform] at h
    split at h
    · rename_i hact
      exact .head (Step.of_act (hcheck s) hact) (ih h)
    · cases h

/-- The calls of a state have numbers below a bound. -/
def State.Below (n : ℕ) (s : State World Call Stage Answer) : Prop :=
  ∀ j, n ≤ j → s.calls j = none

/-- A check of each of these calls. -/
def State.allBelow (n : ℕ) (s : State World Call Stage Answer)
    (f : ℕ → Call → Status Stage Answer → Bool) : Bool :=
  (List.range n).all fun j => (s.calls j).all fun call => f j call.1 call.2

theorem State.Below.of_all {n j : ℕ} {f : ℕ → Call → Status Stage Answer → Bool} {c : Call}
    {st : Status Stage Answer} (hs : s.Below n) (h : s.allBelow n f = true)
    (hj : s.calls j = some (c, st)) : f j c st = true := by
  have hlt : j < n := by
    by_contra hge
    rw [hs j (Nat.le_of_not_lt hge)] at hj
    cases hj
  have hall := List.all_eq_true.1 h j (List.mem_range.2 hlt)
  rwa [hj] at hall

/-- An act that names a call names one with a number below a bound. -/
def Act.below (n : ℕ) : Act Call Choice Tick → Bool
  | .start i _ | .run i _ | .lose i _ | .drop i => i < n
  | .tick _ => true

theorem State.Below.put {n i : ℕ} (hs : s.Below n) (hi : i < n) (w : World) (c : Call)
    (st : Status Stage Answer) : (s.put w i c st).Below n := by
  intro j hj
  rw [State.put_of_ne (by omega)]
  exact hs j hj

theorem State.Below.act {n : ℕ} (hs : s.Below n) (ha : a.below n = true)
    (h : s.act P check a = some s') : s'.Below n := by
  cases a with
  | start | drop =>
    simp only [State.act] at h
    split at h <;> cases h
    exact hs.put (of_decide_eq_true ha) _ _ _
  | tick t =>
    cases h
    exact hs
  | _ =>
    simp only [State.act] at h
    split at h
    · split at h <;> cases h
      exact hs.put (of_decide_eq_true ha) _ _ _
    · cases h

/-- A schedule of finitely many calls, with a check that looks at no others. -/
theorem Reach.of_perform_below {n : ℕ} (hcheck : ∀ s i x, s.Below n → check s i x = true → G s i x)
    (hacts : acts.all (·.below n) = true) (hs : s.Below n) (h : perform P check acts s = some s') :
    Reach P G s s' := by
  induction acts generalizing s with
  | nil =>
    cases h
    exact .refl
  | cons a acts ih =>
    obtain ⟨ha, hacts⟩ := Bool.and_eq_true_iff.1 hacts
    simp only [perform] at h
    split at h
    · rename_i hact
      exact .head (Step.of_act (fun i x => hcheck s i x hs) hact) (ih hacts (hs.act ha hact) h)
    · cases h

end

end Overlap
