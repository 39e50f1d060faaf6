import RedcodeIm.Lib.Lapsing
import RedcodeIm.Lib.Machine
import RedcodeIm.Runtime.MessageHandlers

/-!
# The rate at which messages are sent

Both handlers that send count the messages of a user in a room, thirty in ten seconds: `INCR`
creates the counter, and whoever was the first gives it its time with `EXPIRE`.  Any number of
sends overlap; a command may fail, also after it has been carried out, and a process that dies
leaves its sends as such a failure does.

* `limitRate_eq`, `setting_eq` — a send at its limit, stage by stage.
* `RateHolds` — a counter has its time unless somebody is about to give it one, a refused user is
  accepted again, and no more than thirty are.
* `keepsRate` — as long as nobody fails who has created the counter.
-/

namespace RedcodeIm.RateLimit

open Awaiting Lapsing Function

/-! ## A send at its limit -/

inductive Stage where
  | counting
  /-- The first one is to give the counter its time. -/
  | setting
  | accepted
  | refused
  | failed
  deriving DecidableEq

/-- Where a send comes to by the count. -/
def Stage.counted (count : ℤ) : Stage :=
  if count = 1 then .setting else if 30 < count then .refused else .accepted

/-- What is left of the limit. -/
def Stage.program (roomId senderId : Uuid) : Stage → ServiceAction Unit
  | .counting => limitRate roomId senderId
  | .setting => mapErr (.cacheError "Redis 设置过期时间失败")
      (awaitMessage (.expire s!"rl:send:{senderId}:{roomId}" 10))
  | .accepted => .done ()
  | .refused => .fail (.rateLimitExceeded "消息发送过于频繁：每10秒最多发送30条消息")
  | .failed => .fail (.cacheError "Redis 设置过期时间失败")

theorem limitRate_eq (roomId senderId : Uuid) :
    ∃ k, limitRate roomId senderId = .await (.message (.incr s!"rl:send:{senderId}:{roomId}")) k ∧
      ∀ count : ℤ, k (.ok count) = (Stage.counted count).program roomId senderId := by
  refine ⟨_, rfl, fun count => ?_⟩
  unfold Stage.counted
  by_cases h1 : count = 1
  · subst h1
    refine congrArg (Action.await _) (funext fun r => ?_)
    cases r <;> rfl
  · rw [if_neg h1]
    refine (if_neg h1).trans ?_
    by_cases h30 : 30 < count
    · simp only [if_pos h30]
      rfl
    · simp only [if_neg h30]
      rfl

theorem setting_eq (roomId senderId : Uuid) :
    ∃ k, Stage.program roomId senderId .setting =
        .await (.message (.expire s!"rl:send:{senderId}:{roomId}" 10)) k ∧
      k (.ok ()) = Stage.program roomId senderId .accepted :=
  ⟨_, rfl, rfl⟩

/-! ## The sends of a user in a room -/

/-- The counter, the sends, and how many were accepted since the counter was created. -/
structure RateState where
  now : ℕ
  counter : Lapsing.Store Unit ℤ
  sends : ℕ → Option Stage
  accepted : ℕ

open RateState

namespace RateState

def idle (now : ℕ) : RateState := ⟨now, fun _ => none, fun _ => none, 0⟩

def put (s : RateState) (i : ℕ) (stage : Stage) : RateState :=
  { s with
    sends := update s.sends i (some stage)
    accepted := if stage = .accepted then s.accepted + 1 else s.accepted }

/-- The command a send awaits, and where an answer takes it. -/
def command (s : RateState) (i : ℕ) : Option (RateState × Stage) :=
  match s.sends i with
  | some .counting =>
    let counter := upsert s.counter s.now () 0 (· + 1)
    let accepted := if get s.counter s.now () = none then 0 else s.accepted
    some ({ s with counter, accepted }, Stage.counted ((get counter s.now ()).getD 0))
  | some .setting => some ({ s with counter := expire s.counter s.now () 10 }, .accepted)
  | _ => none

end RateState

inductive RateAct where
  | begin (i : ℕ)
  | run (i : ℕ)
  /-- The command is carried out, and the send ends without an answer. -/
  | lose (i : ℕ)
  | fail (i : ℕ)
  | tick

def act (s : RateState) : RateAct → Option RateState
  | .begin i => if s.sends i = none then some (s.put i .counting) else none
  | .run i => (s.command i).map fun (s', stage) => s'.put i stage
  | .lose i => (s.command i).map fun (s', _) => s'.put i .failed
  | .fail i => (s.command i).map fun _ => s.put i .failed
  | .tick => some { s with now := s.now + 1 }

/-- Nobody fails between creating the counter and giving it its time. -/
def Careful (s : RateState) : RateAct → Prop
  | .lose i => s.sends i = some .counting → get s.counter s.now () ≠ none
  | .fail i => s.sends i ≠ some .setting
  | _ => True

/-- Somebody has created the counter and has not ended. -/
def Unset (s : RateState) : Prop := ∃ i, s.sends i = some .setting

structure RateHolds (s : RateState) : Prop where
  expires : ¬Unset s → ∀ e, entry s.counter s.now () = some e →
    ∃ t, e.lapses = some t ∧ t ≤ s.now + 10
  /-- Whoever comes after the time of the counter is accepted. -/
  acceptedAgain : ¬Unset s → ∀ now, s.now + 10 ≤ now → ∀ i, s.sends i = some .counting →
    ∃ s', Machine.perform act [.run i, .run i] { s with now } = some s' ∧
      s'.sends i = some .accepted
  limit : s.accepted ≤ 30

/-- It holds in every state that is reached from a start. -/
def KeepsRate (now : ℕ) (G : RateState → RateAct → Prop) : Prop :=
  ∀ s, Machine.Reach act G (idle now) s → RateHolds s

/-! ## The invariant -/

variable {s s' : RateState} {i : ℕ} {stage : Stage}

/-- What the entry of the counter says of the sends. -/
def Fits (s : RateState) : Option (Lapsing.Entry ℤ) → Prop
  | none => s.accepted = 0 ∧ ¬Unset s
  | some ⟨n, none⟩ => s.accepted + 1 ≤ n ∧ s.accepted + 1 ≤ 30 ∧
      ∃ i, ∀ j, s.sends j = some .setting ↔ j = i
  | some ⟨n, some t⟩ => 1 ≤ n ∧ s.accepted ≤ n ∧ s.accepted ≤ 30 ∧ t ≤ s.now + 10 ∧ ¬Unset s

def Ok (s : RateState) : Prop := Fits s (s.counter ())

theorem put_setting (hi : s.sends i ≠ some .setting) (hstage : stage ≠ .setting) (j : ℕ) :
    (s.put i stage).sends j = some .setting ↔ s.sends j = some .setting := by
  by_cases hj : j = i
  · subst hj
    simp [put, hi, hstage]
  · simp [put, update_of_ne hj]

/-- A send that is not the first one stands elsewhere. -/
theorem Fits.put {e : Option (Lapsing.Entry ℤ)} (h : Fits s e) (hi : s.sends i ≠ some .setting)
    (hstage : stage ≠ .setting) (haccepted : stage ≠ .accepted) : Fits (s.put i stage) e := by
  have hput := put_setting hi hstage
  have hunset : Unset (s.put i stage) ↔ Unset s := exists_congr hput
  have hsame : (s.put i stage).accepted = s.accepted := if_neg haccepted
  have hnow : (s.put i stage).now = s.now := rfl
  rcases e with _ | ⟨n, _ | t⟩ <;> simpa only [Fits, hput, hunset, hsame, hnow] using h

/-- A counter that is there is counted up, and the sends go by the count. -/
theorem command_again {n : ℤ} {l : Option ℕ} (hi : s.sends i = some .counting)
    (hentry : entry s.counter s.now () = some ⟨n, l⟩) (hn : 1 ≤ n) :
    s.command i = some ({ s with counter := update s.counter () (some ⟨n + 1, l⟩) },
      if 30 < n + 1 then .refused else .accepted) := by
  have hlive := (entry_eq_some.mp hentry).2
  have hnew : entry (update s.counter () (some ⟨n + 1, l⟩)) s.now () =
      some ⟨n + 1, l⟩ := entry_eq_some.mpr ⟨update_self .., hlive⟩
  simp only [command, hi, Lapsing.upsert, hentry, Lapsing.get, hnew, Option.map_some,
    Option.getD_some, Stage.counted, if_neg (show ¬n + 1 = 1 by omega), reduceCtorEq, if_false]

/-- A counter that is not there is created. -/
theorem command_first (hi : s.sends i = some .counting)
    (hentry : entry s.counter s.now () = none) :
    s.command i = some ({ s with
      counter := update s.counter () (some ⟨1, none⟩), accepted := 0 }, .setting) := by
  have hnew : entry (update s.counter () (some ⟨1, none⟩)) s.now () =
      some ⟨1, none⟩ := entry_eq_some.mpr ⟨update_self .., rfl⟩
  simp only [command, hi, Lapsing.upsert, hentry, Lapsing.get, Option.map_none, if_true,
    zero_add, hnew, Option.map_some, Option.getD_some, Stage.counted]

theorem command_setting {n : ℤ} {l : Option ℕ} (hi : s.sends i = some .setting)
    (hentry : entry s.counter s.now () = some ⟨n, l⟩) :
    s.command i = some ({ s with
      counter := update s.counter () (some ⟨n, some (s.now + 10)⟩) }, .accepted) := by
  simp only [command, hi, expire, hentry]

theorem act_run {s₁ : RateState} (h : s.command i = some (s₁, stage)) :
    act s (.run i) = some (s₁.put i stage) := by
  rw [act, h]
  rfl

/-- Where the counter is not there, nobody is about to set its time. -/
theorem Ok.not_unset (h : Ok s) (hentry : entry s.counter s.now () = none) : ¬Unset s := by
  unfold Ok at h
  rcases hc : s.counter () with _ | ⟨n, _ | t⟩ <;> rw [hc] at h
  · exact h.2
  · rw [entry, hc] at hentry
    cases hentry
  · exact h.2.2.2.2

/-- The command of a send that awaits it. -/
theorem ok_command (hI : Ok s) {s₁ : RateState} (h : s.command i = some (s₁, stage)) :
    Ok (s₁.put i stage) ∧
      ((s.sends i = some .counting → get s.counter s.now () ≠ none) →
        Ok (s₁.put i .failed)) := by
  by_cases hi : s.sends i = some .counting
  · have hnot : s.sends i ≠ some .setting := by simp [hi]
    cases hentry : entry s.counter s.now () with
    | none =>
      cases (command_first hi hentry).symm.trans h
      have hnone := hI.not_unset hentry
      refine ⟨⟨by simp [put], by simp [put], i, fun j => ?_⟩,
        fun hG => absurd (by rw [Lapsing.get, hentry]; rfl) (hG hi)⟩
      by_cases hj : j = i
      · simp [put, hj]
      · have hother : s.sends j ≠ some .setting := fun hj => hnone ⟨j, hj⟩
        simp [put, hj, hother]
    | some e =>
      obtain ⟨n, l⟩ := e
      unfold Ok at hI
      rw [(entry_eq_some.mp hentry).1] at hI
      have hn : 1 ≤ n := by cases l <;> simp only [Fits] at hI <;> omega
      cases (command_again hi hentry hn).symm.trans h
      have hcounted : Fits { s with
          counter := update s.counter () (some ⟨n + 1, l⟩) } (some ⟨n + 1, l⟩) := by
        cases l with
        | none => exact ⟨by have := hI.1; simp only; omega, hI.2⟩
        | some t => exact ⟨by omega, by have := hI.2.1; simp only; omega, hI.2.2⟩
      refine ⟨?_, fun _ => hcounted.put hnot (by decide) (by decide)⟩
      by_cases hmany : 30 < n + 1
      · rw [if_pos hmany]
        exact hcounted.put hnot (by decide) (by decide)
      · rw [if_neg hmany]
        have hput := put_setting (s := s) hnot (show Stage.accepted ≠ .setting by decide)
        cases l with
        | none =>
          obtain ⟨hle, -, j, hj⟩ := hI
          refine ⟨?_, ?_, j, fun k => (hput k).trans (hj k)⟩ <;> simp [put] <;> omega
        | some t =>
          obtain ⟨-, hle, -, ht, hunset⟩ := hI
          refine ⟨by omega, ?_, ?_, ht, fun h => hunset ((exists_congr hput).mp h)⟩ <;>
            simp [put] <;> omega
  · by_cases hset : s.sends i = some .setting
    · unfold Ok at hI
      rcases hc : s.counter () with _ | ⟨n, _ | t⟩ <;> rw [hc] at hI
      · exact absurd ⟨i, hset⟩ hI.2
      · obtain ⟨hle, hmost, k, hk⟩ := hI
        cases (hk i).mp hset
        cases (command_setting hset (entry_eq_some.mpr ⟨hc, rfl⟩)).symm.trans h
        have hnone {st : Stage} (hst : st ≠ .setting) : ¬Unset ({ s with
            counter := update s.counter () (some ⟨n, some (s.now + 10)⟩) }.put i st) := by
          rintro ⟨j, hj⟩
          by_cases hji : j = i
          · simp [put, hji, hst] at hj
          · exact hji ((hk j).mp (by simpa [put, hji] using hj))
        refine ⟨⟨by omega, ?_, ?_, le_rfl, hnone (by decide)⟩,
          fun _ => ⟨by omega, ?_, ?_, le_rfl, hnone (by decide)⟩⟩ <;> simp [put] <;> omega
      · exact absurd ⟨i, hset⟩ hI.2.2.2.2
    · simp only [command] at h
      cases h

/-- **One act.** -/
theorem ok_act (hI : Ok s) {a : RateAct} (hG : Careful s a) (h : act s a = some s') : Ok s' := by
  cases a with
  | begin i =>
    by_cases hnew : s.sends i = none
    · cases (if_pos hnew).symm.trans h
      exact Fits.put hI (by simp [hnew]) (by decide) (by decide)
    · cases (if_neg hnew).symm.trans h
  | run i =>
    obtain ⟨⟨s₁, stage⟩, hcommand, rfl⟩ := Option.map_eq_some_iff.mp h
    exact (ok_command hI hcommand).1
  | lose i =>
    obtain ⟨⟨s₁, stage⟩, hcommand, rfl⟩ := Option.map_eq_some_iff.mp h
    exact (ok_command hI hcommand).2 hG
  | fail i =>
    obtain ⟨_, -, rfl⟩ := Option.map_eq_some_iff.mp h
    exact Fits.put hI hG (by decide) (by decide)
  | tick =>
    cases h
    unfold Ok at hI ⊢
    rcases hc : s.counter () with _ | ⟨n, _ | t⟩ <;> rw [hc] at hI
    · exact hI
    · exact hI
    · exact ⟨hI.1, hI.2.1, hI.2.2.1, hI.2.2.2.1.trans (by simp), hI.2.2.2.2⟩

theorem Ok.holds (h : Ok s) : RateHolds s := by
  have hexpires : ¬Unset s → ∀ e, entry s.counter s.now () = some e →
      ∃ t, e.lapses = some t ∧ t ≤ s.now + 10 := by
    intro hunset e he
    have hc := (entry_eq_some.mp he).1
    unfold Ok at h
    rw [hc] at h
    rcases e with ⟨n, _ | t⟩
    · obtain ⟨-, -, j, hj⟩ := h
      exact absurd ⟨j, (hj j).mpr rfl⟩ hunset
    · exact ⟨t, rfl, h.2.2.2.1⟩
  refine ⟨hexpires, fun hunset now hnow i hi => ?_, ?_⟩
  · have hgone : entry s.counter now () = none := by
      by_contra hsome
      obtain ⟨e, he⟩ := Option.ne_none_iff_exists'.mp hsome
      obtain ⟨hc, hlive⟩ := entry_eq_some.mp he
      obtain ⟨t, ht, hle⟩ := hexpires hunset e
        (entry_eq_some.mpr ⟨hc, Lapsing.Entry.live_of_le hlive (by omega)⟩)
      simp [Lapsing.Entry.live, ht] at hlive
      omega
    have hfirst := command_first (s := { s with now }) hi hgone
    have hset := command_setting (i := i) (n := 1) (l := none) (s := put { s with
      now, counter := update s.counter () (some ⟨1, none⟩), accepted := 0 } i .setting)
      (by simp [put]) (entry_eq_some.mpr ⟨by simp [put], rfl⟩)
    refine ⟨?after, ?run, ?accepted⟩
    case run =>
      rw [Machine.perform, act_run hfirst]
      simp only
      rw [Machine.perform, act_run hset]
      rfl
    exact update_self ..
  · unfold Ok at h
    rcases hc : s.counter () with _ | ⟨n, _ | t⟩ <;> rw [hc] at h
    · exact h.1.trans_le (by decide)
    · exact (Nat.le_succ _).trans h.2.1
    · exact h.2.2.1

/-- **The rate is kept by every run in which nobody fails who has created the counter.** -/
theorem keepsRate (now : ℕ) : KeepsRate now Careful :=
  fun _ h => (h.invariant (fun _ _ _ hI hG ha => ok_act hI hG ha)
    (⟨rfl, fun ⟨_, hi⟩ => by cases hi⟩ : Ok (idle now))).holds

/-- The first sender dies before the counter has its time, and it never has one. -/
theorem rate_not_kept : ¬KeepsRate 0 fun _ _ => True := by
  intro h
  have hrun : Machine.perform act [.begin 0, .run 0, .fail 0] (.idle 0) = some _ := rfl
  have hheld := h _ (.of_perform (fun _ _ => trivial) hrun)
  refine absurd (hheld.expires ?_ ⟨1, none⟩ rfl) fun hexpires => ?_
  · rintro ⟨i, hi⟩
    by_cases hzero : i = 0
    · simp [put, hzero] at hi
    · simp [put, idle, hzero] at hi
  · obtain ⟨t, ht, -⟩ := hexpires
    cases ht

end RedcodeIm.RateLimit
