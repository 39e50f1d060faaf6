import Mathlib.Data.Nat.Notation
import Mathlib.Logic.Function.Basic

/-!
# Keys that lapse

A store of keys in which a value may be kept for a limited time only.  A key whose time is over is
as good as gone: it is not found, and its time cannot be prolonged.

* `Entry`, `Store`, `get` — what is stored, and what is found at a time.
* `setEx`, `del`, `expire`, `upsert` — the commands.
* `get_expire_of_none`, `get_later` — what is gone stays gone.
-/

namespace Lapsing

open Function

/-- A value, and the time it is kept until, if it is limited. -/
structure Entry (Value : Type) where
  value : Value
  lapses : Option ℕ
  deriving DecidableEq

/-- Whether the value is there at a time. -/
def Entry.live {Value : Type} (e : Entry Value) (now : ℕ) : Bool :=
  match e.lapses with
  | none => true
  | some t => now < t

abbrev Store (Key Value : Type) : Type := Key → Option (Entry Value)

variable {Key Value : Type}

/-- The entry of a key, if its time is not over. -/
def entry (m : Store Key Value) (now : ℕ) (k : Key) : Option (Entry Value) :=
  (m k).filter (·.live now)

def get (m : Store Key Value) (now : ℕ) (k : Key) : Option Value :=
  (entry m now k).map (·.value)

variable [DecidableEq Key]

/-- `SET key value EX ttl`. -/
def setEx (m : Store Key Value) (now : ℕ) (k : Key) (v : Value) (ttl : ℕ) : Store Key Value :=
  update m k (some ⟨v, some (now + ttl)⟩)

/-- `DEL key`. -/
def del (m : Store Key Value) (k : Key) : Store Key Value :=
  update m k none

/-- `EXPIRE key ttl`. -/
def expire (m : Store Key Value) (now : ℕ) (k : Key) (ttl : ℕ) : Store Key Value :=
  match entry m now k with
  | some e => update m k (some { e with lapses := some (now + ttl) })
  | none => m

/-- A command that changes a value where it is, or starts from an empty one that is not limited. -/
def upsert (m : Store Key Value) (now : ℕ) (k : Key) (empty : Value) (f : Value → Value) :
    Store Key Value :=
  match entry m now k with
  | some e => update m k (some { e with value := f e.value })
  | none => update m k (some ⟨f empty, none⟩)

/-! ## What is found -/

variable {m : Store Key Value} {now now' ttl : ℕ} {k k' : Key} {v : Value} {f : Value → Value}

omit [DecidableEq Key] in
theorem entry_eq_some {e : Entry Value} :
    entry m now k = some e ↔ m k = some e ∧ e.live now = true := by
  simp [entry, Option.filter_eq_some_iff]

omit [DecidableEq Key] in
theorem get_eq_some :
    get m now k = some v ↔ ∃ e, m k = some e ∧ e.live now = true ∧ e.value = v := by
  simp only [get, Option.map_eq_some_iff, entry_eq_some, and_assoc]

omit [DecidableEq Key] in
theorem get_eq_none : get m now k = none ↔ ∀ e, m k = some e → e.live now = false := by
  cases hm : m k with
  | none | some => simp [get, entry, hm]

theorem get_setEx_self (httl : 0 < ttl) : get (setEx m now k v ttl) now k = some v := by
  refine get_eq_some.2 ⟨⟨v, some (now + ttl)⟩, update_self .., ?_, rfl⟩
  simp [Entry.live, httl]

theorem get_setEx_ne (h : k' ≠ k) : get (setEx m now k v ttl) now' k' = get m now' k' := by
  simp [get, entry, setEx, update_of_ne h]

@[simp] theorem get_del_self : get (del m k) now k = none := by
  simp [get, entry, del]

theorem get_del_ne (h : k' ≠ k) : get (del m k) now k' = get m now k' := by
  simp [get, entry, del, update_of_ne h]

theorem expire_of_ne (h : k' ≠ k) : expire m now k ttl k' = m k' := by
  unfold expire
  cases entry m now k with
  | none => rfl
  | some e => exact update_of_ne h ..

theorem get_expire_ne (h : k' ≠ k) : get (expire m now k ttl) now' k' = get m now' k' := by
  simp [get, entry, expire_of_ne h]

omit [DecidableEq Key] in
theorem Entry.live_of_le {e : Entry Value} (h : e.live now' = true) (hle : now ≤ now') :
    e.live now = true := by
  unfold Entry.live at h ⊢
  split
  · rfl
  · rename_i t ht
    simp only [ht, decide_eq_true_eq] at h ⊢
    omega

omit [DecidableEq Key] in
/-- What is gone stays gone as time goes on. -/
theorem get_later (h : get m now k = none) (hle : now ≤ now') : get m now' k = none := by
  rw [get_eq_none] at h ⊢
  intro e he
  cases hlive : e.live now' with
  | false => rfl
  | true => rw [← h e he, Entry.live_of_le hlive hle]

omit [DecidableEq Key] in
/-- What is there later was there before. -/
theorem get_earlier (h : get m now' k = some v) (hle : now ≤ now') : get m now k = some v := by
  obtain ⟨e, he, hlive, hv⟩ := get_eq_some.1 h
  exact get_eq_some.2 ⟨e, he, Entry.live_of_le hlive hle, hv⟩

/-- What is prolonged is there as before. -/
theorem get_expire (httl : 0 < ttl) : get (expire m now k ttl) now k' = get m now k' := by
  by_cases hk : k' = k
  · subst hk
    cases hentry : entry m now k' with
    | none => simp [expire, hentry]
    | some e =>
      have hnew : entry (expire m now k' ttl) now k' =
          some { e with lapses := some (now + ttl) } := by
        rw [entry_eq_some]
        refine ⟨by simp [expire, hentry], ?_⟩
        simp [Entry.live, httl]
      simp [get, hentry, hnew]
  · rw [get_expire_ne hk]

/-! ## What is stored -/

variable {e : Entry Value} {empty : Value}

theorem value_expire (h : expire m now k ttl k' = some e) :
    ∃ e', m k' = some e' ∧ e.value = e'.value := by
  by_cases hk : k' = k
  · subst hk
    cases hentry : entry m now k' with
    | none =>
      simp only [expire, hentry] at h
      exact ⟨e, h, rfl⟩
    | some e' =>
      simp only [expire, hentry, update_self] at h
      cases h
      exact ⟨e', (entry_eq_some.1 hentry).1, rfl⟩
  · rw [expire_of_ne hk] at h
    exact ⟨e, h, rfl⟩

theorem value_del (h : del m k k' = some e) : k' ≠ k ∧ m k' = some e := by
  unfold del at h
  by_cases hk : k' = k
  · subst hk
    rw [update_self] at h
    cases h
  · rw [update_of_ne hk] at h
    exact ⟨hk, h⟩

theorem value_setEx (h : setEx m now k v ttl k' = some e) :
    (k' = k ∧ e.value = v) ∨ (k' ≠ k ∧ m k' = some e) := by
  unfold setEx at h
  by_cases hk : k' = k
  · subst hk
    rw [update_self] at h
    cases h
    exact .inl ⟨rfl, rfl⟩
  · rw [update_of_ne hk] at h
    exact .inr ⟨hk, h⟩

/-- A value that was changed is what was there, or what there is to start with, changed. -/
theorem value_upsert (h : upsert m now k empty f k' = some e) :
    m k' = some e ∨ e.value = f empty ∨ ∃ e', m k' = some e' ∧ e.value = f e'.value := by
  by_cases hk : k' = k
  · subst hk
    cases hentry : entry m now k' with
    | none =>
      simp only [upsert, hentry, update_self] at h
      cases h
      exact .inr (.inl rfl)
    | some e' =>
      simp only [upsert, hentry, update_self] at h
      cases h
      exact .inr (.inr ⟨e', (entry_eq_some.1 hentry).1, rfl⟩)
  · refine .inl ?_
    cases hentry : entry m now k with
    | _ =>
      simp only [upsert, hentry] at h
      rwa [update_of_ne hk] at h

end Lapsing
