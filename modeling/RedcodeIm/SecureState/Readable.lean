import Mathlib.Data.List.Perm.Basic
import RedcodeIm.SecureState.Storage

/-!
# Encrypted local state stays readable

What a read of the encrypted local state answers, whatever calls run in between.

* `SecureStateStore.Orderly` — the accesses that come in time: a key is stored where there is none,
  a record under the key that is stored, and a delete meets no read half-way.
* `SecureStateStore.Readable` — reads answer with what was last written, nothing remains after a
  delete, and accounts leave one another alone.
* `Ok.act` — one access keeps the invariant.
* `state_readable` — every run of orderly accesses is readable, for H5 and for iOS.
-/

namespace RedcodeIm.SecureState

open SecureStateStore List

variable {Account Slot Aad Data : Type}

/-! ## What was last written -/

/-- What a change makes of the data of a record. -/
def Change.current [DecidableEq Account] [DecidableEq Slot] (account : Account) (slot : Slot)
    (was : Option Data) : Change Account Slot Data → Option Data
  | .keyStored _ => was
  | .recordStored a s data => if account = a ∧ slot = s then some data else was
  | .erased a erasure => if account = a ∧ erasure.hasRecord slot then none else was

/-- The data that was last written and is not deleted since. -/
def current [DecidableEq Account] [DecidableEq Slot] (changes : List (Change Account Slot Data))
    (account : Account) (slot : Slot) : Option Data :=
  changes.foldl (fun was change => change.current account slot was) none

/-- A change that leaves something of the account behind. -/
def Change.Puts (account : Account) : Change Account Slot Data → Prop
  | .keyStored a => a = account
  | .recordStored a _ _ => a = account
  | .erased _ _ => False

/-- A change that overwrites or deletes a record. -/
def Change.Touches (account : Account) (slot : Slot) : Change Account Slot Data → Prop
  | .keyStored _ => False
  | .recordStored a s _ => account = a ∧ slot = s
  | .erased a erasure => account = a ∧ erasure.hasRecord slot = true

/-! ## Accesses that come in time -/

namespace StateCallState

variable (c : StateCallState Account Slot Aad Data)

/-- A delete that has erased the key and is not done. -/
def PastKey (account : Account) : Prop :=
  c.call = .delete account ∧ ∃ rest, c.stage = .erase rest ∧ ∀ e ∈ rest, e.hasKey = false

/-- A delete that has erased a record and is not done. -/
def PastRecord (account : Account) (slot : Slot) : Prop :=
  c.call = .delete account ∧ ∃ rest, c.stage = .erase rest ∧ ∀ e ∈ rest, e.hasRecord slot = false

/-- A read that has found its record and not yet looked for the key. -/
def HasRecord (account : Account) : Prop :=
  ∃ slot record, c.call = .read account slot ∧ c.stage = .findKeyOf record

end StateCallState

namespace SecureStateStore

/-- What the stores must be like when an access comes. -/
def Orderly (L : Layout Account Slot Aad Data) (S : SecureStateStore Account Slot Aad Data) :
    StateAct Account Slot Data → Prop
  | .start (.write _ slot data) => L.accepts slot data = true → L.decodes slot data = true
  | .start _ => True
  | .resume i => ∀ c, S.calls[i]? = some c →
    match c.call, c.stage with
    | .write account _ _, .storeKey _ =>
      S.wrappingKeys account = none ∧ ∀ c' ∈ S.calls, ¬c'.PastKey account
    | .write account slot _, .storeRecord record =>
      S.wrappingKeys account = some record.wrappingKey ∧ ∀ c' ∈ S.calls, ¬c'.PastRecord account slot
    | .read account slot, .findRecord =>
      S.records account slot ≠ none → ∀ c' ∈ S.calls, ¬c'.PastKey account
    | _, _ => True
  | .erase i n => ∀ c rest erasure, S.calls[i]? = some c → c.stage = .erase rest →
    rest[n]? = some erasure → erasure.hasKey = true →
    ∀ c' ∈ S.calls, ¬c'.HasRecord c.call.account

/-- The call that an act goes on with. -/
def calling (S : SecureStateStore Account Slot Aad Data) :
    StateAct Account Slot Data → Option (StateCallState Account Slot Aad Data)
  | .start _ => none
  | .resume i => S.calls[i]?
  | .erase i _ => S.calls[i]?

/-- What is expected of the storage. -/
structure Readable [DecidableEq Account] [DecidableEq Slot] [DecidableEq Aad]
    (L : Layout Account Slot Aad Data)
    (S : SecureStateStore Account Slot Aad Data) : Prop where
  /-- A read answers with what was last written at some moment while it lasted. -/
  read : ∀ c ∈ S.calls, ∀ account slot answer time, c.call = .read account slot →
    c.stage = .answered answer time → ∃ t, c.began ≤ t ∧ t ≤ time ∧
      answer = .value (current (S.changes.take t) account slot)
  /-- A write that has ended, and was not overwritten or deleted since, is what a later read
  answers. -/
  returned : ∀ w ∈ S.calls, ∀ c ∈ S.calls, ∀ account slot data answer written time,
    w.call = .write account slot data → w.stage = .answered .written written →
    c.call = .read account slot → c.stage = .answered answer time → written ≤ c.began →
    (∀ change ∈ (S.changes.take time).drop written, ¬change.Touches account slot) →
    answer = .value (some data)
  /-- After a delete nothing remains of the account, unless it is put there later. -/
  deleted : ∀ c ∈ S.calls, ∀ account answer time, c.call = .delete account →
    c.stage = .answered answer time → (∀ change ∈ S.changes.drop time, ¬change.Puts account) →
    S.wrappingKeys account = none ∧ ∀ slot, S.records account slot = none
  /-- What is done for one account changes nothing of another. -/
  apart : ∀ act S' account, S.act L act = some S' →
    (∀ c, S.calling act = some c → c.call.account ≠ account) →
    S'.wrappingKeys account = S.wrappingKeys account ∧ S'.records account = S.records account ∧
      current S'.changes account = current S.changes account

end SecureStateStore

/-! ## The invariant -/

/-- A record that its read will take for sound. -/
structure Sound (L : Layout Account Slot Aad Data) (account : Account) (slot : Slot)
    (record : StoredEncryptedState Aad Data) : Prop where
  version : record.version = stateVersion
  aad : record.aad = L.aad account slot
  decodes : L.decodes slot record.plaintext = true

def WriteOk (L : Layout Account Slot Aad Data) (S : SecureStateStore Account Slot Aad Data)
    (began : ℕ) (account : Account) (slot : Slot) (data : Data) :
    StateStage Slot Aad Data → Prop
  | .findKey => L.decodes slot data = true
  | .storeKey _ => L.decodes slot data = true
  | .storeRecord record => Sound L account slot record ∧ record.plaintext = data
  | .answered answer time => answer = .written → ∃ p, time = p + 1 ∧ began ≤ p ∧
    S.changes[p]? = some (.recordStored account slot data)
  | _ => False

def ReadOk [DecidableEq Account] [DecidableEq Slot] (L : Layout Account Slot Aad Data)
    (S : SecureStateStore Account Slot Aad Data) (began : ℕ) (account : Account) (slot : Slot) :
    StateStage Slot Aad Data → Prop
  | .findRecord => True
  | .findKeyOf record => Sound L account slot record ∧
    S.wrappingKeys account = some record.wrappingKey ∧ ∃ t, began ≤ t ∧ t ≤ S.changes.length ∧
      current (S.changes.take t) account slot = some record.plaintext
  | .answered answer time => time ≤ S.changes.length ∧ ∃ t, began ≤ t ∧ t ≤ time ∧
    answer = .value (current (S.changes.take t) account slot)
  | _ => False

def DeleteOk (S : SecureStateStore Account Slot Aad Data) (account : Account) :
    StateStage Slot Aad Data → Prop
  | .erase rest => (rest.countP fun e => e.hasKey) ≤ 1
  | .answered _ time => time ≤ S.changes.length ∧
    ((∀ change ∈ S.changes.drop time, ¬change.Puts account) →
      S.wrappingKeys account = none ∧ ∀ slot, S.records account slot = none)
  | _ => False

/-- What each call has seen. -/
structure CallOk [DecidableEq Account] [DecidableEq Slot] (L : Layout Account Slot Aad Data)
    (S : SecureStateStore Account Slot Aad Data) (c : StateCallState Account Slot Aad Data) :
    Prop where
  began : c.began ≤ S.changes.length
  write : ∀ account slot data, c.call = .write account slot data →
    WriteOk L S c.began account slot data c.stage
  read : ∀ account slot, c.call = .read account slot → ReadOk L S c.began account slot c.stage
  deleteRecord : ∀ account slot, c.call = .deleteRecord account slot → ∀ rest,
    c.stage = .erase rest → ∀ e ∈ rest, e.hasKey = false
  delete : ∀ account, c.call = .delete account → DeleteOk S account c.stage

structure Ok [DecidableEq Account] [DecidableEq Slot] (L : Layout Account Slot Aad Data)
    (S : SecureStateStore Account Slot Aad Data) : Prop where
  sealed : ∀ account slot record, S.records account slot = some record → Sound L account slot record
  current : ∀ account slot,
    (S.records account slot).map (fun r => r.plaintext) = current S.changes account slot
  /-- A record is under the key that is stored, or a delete will erase it. -/
  key : ∀ account slot record, S.records account slot = some record →
    S.wrappingKeys account = some record.wrappingKey ∨
      ∃ (j : ℕ) (c : StateCallState Account Slot Aad Data), S.calls[j]? = some c ∧
        c.PastKey account ∧ ¬c.PastRecord account slot
  pastKey : ∀ (j : ℕ) (c : StateCallState Account Slot Aad Data) (account : Account),
    S.calls[j]? = some c → c.PastKey account → S.wrappingKeys account = none
  pastRecord : ∀ (j : ℕ) (c : StateCallState Account Slot Aad Data) (account : Account)
    (slot : Slot), S.calls[j]? = some c → c.PastRecord account slot →
    S.records account slot = none
  calls : ∀ (j : ℕ) (c : StateCallState Account Slot Aad Data), S.calls[j]? = some c → CallOk L S c

/-! ## Lemmas -/

section

variable {L : Layout Account Slot Aad Data} {S S₁ : SecureStateStore Account Slot Aad Data}
  {c c' : StateCallState Account Slot Aad Data} {stage : StateStage Slot Aad Data} {i j : ℕ}
  {account a : Account} {slot s : Slot} {change : Change Account Slot Data}
  {changes more : List (Change Account Slot Data)} {wrappingKey : ℕ}
  {record : StoredEncryptedState Aad Data} {erasure : Erasure Slot}
  {rest : List (Erasure Slot)} {data : Data}

theorem getElem?_setStage : (S.setStage i stage).calls[j]? =
    if i = j then (S.calls[j]?).map fun c => { c with stage } else S.calls[j]? := by
  show (S.calls.modify i fun c => { c with stage })[j]? = _
  rw [getElem?_modify]
  split
  · rfl
  · simp

/-- A call of the new state is the one that went on, or it stands where it stood. -/
theorem setStage_cases (hi : S.calls[i]? = some c) (h : (S.setStage i stage).calls[j]? = some c') :
    (j = i ∧ c' = { c with stage }) ∨ (j ≠ i ∧ S.calls[j]? = some c') := by
  rw [getElem?_setStage] at h
  split at h
  · rename_i heq
    subst heq
    rw [hi] at h
    exact .inl ⟨rfl, (Option.some.inj h).symm⟩
  · rename_i hne
    exact .inr ⟨fun heq => hne heq.symm, h⟩

theorem setStage_self (hi : S.calls[i]? = some c) :
    (S.setStage i stage).calls[i]? = some { c with stage } := by
  rw [getElem?_setStage, if_pos rfl, hi]
  rfl

theorem setStage_of_ne (hne : j ≠ i) : (S.setStage i stage).calls[j]? = S.calls[j]? := by
  rw [getElem?_setStage, if_neg fun h => hne h.symm]

theorem Sound.encrypt (h : L.decodes slot data = true) :
    Sound L account slot (L.encrypt account slot data wrappingKey) := ⟨rfl, rfl, h⟩

theorem Sound.opened [DecidableEq Aad] (h : Sound L account slot record) :
    L.opened account slot record (some record.wrappingKey) = .value (some record.plaintext) := by
  have hdecrypt : record.decrypt record.wrappingKey (L.aad account slot) =
      some record.plaintext := if_pos ⟨h.version, rfl, h.aad⟩
  simp only [Layout.opened, hdecrypt, h.decodes, if_true]

variable {call : StateCall Account Slot Data}

theorem ne_delete (h : c.call = call) (hnot : ∀ account, call ≠ .delete account) (account : Account)
    : c.call ≠ .delete account :=
  h ▸ hnot account

variable {n : ℕ}

theorem countP_eraseIdx (hn : rest[n]? = some erasure) :
    (rest.countP fun e => e.hasKey) =
      ((rest.eraseIdx n).countP fun e => e.hasKey) + if erasure.hasKey then 1 else 0 := by
  obtain ⟨hlt, rfl⟩ := List.getElem?_eq_some_iff.1 hn
  rw [← (getElem_cons_eraseIdx_perm hlt).countP_eq, countP_cons]

theorem mem_eraseIdx {e : Erasure Slot} (hn : rest[n]? = some erasure) (he : e ∈ rest) :
    e = erasure ∨ e ∈ rest.eraseIdx n := by
  obtain ⟨hlt, rfl⟩ := List.getElem?_eq_some_iff.1 hn
  exact mem_cons.1 ((getElem_cons_eraseIdx_perm hlt).mem_iff.2 he)

/-- What is not done by one erasure has been done by the others. -/
theorem forall_of_eraseIdx {p : Erasure Slot → Bool} (hn : rest[n]? = some erasure)
    (hp : ¬p erasure = true) (hpast : ∀ e ∈ rest.eraseIdx n, p e = false) :
    ∀ e ∈ rest, p e = false := by
  intro e he
  rcases mem_eraseIdx hn he with rfl | he
  · exact Bool.eq_false_iff.2 hp
  · exact hpast e he

theorem hasRecord_of_hasKey (h : erasure.hasKey = true) : erasure.hasRecord s = false := by
  cases erasure with
  | wrappingKey => rfl
  | records named => cases h

theorem take_later (hext : S₁.changes = S.changes ++ more) {t : ℕ} (h : t ≤ S.changes.length) :
    S₁.changes.take t = S.changes.take t := by
  rw [hext, take_append_of_le_length h]

theorem length_later (hext : S₁.changes = S.changes ++ more) :
    S.changes.length ≤ S₁.changes.length := by
  rw [hext, length_append]
  exact Nat.le_add_right _ _

theorem WriteOk.later {began : ℕ} (h : WriteOk L S began account slot data stage)
    (hext : S₁.changes = S.changes ++ more) : WriteOk L S₁ began account slot data stage := by
  cases stage with
  | answered answer time =>
    intro hwritten
    obtain ⟨p, htime, hbegan, hp⟩ := h hwritten
    refine ⟨p, htime, hbegan, ?_⟩
    rw [hext, List.getElem?_append_left (List.getElem?_eq_some_iff.1 hp).1]
    exact hp
  | _ => exact h

theorem DeleteOk.later (h : DeleteOk S account stage) (hext : S₁.changes = S.changes ++ more)
    (hnothing : (∀ change ∈ more, ¬change.Puts account) → S.wrappingKeys account = none →
      (∀ slot, S.records account slot = none) →
      S₁.wrappingKeys account = none ∧ ∀ slot, S₁.records account slot = none) :
    DeleteOk S₁ account stage := by
  cases stage with
  | answered answer time =>
    obtain ⟨htime, hold⟩ := h
    refine ⟨htime.trans (length_later hext), fun hnone => ?_⟩
    rw [hext, drop_append_of_le_length htime] at hnone
    obtain ⟨hkey, hrecords⟩ := hold fun change hchange =>
      hnone change (mem_append_left _ hchange)
    exact hnothing (fun change hchange => hnone change (mem_append_right _ hchange)) hkey
      hrecords
  | _ => exact h

variable [DecidableEq Account]

theorem remove_keys : (S.remove account erasure).wrappingKeys a =
    if a = account ∧ erasure.hasKey then none else S.wrappingKeys a := rfl

theorem remove_records : (S.remove account erasure).records a s =
    if a = account ∧ erasure.hasRecord s then none else S.records a s := rfl

theorem remove_keys_none (h : S.wrappingKeys a = none) :
    (S.remove account erasure).wrappingKeys a = none := by
  rw [remove_keys, h, ite_self]

theorem remove_records_none (h : S.records a s = none) :
    (S.remove account erasure).records a s = none := by
  rw [remove_records, h, ite_self]

theorem remove_records_some (h : (S.remove account erasure).records a s = some record) :
    ¬(a = account ∧ erasure.hasRecord s = true) ∧ S.records a s = some record := by
  rw [remove_records] at h
  split at h
  · cases h
  · rename_i hnot
    exact ⟨hnot, h⟩

variable [DecidableEq Slot]

@[simp] theorem current_concat : current (changes ++ [change]) a s =
    change.current a s (current changes a s) := by
  simp [current]

theorem current_untouched (h : ∀ change ∈ more, ¬change.Touches a s) :
    current (changes ++ more) a s = current changes a s := by
  induction more using reverseRecOn with
  | nil => rw [append_nil]
  | append_singleton more change ih =>
    rw [← append_assoc, current_concat, ih fun c hc => h c (by simp [hc])]
    have hlast := h change (by simp)
    cases change with
    | keyStored a' => rfl
    | _ => exact if_neg hlast

/-! ### What later changes leave -/

theorem ReadOk.later {began : ℕ} (h : ReadOk L S began account slot stage)
    (hext : S₁.changes = S.changes ++ more)
    (hkey : ∀ record, stage = .findKeyOf record →
      S₁.wrappingKeys account = S.wrappingKeys account) :
    ReadOk L S₁ began account slot stage := by
  cases stage with
  | findKeyOf record =>
    obtain ⟨hsound, hstored, t, hbegan, ht, hcurrent⟩ := h
    exact ⟨hsound, (hkey record rfl).trans hstored, t, hbegan, ht.trans (length_later hext),
      (take_later hext ht).symm ▸ hcurrent⟩
  | answered answer time =>
    obtain ⟨htime, t, hbegan, ht, hanswer⟩ := h
    exact ⟨htime.trans (length_later hext), t, hbegan, ht,
      (take_later hext (ht.trans htime)).symm ▸ hanswer⟩
  | _ => exact h

/-- A call that stands where it stood, after a change. -/
theorem CallOk.later (h : CallOk L S c) (hext : S₁.changes = S.changes ++ more)
    (hkey : ∀ account, c.HasRecord account → S₁.wrappingKeys account = S.wrappingKeys account)
    (hnothing : ∀ account, (∀ change ∈ more, ¬change.Puts account) →
      S.wrappingKeys account = none → (∀ slot, S.records account slot = none) →
      S₁.wrappingKeys account = none ∧ ∀ slot, S₁.records account slot = none) :
    CallOk L S₁ c where
  began := h.began.trans (length_later hext)
  write account slot data hc := (h.write account slot data hc).later hext
  read account slot hc := (h.read account slot hc).later hext fun record hstage =>
    hkey account ⟨slot, record, hc, hstage⟩
  deleteRecord := h.deleteRecord
  delete account hc := (h.delete account hc).later hext (hnothing account)

/-! ### A call goes on -/

section

variable (h : Ok L S) (hi : S.calls[i]? = some c) (hcalls : S₁.calls = S.calls)
  (hext : S₁.changes = S.changes ++ more) (hself : CallOk L S₁ { c with stage })
  (hothers : ∀ j c', j ≠ i → S.calls[j]? = some c' → ∀ account, c'.HasRecord account →
    S₁.wrappingKeys account = S.wrappingKeys account)
  (hnothing : ∀ account, (∀ change ∈ more, ¬change.Puts account) →
    S.wrappingKeys account = none → (∀ slot, S.records account slot = none) →
    S₁.wrappingKeys account = none ∧ ∀ slot, S₁.records account slot = none)

include h hi hcalls hext hself hothers hnothing

/-- A call goes on, the stores change with it, and all have seen what they should. -/
theorem Ok.calls_move (hj : (S₁.setStage i stage).calls[j]? = some c') :
    CallOk L (S₁.setStage i stage) c' := by
  have hself' : CallOk L (S₁.setStage i stage) { c with stage } :=
    ⟨hself.began, hself.write, hself.read, hself.deleteRecord, hself.delete⟩
  rcases setStage_cases (hcalls ▸ hi) hj with ⟨-, rfl⟩ | ⟨hne, hj⟩
  · exact hself'
  · rw [hcalls] at hj
    exact (h.calls j c' hj).later hext (hothers j c' hne hj) hnothing

/-- A write or a read goes on. -/
theorem Ok.moveOther (hnot : ∀ account, c.call ≠ .delete account)
    (hsealed : ∀ account slot record, S₁.records account slot = some record →
      Sound L account slot record)
    (hcurrent : ∀ account slot, (S₁.records account slot).map (fun r => r.plaintext) =
      RedcodeIm.SecureState.current S₁.changes account slot)
    (hkey : ∀ account slot record, S₁.records account slot = some record →
      S₁.wrappingKeys account = some record.wrappingKey ∨
        ∃ (j : ℕ) (c' : StateCallState Account Slot Aad Data), S.calls[j]? = some c' ∧
          c'.PastKey account ∧ ¬c'.PastRecord account slot)
    (hpastKey : ∀ (j : ℕ) (c' : StateCallState Account Slot Aad Data) (account : Account),
      S.calls[j]? = some c' → c'.PastKey account → S₁.wrappingKeys account = none)
    (hpastRecord : ∀ (j : ℕ) (c' : StateCallState Account Slot Aad Data) (account : Account)
      (slot : Slot), S.calls[j]? = some c' → c'.PastRecord account slot →
      S₁.records account slot = none) :
    Ok L (S₁.setStage i stage) := by
  have hmoved : ∀ {j : ℕ} {c' : StateCallState Account Slot Aad Data} {account : Account},
      (S₁.setStage i stage).calls[j]? = some c' → c'.call = .delete account →
      S.calls[j]? = some c' := by
    intro j c' account hj hdelete
    rcases setStage_cases (hcalls ▸ hi) hj with ⟨-, rfl⟩ | ⟨-, hj⟩
    · exact absurd hdelete (hnot account)
    · exact hcalls ▸ hj
  refine ⟨hsealed, hcurrent, fun account slot record hrecord => ?_,
    fun j c' account hj hpast => hpastKey j c' account (hmoved hj hpast.1) hpast,
    fun j c' account slot hj hpast => hpastRecord j c' account slot (hmoved hj hpast.1) hpast,
    fun j c' hj => h.calls_move hi hcalls hext hself hothers hnothing hj⟩
  rcases hkey account slot record hrecord with hkey | ⟨j, c', hj, hpast, hnotPast⟩
  · exact .inl hkey
  · refine .inr ⟨j, c', ?_, hpast, hnotPast⟩
    rw [setStage_of_ne fun heq => hnot account (?_ : c.call = _), hcalls]
    · exact hj
    · rw [heq, hi] at hj
      exact Option.some.inj hj ▸ hpast.1

end

/-- A write or a read goes on, and nothing that is stored changes. -/
theorem Ok.goOn (h : Ok L S) (hi : S.calls[i]? = some c) (hcalls : S₁.calls = S.calls)
    (hext : S₁.changes = S.changes) (hkeys : S₁.wrappingKeys = S.wrappingKeys)
    (hrecords : S₁.records = S.records) (hnot : ∀ account, c.call ≠ .delete account)
    (hself : CallOk L S₁ { c with stage }) : Ok L (S₁.setStage i stage) := by
  refine h.moveOther hi hcalls (show S₁.changes = S.changes ++ [] by rw [hext, append_nil])
    hself (fun _ _ _ _ account _ => by rw [hkeys]) (fun account _ hkey hnone => ?_) hnot
    ?_ ?_ ?_ ?_ ?_
  · rw [hkeys, hrecords]
    exact ⟨hkey, hnone⟩
  · rw [hrecords]
    exact h.sealed
  · rw [hrecords, hext]
    exact h.current
  · rw [hrecords, hkeys]
    exact h.key
  · rw [hkeys]
    exact h.pastKey
  · rw [hrecords]
    exact h.pastRecord

/-! ## One access -/

theorem ok_start (h : Ok L S) (hG : S.Orderly L (.start call)) : Ok L (S.start L call) := by
  have hcases : ∀ {j : ℕ} {c : StateCallState Account Slot Aad Data},
      (S.start L call).calls[j]? = some c → S.calls[j]? = some c ∨
        c = { call, stage := L.firstStage S.changes.length call, began := S.changes.length } := by
    intro j c hj
    rcases lt_or_ge j S.calls.length with hlt | hge
    · exact .inl ((getElem?_append_left hlt).symm.trans hj)
    · refine .inr (mem_singleton.1 (mem_of_getElem? (i := j - S.calls.length) ?_))
      exact (getElem?_append_right hge).symm.trans hj
  refine ⟨h.sealed, h.current, fun account slot record hrecord => ?_,
    fun j c account hj hpast => ?_,
    fun j c account slot hj hpast => ?_, fun j c hj => ?_⟩
  · rcases h.key account slot record hrecord with hkey | ⟨j, c, hj, hpast⟩
    · exact .inl hkey
    · refine .inr ⟨j, c, ?_, hpast⟩
      exact (List.getElem?_append_left (List.getElem?_eq_some_iff.1 hj).1).trans hj
  · rcases hcases hj with hj | rfl
    · exact h.pastKey j c account hj hpast
    · obtain ⟨rfl, rest, hstage, hnone⟩ := hpast
      cases hstage
      have hone := L.erases_key
      rw [countP_eq_zero.2 fun e he => by simp [hnone e he]] at hone
      cases hone
  · rcases hcases hj with hj | rfl
    · exact h.pastRecord j c account slot hj hpast
    · obtain ⟨rfl, rest, hstage, hnone⟩ := hpast
      cases hstage
      obtain ⟨e, he, hrecord⟩ := L.erases_record slot
      rw [hnone e he] at hrecord
      cases hrecord
  · rcases hcases hj with hj | rfl
    · obtain ⟨hbegan, hwrite, hread, hsingle, hdelete⟩ := h.calls j c hj
      exact ⟨hbegan, hwrite, hread, hsingle, hdelete⟩
    · refine ⟨le_rfl, fun account slot data hcall => ?_, fun account slot hcall => ?_,
        fun account slot hcall rest hstage => ?_, fun account hcall => ?_⟩
      · subst hcall
        by_cases haccepts : L.accepts slot data = true
        · simp only [Layout.firstStage, haccepts, if_true]
          exact hG haccepts
        · simp only [Layout.firstStage, haccepts, Bool.false_eq_true, if_false]
          intro hwritten
          cases hwritten
      · subst hcall
        trivial
      · subst hcall
        cases hstage
        intro e he
        rw [mem_singleton.1 he]
        rfl
      · subst hcall
        exact L.erases_key.le

theorem CallOk.of_write (hcall : c.call = .write account slot data)
    (hbegan : c.began ≤ S.changes.length) (h : WriteOk L S c.began account slot data c.stage) :
    CallOk L S c where
  began := hbegan
  write account' slot' data' hcall' := by
    cases hcall.symm.trans hcall'
    exact h
  read account' slot' hcall' := by cases hcall.symm.trans hcall'
  deleteRecord account' slot' hcall' := by cases hcall.symm.trans hcall'
  delete account' hcall' := by cases hcall.symm.trans hcall'

theorem CallOk.of_read (hcall : c.call = .read account slot)
    (hbegan : c.began ≤ S.changes.length) (h : ReadOk L S c.began account slot c.stage) :
    CallOk L S c where
  began := hbegan
  write account' slot' data' hcall' := by cases hcall.symm.trans hcall'
  read account' slot' hcall' := by
    cases hcall.symm.trans hcall'
    exact h
  deleteRecord account' slot' hcall' := by cases hcall.symm.trans hcall'
  delete account' hcall' := by cases hcall.symm.trans hcall'

theorem ok_findKey (h : Ok L S) (hi : S.calls[i]? = some c)
    (hcall : c.call = .write account slot data) (hstage : c.stage = .findKey) (key : ℕ) :
    Ok L (S.setStage i (.storeRecord (L.encrypt account slot data key))) ∧
      ∀ n, Ok L ({ S with generated := n }.setStage i (.storeKey key)) := by
  have hok := h.calls i c hi
  have hdecodes : L.decodes slot data = true := by
    have := hok.write account slot data hcall
    rw [hstage] at this
    exact this
  have hnot := ne_delete hcall fun _ => by simp
  exact ⟨h.goOn hi rfl rfl rfl rfl hnot (.of_write hcall hok.began ⟨.encrypt hdecodes, rfl⟩),
    fun n => h.goOn hi rfl rfl rfl rfl hnot (.of_write hcall hok.began hdecodes)⟩

/-- The key is stored where there was none, and no delete has yet to finish that erased one. -/
theorem ok_storeKey (h : Ok L S) (hi : S.calls[i]? = some c)
    (hcall : c.call = .write account slot data) (hstage : c.stage = .storeKey wrappingKey)
    (hnone : S.wrappingKeys account = none) (hpast : ∀ c' ∈ S.calls, ¬c'.PastKey account) :
    Ok L ((S.putKey account wrappingKey).setStage i
      (.storeRecord (L.encrypt account slot data wrappingKey))) := by
  have hok := h.calls i c hi
  have hdecodes : L.decodes slot data = true := by
    have := hok.write account slot data hcall
    rw [hstage] at this
    exact this
  have hother : ∀ {a : Account}, a ≠ account →
      (S.putKey account wrappingKey).wrappingKeys a = S.wrappingKeys a := fun hne => if_neg hne
  -- No record of the account is there, since none would have a key.
  have hrecords : ∀ slot, S.records account slot = none := by
    intro slot
    cases hrecord : S.records account slot with
    | none => rfl
    | some record =>
      rcases h.key account slot record hrecord with hkey | ⟨j, c', hj, hpast', -⟩
      · rw [hnone] at hkey
        cases hkey
      · exact absurd hpast' (hpast c' (mem_of_getElem? hj))
  refine h.moveOther hi rfl rfl
    (.of_write hcall (hok.began.trans (length_later rfl)) ⟨.encrypt hdecodes, rfl⟩)
    (fun j c' _ hj a hreads => ?_) (fun a hputs hkey hgone => ?_) (ne_delete hcall fun _ => by simp)
    h.sealed (fun a s => ?_) (fun a s record hrecord => ?_) (fun j c' a hj hpast' => ?_)
    h.pastRecord
  · obtain ⟨s, record, hread, hfound⟩ := hreads
    refine hother fun heq => ?_
    have hkey := (h.calls j c' hj).read a s hread
    rw [hfound, heq] at hkey
    have hstored := hkey.2.1
    rw [hnone] at hstored
    cases hstored
  · refine ⟨?_, hgone⟩
    rw [hother fun heq => hputs _ (mem_singleton.2 rfl) heq.symm]
    exact hkey
  · show (S.records a s).map _ = current (S.changes ++ [_]) a s
    rw [current_concat]
    exact h.current a s
  · have hne : a ≠ account := by
      intro heq
      have hgone := hrecords s
      rw [← heq] at hgone
      exact absurd (hgone.symm.trans hrecord) (by simp)
    rw [hother hne]
    exact h.key a s record hrecord
  · have hne : a ≠ account := fun heq => hpast c' (mem_of_getElem? hj) (heq ▸ hpast')
    rw [hother hne]
    exact h.pastKey j c' a hj hpast'

/-- The record is stored under the key that is there, and no delete has yet to finish that erased
it. -/
theorem ok_storeRecord (h : Ok L S) (hi : S.calls[i]? = some c)
    (hcall : c.call = .write account slot data) (hstage : c.stage = .storeRecord record)
    (hkey : S.wrappingKeys account = some record.wrappingKey)
    (hpast : ∀ c' ∈ S.calls, ¬c'.PastRecord account slot) :
    Ok L ((S.putRecord account slot record).answer i .written) := by
  have hok := h.calls i c hi
  obtain ⟨hsound, hdata⟩ : Sound L account slot record ∧ record.plaintext = data := by
    have := hok.write account slot data hcall
    rw [hstage] at this
    exact this
  have hrecords : ∀ a s, (S.putRecord account slot record).records a s =
      if a = account ∧ s = slot then some record else S.records a s := fun _ _ => rfl
  have hlength : (S.putRecord account slot record).changes.length = S.changes.length + 1 := by
    simp [putRecord]
  refine h.moveOther hi rfl rfl (.of_write hcall (hok.began.trans (length_later rfl)) ?_)
    (fun _ _ _ _ _ _ => rfl) (fun a hputs hnone hgone => ⟨hnone, fun s => ?_⟩)
    (ne_delete hcall fun _ => by simp) (fun a s r hr => ?_) (fun a s => ?_)
    (fun a s r hr => ?_) h.pastKey (fun j c' a s hj hpast' => ?_)
  · intro _
    refine ⟨S.changes.length, hlength, hok.began, ?_⟩
    show (S.changes ++ [_])[S.changes.length]? = _
    rw [getElem?_concat_length, hdata]
  · rw [hrecords, if_neg fun heq => hputs _ (mem_singleton.2 rfl) heq.1.symm]
    exact hgone s
  · rw [hrecords] at hr
    split at hr
    · rename_i heq
      cases hr
      rw [heq.1, heq.2]
      exact hsound
    · exact h.sealed a s r hr
  · show _ = current (S.changes ++ [_]) a s
    rw [current_concat, hrecords]
    show _ = if a = account ∧ s = slot then some record.plaintext else _
    split
    · rfl
    · exact h.current a s
  · rw [hrecords] at hr
    split at hr
    · rename_i heq
      cases hr
      rw [heq.1]
      exact .inl hkey
    · exact h.key a s r hr
  · rw [hrecords, if_neg]
    · exact h.pastRecord j c' a s hj hpast'
    · rintro ⟨rfl, rfl⟩
      exact hpast c' (mem_of_getElem? hj) hpast'

theorem ok_findRecord (h : Ok L S) (hi : S.calls[i]? = some c)
    (hcall : c.call = .read account slot)
    (hpast : S.records account slot ≠ none → ∀ c' ∈ S.calls, ¬c'.PastKey account) :
    (S.records account slot = none → Ok L (S.answer i (.value none))) ∧
      ∀ record, S.records account slot = some record → Ok L (S.setStage i (.findKeyOf record)) := by
  have hok := h.calls i c hi
  have hcurrent := h.current account slot
  have hnot := ne_delete hcall fun _ => by simp
  refine ⟨fun hnone => h.goOn hi rfl rfl rfl rfl hnot (.of_read hcall hok.began ?_),
    fun record hrecord => h.goOn hi rfl rfl rfl rfl hnot (.of_read hcall hok.began ?_)⟩
  · rw [hnone] at hcurrent
    refine ⟨le_rfl, S.changes.length, hok.began, le_rfl, ?_⟩
    rw [take_length, ← hcurrent]
    rfl
  · rw [hrecord] at hcurrent
    refine ⟨h.sealed account slot record hrecord, ?_, S.changes.length, hok.began, le_rfl, ?_⟩
    · rcases h.key account slot record hrecord with hkey | ⟨j, c', hj, hpast', -⟩
      · exact hkey
      · refine absurd hpast' (hpast ?_ c' (mem_of_getElem? hj))
        rw [hrecord]
        simp
    · rw [take_length, ← hcurrent]
      rfl

theorem ok_findKeyOf [DecidableEq Aad] (h : Ok L S) (hi : S.calls[i]? = some c)
    (hcall : c.call = .read account slot) (hstage : c.stage = .findKeyOf record) :
    Ok L (S.answer i (L.opened account slot record (S.wrappingKeys account))) := by
  have hok := h.calls i c hi
  obtain ⟨hsound, hkey, t, hbegan, ht, hcurrent⟩ : ReadOk L S c.began account slot
      (.findKeyOf record) := hstage ▸ hok.read account slot hcall
  refine h.goOn hi rfl rfl rfl rfl (ne_delete hcall fun _ => by simp)
    (.of_read hcall hok.began ⟨le_rfl, t, hbegan, ht, ?_⟩)
  rw [hkey, hsound.opened, hcurrent]

/-! ### An erasure -/

section

variable (h : Ok L S) (hi : S.calls[i]? = some c) (hstage : c.stage = .erase rest)
  (hn : rest[n]? = some erasure)

include h hi hstage hn

/-- A delete, one erasure before it is past the key. -/
theorem Ok.past_key (hcall : c.call = .delete account)
    (hpast : ∀ e ∈ rest.eraseIdx n, e.hasKey = false) :
    (S.remove account erasure).wrappingKeys account = none := by
  by_cases hkey : erasure.hasKey = true
  · rw [remove_keys, if_pos ⟨rfl, hkey⟩]
  · exact remove_keys_none (h.pastKey i c account hi
      ⟨hcall, rest, hstage, forall_of_eraseIdx hn hkey hpast⟩)

theorem Ok.past_record (hcall : c.call = .delete account)
    (hpast : ∀ e ∈ rest.eraseIdx n, e.hasRecord slot = false) :
    (S.remove account erasure).records account slot = none := by
  by_cases hrecord : erasure.hasRecord slot = true
  · rw [remove_records, if_pos ⟨rfl, hrecord⟩]
  · exact remove_records_none (h.pastRecord i c account slot hi
      ⟨hcall, rest, hstage, forall_of_eraseIdx hn hrecord hpast⟩)

/-- Who erases the key is a delete, and it has no other key to erase. -/
theorem Ok.erases_key (hkey : erasure.hasKey = true) :
    c.call = .delete c.call.account ∧ ∀ e ∈ rest.eraseIdx n, e.hasKey = false := by
  have hok := h.calls i c hi
  cases hcall : c.call with
  | write account slot data =>
    have hwrite := hok.write account slot data hcall
    rw [hstage] at hwrite
    exact hwrite.elim
  | read account slot =>
    have hread := hok.read account slot hcall
    rw [hstage] at hread
    exact hread.elim
  | deleteRecord account slot =>
    have hnone := hok.deleteRecord account slot hcall rest hstage erasure (mem_of_getElem? hn)
    rw [hkey] at hnone
    cases hnone
  | delete account =>
    refine ⟨rfl, fun e he => ?_⟩
    have hone : (rest.countP fun e => e.hasKey) ≤ 1 := by
      have := hok.delete account hcall
      rw [hstage] at this
      exact this
    have hcount := countP_eraseIdx hn
    rw [hkey, if_pos rfl] at hcount
    have hzero : ((rest.eraseIdx n).countP fun e => e.hasKey) = 0 := by omega
    simpa using countP_eq_zero.1 hzero e he

variable (hnext : stage = .erase (rest.eraseIdx n) ∨
  rest.eraseIdx n = [] ∧ stage = .answered .erased (S.changes.length + 1))

include hnext

/-- The call that erases has seen what it should, also when it is done. -/
theorem Ok.erased : CallOk L (S.remove c.call.account erasure) { c with stage } := by
  have hok := h.calls i c hi
  refine ⟨hok.began.trans (length_later rfl), fun account slot data hcall => ?_,
    fun account slot hcall => ?_, fun account slot hcall rest' hrest e he => ?_,
    fun account hcall => ?_⟩
  · have hwrite := hok.write account slot data hcall
    rw [hstage] at hwrite
    exact hwrite.elim
  · have hread := hok.read account slot hcall
    rw [hstage] at hread
    exact hread.elim
  · rcases hnext with rfl | ⟨-, rfl⟩
    · cases hrest
      exact hok.deleteRecord account slot hcall rest hstage e (mem_of_mem_eraseIdx he)
    · cases hrest
  · have hcall' : c.call = .delete account := hcall
    rcases hnext with rfl | ⟨hlast, rfl⟩
    · have hone : (rest.countP fun e => e.hasKey) ≤ 1 := by
        have := hok.delete account hcall
        rw [hstage] at this
        exact this
      exact (eraseIdx_sublist rest n).countP_le.trans hone
    · have haccount : c.call.account = account := by rw [hcall']; rfl
      rw [haccount]
      refine ⟨?_, fun _ => ⟨h.past_key hi hstage hn hcall' ?_,
        fun slot => h.past_record hi hstage hn hcall' ?_⟩⟩
      · show _ ≤ (S.changes ++ [_]).length
        simp
      · rw [hlast]
        exact fun e he => absurd he not_mem_nil
      · rw [hlast]
        exact fun e he => absurd he not_mem_nil

/-- A record that is left when the key is erased is left for the same delete. -/
theorem Ok.leaves (hcall : c.call = .delete account)
    (hrecord : S.records account slot = some record) (hnot : erasure.hasRecord slot = false)
    (hkeys : ∀ e ∈ rest.eraseIdx n, e.hasKey = false) :
    ({ c with stage } : StateCallState Account Slot Aad Data).PastKey account ∧
      ¬({ c with stage } : StateCallState Account Slot Aad Data).PastRecord account slot := by
  -- It is not past the record, so there is an erasure for it to come.
  obtain ⟨e, he, hlater⟩ : ∃ e ∈ rest.eraseIdx n, e.hasRecord slot = true := by
    by_contra hnone
    have hgone := h.past_record hi hstage hn hcall fun e he =>
      Bool.eq_false_iff.2 fun hlater => hnone ⟨e, he, hlater⟩
    rw [remove_records, if_neg (by simp [hnot]), hrecord] at hgone
    cases hgone
  rcases hnext with rfl | ⟨hlast, -⟩
  · refine ⟨⟨hcall, _, rfl, hkeys⟩, fun hpast => ?_⟩
    obtain ⟨-, rest', hrest, hpast⟩ := hpast
    cases hrest
    rw [hpast e he] at hlater
    cases hlater
  · rw [hlast] at he
    exact absurd he not_mem_nil

/-- One erasure of a delete, which meets no read half-way. -/
theorem ok_erase
    (hreads : erasure.hasKey = true → ∀ c' ∈ S.calls, ¬c'.HasRecord c.call.account) :
    Ok L ((S.remove c.call.account erasure).setStage i stage) := by
  have haccount : ∀ {account : Account}, c.call = .delete account → c.call.account = account := by
    intro account hcall
    rw [hcall]
    rfl
  refine ⟨fun a s record hrecord => h.sealed a s record (remove_records_some hrecord).2,
    fun a s => ?_, fun a s record hrecord => ?_, fun j c' a hj hpast => ?_,
    fun j c' a s hj hpast => ?_,
    fun j c' hj => h.calls_move hi rfl rfl (h.erased hi hstage hn hnext)
      (fun j c' _ hj a hreading => ?_) (fun a _ hkey hgone =>
        ⟨remove_keys_none hkey, fun slot => remove_records_none (hgone slot)⟩) hj⟩
  · show ((S.remove _ _).records a s).map _ = current (S.changes ++ [_]) a s
    rw [current_concat, remove_records]
    show _ = if a = c.call.account ∧ erasure.hasRecord s then none else _
    split
    · rfl
    · exact h.current a s
  · obtain ⟨hnot, hrecord⟩ := remove_records_some hrecord
    rcases h.key a s record hrecord with hkey | ⟨j, c', hj, hpast, hnotPast⟩
    · by_cases herased : a = c.call.account ∧ erasure.hasKey = true
      · obtain ⟨rfl, herased⟩ := herased
        obtain ⟨hcall, hkeys⟩ := h.erases_key hi hstage hn herased
        exact .inr ⟨i, _, setStage_self hi, h.leaves hi hstage hn hnext hcall hrecord
          (hasRecord_of_hasKey herased) hkeys⟩
      · exact .inl ((if_neg herased).trans hkey)
    · by_cases hji : j = i
      · rw [hji, hi] at hj
        cases hj
        obtain ⟨hcall, rest', hrest, hkeys⟩ := hpast
        rw [hstage] at hrest
        cases hrest
        refine .inr ⟨i, _, setStage_self hi, h.leaves hi hstage hn hnext hcall hrecord
          (Bool.eq_false_iff.2 fun herased => hnot ⟨(haccount hcall).symm, herased⟩)
          fun e he => hkeys e (mem_of_mem_eraseIdx he)⟩
      · exact .inr ⟨j, c', (setStage_of_ne hji).trans hj, hpast, hnotPast⟩
  · rcases setStage_cases hi hj with ⟨-, rfl⟩ | ⟨-, hj⟩
    · obtain ⟨hcall, rest', hrest, hkeys⟩ := hpast
      have hcall' : c.call = .delete a := hcall
      rcases hnext with rfl | ⟨-, rfl⟩
      · cases hrest
        rw [haccount hcall']
        exact h.past_key hi hstage hn hcall' hkeys
      · cases hrest
    · exact remove_keys_none (h.pastKey j c' a hj hpast)
  · rcases setStage_cases hi hj with ⟨-, rfl⟩ | ⟨-, hj⟩
    · obtain ⟨hcall, rest', hrest, hrecords⟩ := hpast
      have hcall' : c.call = .delete a := hcall
      rcases hnext with rfl | ⟨-, rfl⟩
      · cases hrest
        rw [haccount hcall']
        exact h.past_record hi hstage hn hcall' hrecords
      · cases hrest
    · exact remove_records_none (h.pastRecord j c' a s hj hpast)
  · rw [remove_keys, if_neg]
    rintro ⟨rfl, hkey⟩
    exact hreads hkey c' (mem_of_getElem? hj) hreading

end

/-! ## Runs -/

theorem ok_empty : Ok L (.empty : SecureStateStore Account Slot Aad Data) := by
  refine ⟨fun _ _ _ h => ?_, fun _ _ => rfl, fun _ _ _ h => ?_, fun _ _ _ h => ?_,
    fun _ _ _ _ h => ?_, fun _ _ h => ?_⟩ <;> cases h

variable {S' : SecureStateStore Account Slot Aad Data}

theorem ok_eraseNext (h : Ok L S) (hG : S.Orderly L (.erase i n))
    (hact : S.eraseNext L i n = some S') : Ok L S' := by
  unfold eraseNext at hact
  split at hact
  · rename_i call rest began hi
    split at hact
    · rename_i erasure hn
      have hreads := hG _ rest erasure hi rfl hn
      split at hact
      · split at hact
        · rename_i hlast
          cases hact
          have hlength : (S.remove call.account erasure).changes.length = S.changes.length + 1 := by
            simp [remove]
          refine ok_erase h hi rfl hn (.inr ⟨isEmpty_iff.1 hlast, ?_⟩) hreads
          rw [hlength]
        · cases hact
          exact ok_erase h hi rfl hn (.inl rfl) hreads
      · cases hact
    · cases hact
  · cases hact

theorem Ok.returned (h : Ok L S) {w : StateCallState Account Slot Aad Data}
    {answer : StateAnswer Data} {written time : ℕ} (hw : w ∈ S.calls) (hc : c ∈ S.calls)
    (hwrite : w.call = .write account slot data) (hwritten : w.stage = .answered .written written)
    (hread : c.call = .read account slot) (hanswer : c.stage = .answered answer time)
    (hlater : written ≤ c.began)
    (hkept : ∀ change ∈ (S.changes.take time).drop written, ¬change.Touches account slot) :
    answer = .value (some data) := by
  obtain ⟨i, hi⟩ := getElem?_of_mem hw
  obtain ⟨j, hj⟩ := getElem?_of_mem hc
  have hw := (h.calls i w hi).write account slot data hwrite
  rw [hwritten] at hw
  obtain ⟨p, rfl, -, hp⟩ := hw rfl
  have hc := (h.calls j c hj).read account slot hread
  rw [hanswer] at hc
  obtain ⟨-, t, hbegan, ht, rfl⟩ := hc
  -- What was written, and then nothing that touches it.
  have hsplit : S.changes.take t = S.changes.take (p + 1) ++ (S.changes.take t).drop (p + 1) := by
    have htake : (S.changes.take t).take (p + 1) = S.changes.take (p + 1) := by
      rw [take_take, Nat.min_eq_left (hlater.trans hbegan)]
    rw [← htake, take_append_drop]
  have hlast : S.changes.take (p + 1) = S.changes.take p ++ [.recordStored account slot data] := by
    rw [take_add_one, hp]
    rfl
  rw [hsplit, current_untouched, hlast, current_concat]
  · exact congrArg _ (if_pos ⟨rfl, rfl⟩)
  · intro change hchange
    refine hkept change ?_
    have hle : S.changes.take t = (S.changes.take time).take t := by
      rw [take_take, Nat.min_eq_left ht]
    rw [hle, drop_take] at hchange
    exact mem_of_mem_take hchange

variable [DecidableEq Aad]

theorem ok_resume (h : Ok L S) (hG : S.Orderly L (.resume i)) (hact : S.resume L i = some S') :
    Ok L S' := by
  unfold resume at hact
  split at hact
  · rename_i account slot data began hi
    obtain ⟨hfound, hmade⟩ := ok_findKey h hi rfl rfl ((S.wrappingKeys account).getD S.generated)
    split at hact
    · rename_i key hkey
      cases hact
      rw [hkey] at hfound
      exact hfound
    · rename_i hkey
      cases hact
      rw [hkey] at hmade
      exact hmade _
  · rename_i account slot data key began hi
    cases hact
    obtain ⟨hnone, hpast⟩ := hG _ hi
    exact ok_storeKey h hi rfl rfl hnone hpast
  · rename_i account slot data record began hi
    cases hact
    obtain ⟨hkey, hpast⟩ := hG _ hi
    exact ok_storeRecord h hi rfl rfl hkey hpast
  · rename_i account slot began hi
    obtain ⟨hnone, hfound⟩ := ok_findRecord h hi rfl (hG _ hi)
    split at hact
    · rename_i hrecord
      cases hact
      exact hnone hrecord
    · rename_i record hrecord
      cases hact
      exact hfound record hrecord
  · rename_i account slot record began hi
    cases hact
    exact ok_findKeyOf h hi rfl rfl
  · cases hact

/-- One access keeps the invariant. -/
theorem Ok.act {act : StateAct Account Slot Data} (h : Ok L S) (hG : S.Orderly L act)
    (hact : S.act L act = some S') : Ok L S' := by
  cases act with
  | start call =>
    cases hact
    exact ok_start h hG
  | resume i => exact ok_resume h hG hact
  | erase i n => exact ok_eraseNext h hG hact

theorem Ok.reach (h : Ok L S)
    (hreach : Machine.Reach (SecureStateStore.act L) (SecureStateStore.Orderly L) S S') :
    Ok L S' :=
  hreach.invariant (fun _ _ _ hS hG hact => hS.act hG hact) h

/-! ## What a read answers -/

/-- An act changes what is stored for the account of its call only. -/
theorem act_apart {act : StateAct Account Slot Data} (hact : S.act L act = some S')
    (hother : ∀ c, S.calling act = some c → c.call.account ≠ account) :
    S'.wrappingKeys account = S.wrappingKeys account ∧ S'.records account = S.records account ∧
      current S'.changes account = current S.changes account := by
  cases act with
  | start call =>
    cases hact
    exact ⟨rfl, rfl, rfl⟩
  | resume i =>
    have hact' : S.resume L i = some S' := hact
    unfold resume at hact'
    split at hact'
    · split at hact' <;> cases hact' <;> exact ⟨rfl, rfl, rfl⟩
    · rename_i a slot data key began hi
      have hne : account ≠ a := (hother _ hi).symm
      cases hact'
      refine ⟨if_neg hne, rfl, funext fun s => ?_⟩
      show current (S.changes ++ [_]) account s = _
      rw [current_concat]
      rfl
    · rename_i a slot data record began hi
      have hne : account ≠ a := (hother _ hi).symm
      cases hact'
      refine ⟨rfl, funext fun s => if_neg fun heq => hne heq.1, funext fun s => ?_⟩
      show current (S.changes ++ [_]) account s = _
      rw [current_concat]
      exact if_neg fun heq => hne heq.1
    · split at hact' <;> cases hact' <;> exact ⟨rfl, rfl, rfl⟩
    · cases hact'
      exact ⟨rfl, rfl, rfl⟩
    · cases hact'
  | erase i n =>
    have hact' : S.eraseNext L i n = some S' := hact
    unfold eraseNext at hact'
    split at hact'
    · rename_i call rest began hi
      have hne : account ≠ call.account := (hother _ hi).symm
      split at hact'
      · rename_i erasure hn
        have hchanges : ∀ s, current (S.remove call.account erasure).changes account s =
            current S.changes account s := by
          intro s
          show current (S.changes ++ [_]) account s = _
          rw [current_concat]
          exact if_neg fun heq => hne heq.1
        split at hact'
        · split at hact' <;> cases hact' <;>
            exact ⟨if_neg fun heq => hne heq.1, funext fun s => if_neg fun heq => hne heq.1,
              funext hchanges⟩
        · cases hact'
      · cases hact'
    · cases hact'

theorem Ok.readable (h : Ok L S) : S.Readable L where
  read c hc account slot answer time hread hanswer := by
    obtain ⟨j, hj⟩ := getElem?_of_mem hc
    have hok := (h.calls j c hj).read account slot hread
    rw [hanswer] at hok
    exact hok.2
  returned w hw c hc account slot data answer written time := h.returned hw hc
  deleted c hc account answer time hdelete hanswer := by
    obtain ⟨j, hj⟩ := getElem?_of_mem hc
    have hok := (h.calls j c hj).delete account hdelete
    rw [hanswer] at hok
    exact hok.2
  apart act S' account := act_apart

end

/-- **Encrypted local state stays readable**, for the H5 and for the iOS client, in every run in
which keys and records are stored in time and a delete meets no read half-way. -/
theorem state_readable {Account Data : Type} [DecidableEq Account]
    (validateProtocolState validate : Data → Bool) (decodes : H5Slot → Data → Bool) :
    (∀ S, Machine.Reach
      (act (E2eeSecureStateStorage Account validateProtocolState decodes))
      (SecureStateStore.Orderly (E2eeSecureStateStorage Account validateProtocolState decodes))
      .empty S → S.Readable (E2eeSecureStateStorage Account validateProtocolState decodes)) ∧
    (∀ S, Machine.Reach
      (act (E2eeSecureStateStore Account validateProtocolState validate))
      (SecureStateStore.Orderly (E2eeSecureStateStore Account validateProtocolState validate))
      .empty S → S.Readable (E2eeSecureStateStore Account validateProtocolState validate)) :=
  ⟨fun _ h => (ok_empty.reach h).readable, fun _ h => (ok_empty.reach h).readable⟩

/-! ## Two first writes -/

/-- The state and the profile of an account are written at once, and each write makes a key; then
the state is read. -/
def twoFirstWrites {Slot : Type} (state profile : Slot) : List (StateAct ℕ Slot ℕ) :=
  [.start (.write 7 state 1), .start (.write 7 profile 2), .resume 0, .resume 1, .resume 0,
    .resume 1, .resume 0, .resume 1, .start (.read 7 state), .resume 2, .resume 2]

/-- The state is told to be corrupted, by either client. -/
theorem first_write_lost :
    (¬∀ S, Machine.Reach
      (act (E2eeSecureStateStorage ℕ (fun _ : ℕ => true) fun _ _ => true))
      (fun _ _ => True) .empty S →
      S.Readable (E2eeSecureStateStorage ℕ (fun _ : ℕ => true) fun _ _ => true)) ∧
    (¬∀ S, Machine.Reach
      (act (E2eeSecureStateStore ℕ (fun _ : ℕ => true) fun _ => true))
      (fun _ _ => True) .empty S →
      S.Readable (E2eeSecureStateStore ℕ (fun _ : ℕ => true) fun _ => true)) := by
  refine ⟨fun h => ?_, fun h => ?_⟩
  · obtain ⟨S, hS⟩ : ∃ S, Machine.perform
        (act (E2eeSecureStateStorage ℕ (fun _ : ℕ => true) fun _ _ => true))
        (twoFirstWrites .state .profile) .empty = some S := ⟨_, rfl⟩
    have hread := h S (.of_perform (fun _ _ => trivial) hS)
    cases hS
    obtain ⟨t, -, -, hanswer⟩ := hread.read _ (.tail _ (.tail _ (.head _))) 7 .state _ _ rfl rfl
    cases hanswer
  · obtain ⟨S, hS⟩ : ∃ S, Machine.perform
        (act (E2eeSecureStateStore ℕ (fun _ : ℕ => true) fun _ => true))
        (twoFirstWrites .state .profile) .empty = some S := ⟨_, rfl⟩
    have hread := h S (.of_perform (fun _ _ => trivial) hS)
    cases hS
    obtain ⟨t, -, -, hanswer⟩ := hread.read _ (.tail _ (.tail _ (.head _))) 7 .state _ _ rfl rfl
    cases hanswer

end RedcodeIm.SecureState
