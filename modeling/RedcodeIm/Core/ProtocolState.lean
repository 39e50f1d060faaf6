import Mathlib.Data.List.Sort
import RedcodeIm.Lib.Framing
import RedcodeIm.Database.Models

/-!
# The container of a protocol state

The core keeps its MLS storage in a map of byte strings, which the clients store as one string.
`import_state` reads such a string, and it may be any: the counts and lengths in it come from
outside, and a wrong index or an overflow would be a panic.

* `StateMap` — the map, in whatever order it is gone through.
* `exportState`, `importState` — the two directions, with every error of theirs.
* `importState_eq_ok`, `exportState_eq_ok` — what each of them accepts.
* `protocol_state_round_trip` — they are inverse to each other.
-/

namespace RedcodeIm

open Framing List

/-! ## Targets -/

/-- What the core is built for: the browser, and the native clients. -/
inductive Target where
  | wasm32
  | native64
  deriving DecidableEq

/-- `usize::MAX`. -/
def Target.usizeMax : Target → ℕ
  | .wasm32 => 2 ^ 32 - 1
  | .native64 => 2 ^ 64 - 1

/-- `usize::checked_add`. -/
def Target.checkedAdd (target : Target) (a b : ℕ) : Option ℕ :=
  if a + b ≤ target.usizeMax then some (a + b) else none

variable {target : Target}

theorem Target.checkedAdd_of_le {a b : ℕ} (h : a + b < 2 ^ 32) :
    target.checkedAdd a b = some (a + b) := by
  rw [Target.checkedAdd, if_pos]
  cases target <;> simp only [Target.usizeMax] <;> omega

theorem Target.checkedAdd_eq_some {a b c : ℕ} (h : target.checkedAdd a b = some c) : c = a + b := by
  obtain ⟨_, hc⟩ := Option.ite_none_right_eq_some.mp h
  exact (Option.some.inj hc).symm

/-! ## Faults -/

/-- A call that returns no value has returned an error, or has panicked. -/
inductive Fault (ε : Type) where
  | returned (err : ε)
  | panicked
  deriving DecidableEq

/-- `bytes[start..stop]`, which panics where `bytes` is too short. -/
def indexRange {ε : Type} (bytes : Bytes) (start stop : ℕ) : Except (Fault ε) Bytes :=
  match slice bytes start stop with
  | some range => .ok range
  | none => .error .panicked

/-- `u32::from_be_bytes(bytes.try_into().expect(..))`, which panics unless there are four. -/
def expectU32 {ε : Type} (bytes : Bytes) : Except (Fault ε) ℕ :=
  if bytes.length = 4 then .ok (fromBeBytes bytes) else .error .panicked

theorem indexRange_of_le {ε : Type} {bytes : Bytes} {start stop : ℕ} (hs : start ≤ stop)
    (h : stop ≤ bytes.length) :
    indexRange (ε := ε) bytes start stop = .ok ((bytes.drop start).take (stop - start)) := by
  rw [indexRange, slice, if_pos ⟨hs, h⟩]

theorem length_of_slice {bytes range : Bytes} {start stop : ℕ}
    (h : slice bytes start stop = some range) : range.length = stop - start := by
  obtain ⟨⟨_, hle⟩, hrange⟩ := Option.ite_none_right_eq_some.mp h
  rw [← Option.some.inj hrange, length_take, length_drop]
  omega

/-! ## The map -/

/-- The values of a `MemoryStorage`, in the order in which an iteration happens to find them. -/
structure StateMap where
  entries : List (Bytes × Bytes)
  nodup : (entries.map Prod.fst).Nodup

/-- The two maps are equal; they may be gone through in different orders. -/
def StateMap.Same (left right : StateMap) : Prop := left.entries.Perm right.entries

/-- `HashMap::new`. -/
def StateMap.empty : StateMap := ⟨[], nodup_nil⟩

/-- `HashMap::insert`. -/
def StateMap.insert (values : StateMap) (key value : Bytes) : StateMap :=
  if h : key ∈ values.entries.map Prod.fst then
    { entries := values.entries.map fun entry => (entry.1, if entry.1 = key then value else entry.2)
      nodup := by simpa [map_map, Function.comp_def] using values.nodup }
  else
    { entries := values.entries ++ [(key, value)]
      nodup := by
        rw [map_append, nodup_append_comm]
        exact nodup_cons.mpr ⟨h, values.nodup⟩ }

/-- The map after the entries have been inserted one by one. -/
def StateMap.insertAll (values : StateMap) (entries : List (Bytes × Bytes)) : StateMap :=
  entries.foldl (fun values entry => values.insert entry.1 entry.2) values

variable {entries : List (Bytes × Bytes)}

theorem StateMap.entries_insertAll {values : StateMap}
    (h : ((values.entries ++ entries).map Prod.fst).Nodup) :
    (values.insertAll entries).entries = values.entries ++ entries := by
  induction entries generalizing values with
  | nil => simp [StateMap.insertAll]
  | cons entry entries ih =>
    have hkey : entry.1 ∉ values.entries.map Prod.fst := by
      rw [map_append, map_cons, nodup_middle] at h
      exact fun hmem => (nodup_cons.mp h).1 (mem_append_left _ hmem)
    have hentries : (values.insert entry.1 entry.2).entries = values.entries ++ [entry] := by
      rw [StateMap.insert, dif_neg hkey]
    have h' : (((values.insert entry.1 entry.2).entries ++ entries).map Prod.fst).Nodup := by
      rwa [hentries, append_assoc, singleton_append]
    have := ih h'
    rw [hentries, append_assoc, singleton_append] at this
    exact this

/-! ## The two directions -/

/-- `StateError`. -/
inductive StateError where
  | invalidHeader
  | unsupportedVersion (version : ℕ)
  | stateTooLarge
  | tooManyEntries
  | truncated
  | trailingBytes
  | duplicateKey
  | storageLockPoisoned
  deriving DecidableEq

/-- `MAX_STATE_BYTES`. -/
def maxStateBytes : ℕ := 64 * 1024 * 1024

/-- `MAX_STATE_ENTRIES`. -/
def maxStateEntries : ℕ := 100000

/-- `STATE_MAGIC`, which is "RCST". -/
def stateMagic : Bytes := [82, 67, 83, 84]

/-- `STATE_FORMAT_VERSION`. -/
def stateFormatVersion : ℕ := 1

/-- `ProtocolProvider`, as far as it is stored; the lock of its values may be poisoned. -/
structure ProtocolProvider where
  values : StateMap
  poisoned : Bool

/-- `read_state_length`. -/
def readStateLength (target : Target) (encoded : Bytes) (offset : ℕ) :
    Except (Fault StateError) (ℕ × ℕ) :=
  match target.checkedAdd offset 4 with
  | none => .error (.returned .stateTooLarge)
  | some stop =>
    match slice encoded offset stop with
    | none => .error (.returned .truncated)
    | some bytes => do
      let length ← expectU32 bytes
      .ok (length, stop)

/-- `read_state_field`. -/
def readStateField (target : Target) (encoded : Bytes) (offset length : ℕ) :
    Except (Fault StateError) (Bytes × ℕ) :=
  match (target.checkedAdd offset length).filter (· ≤ maxStateBytes) with
  | none => .error (.returned .stateTooLarge)
  | some stop =>
    match slice encoded offset stop with
    | none => .error (.returned .truncated)
    | some field => .ok (field, stop)

/-- A key and its value, in the loop of `import_state`. -/
def readStateEntry (target : Target) (encoded : Bytes) (offset : ℕ) :
    Except (Fault StateError) ((Bytes × Bytes) × ℕ) := do
  let (keyLength, offset) ← readStateLength target encoded offset
  let (valueLength, offset) ← readStateLength target encoded offset
  let (key, offset) ← readStateField target encoded offset keyLength
  let (value, offset) ← readStateField target encoded offset valueLength
  .ok ((key, value), offset)

/-- `values.insert(key, value).is_some()`, after the entries that are there. -/
def refuseDuplicate (seen : List (Bytes × Bytes)) (entry : Bytes × Bytes) :
    Option (Fault StateError) :=
  if entry.1 ∈ seen.map Prod.fst then some (.returned .duplicateKey) else none

/-- `ProtocolProvider::import_state`. -/
def importState (target : Target) (encoded : Bytes) : Except (Fault StateError) ProtocolProvider :=
  if maxStateBytes < encoded.length then .error (.returned .stateTooLarge)
  else if encoded.length < 10 then .error (.returned .invalidHeader)
  else do
    let magic ← indexRange encoded 0 4
    if magic ≠ stateMagic then .error (.returned .invalidHeader)
    else do
      let version := fromBeBytes (← indexRange encoded 4 6)
      if version ≠ stateFormatVersion then .error (.returned (.unsupportedVersion version))
      else do
        let entryCount ← expectU32 (← indexRange encoded 6 10)
        if maxStateEntries < entryCount then .error (.returned .tooManyEntries)
        else do
          let (entries, offset) ←
            collect (readStateEntry target encoded) refuseDuplicate entryCount [] 10
          if offset ≠ encoded.length then .error (.returned .trailingBytes)
          else .ok { values := StateMap.empty.insertAll entries, poisoned := false }

/-- An entry as it is written. -/
def stateEntry (entry : Bytes × Bytes) : Bytes :=
  toBeBytes 4 entry.1.length ++ (toBeBytes 4 entry.2.length ++ (entry.1 ++ entry.2))

/-- What is written before the entries. -/
def stateHeader (entryCount : ℕ) : Bytes :=
  stateMagic ++ (toBeBytes 2 stateFormatVersion ++ toBeBytes 4 entryCount)

/-- The loop of `export_state`. -/
def writeStateEntries : Bytes → List (Bytes × Bytes) → Except StateError Bytes
  | encoded, [] => .ok encoded
  | encoded, (key, value) :: entries =>
    if 256 ^ 4 ≤ key.length ∨ 256 ^ 4 ≤ value.length then .error .stateTooLarge
    else if maxStateBytes < (encoded ++ stateEntry (key, value)).length then .error .stateTooLarge
    else writeStateEntries (encoded ++ stateEntry (key, value)) entries

/-- `left.0.cmp(right.0)`. -/
def keyOrder (left right : Bytes × Bytes) : Prop := left.1 ≤ right.1

instance : DecidableRel keyOrder := fun left right => inferInstanceAs (Decidable (left.1 ≤ right.1))

/-- `ProtocolProvider::export_state`. -/
def exportState (provider : ProtocolProvider) : Except StateError Bytes :=
  if provider.poisoned then .error .storageLockPoisoned
  else if maxStateEntries < provider.values.entries.length then .error .tooManyEntries
  else
    let entries := provider.values.entries.insertionSort keyOrder
    writeStateEntries (stateHeader entries.length) entries

/-! ## What the readers read -/

section

variable {target : Target} {encoded : Bytes} {start stop n : ℕ}

theorem readStateLength_eq_ok (h : encoded.length ≤ maxStateBytes)
    (hstart : start ≤ encoded.length) :
    readStateLength target encoded start = .ok (n, stop) ↔
      n < 256 ^ 4 ∧ toBeBytes 4 n <+: encoded.drop start ∧ stop = start + 4 := by
  have hadd : target.checkedAdd start 4 = some (start + 4) := by
    apply Target.checkedAdd_of_le
    rw [maxStateBytes] at h
    omega
  have hok : readStateLength target encoded start = .ok (n, stop) ↔
      ∃ word, slice encoded start (start + 4) = some word ∧ fromBeBytes word = n ∧
        stop = start + 4 := by
    rw [readStateLength, hadd]
    cases hslice : slice encoded start (start + 4) with
    | none => simp [hslice]
    | some word =>
      have hlen : word.length = 4 := by rw [length_of_slice hslice]; omega
      have hexpect : expectU32 (ε := StateError) word = .ok (fromBeBytes word) := if_pos hlen
      simp [hslice, hexpect, bind, Except.bind, eq_comm]
  rw [hok]
  constructor
  · rintro ⟨word, hslice, rfl, rfl⟩
    obtain ⟨hlen, hpre⟩ := (slice_eq_some hstart).mp hslice
    have hlt := fromBeBytes_lt word
    rw [hlen] at hlt
    refine ⟨hlt, ?_, rfl⟩
    rwa [← hlen, toBeBytes_fromBeBytes]
  · rintro ⟨hlt, hpre, rfl⟩
    exact ⟨_, (slice_eq_some hstart).mpr ⟨length_toBeBytes 4 n, hpre⟩, fromBeBytes_toBeBytes hlt,
      rfl⟩

theorem readStateField_eq_ok {field : Bytes} (h : encoded.length ≤ maxStateBytes)
    (hstart : start ≤ encoded.length) :
    readStateField target encoded start n = .ok (field, stop) ↔
      field.length = n ∧ field <+: encoded.drop start ∧ stop = start + n := by
  rw [readStateField]
  cases hadd : (target.checkedAdd start n).filter (· ≤ maxStateBytes) with
  | none =>
    refine iff_of_false (by simp) ?_
    rintro ⟨rfl, hpre, -⟩
    have hle := hpre.length_le
    rw [length_drop] at hle
    have hadd' : target.checkedAdd start field.length = some (start + field.length) := by
      apply Target.checkedAdd_of_le
      rw [maxStateBytes] at h
      omega
    rw [hadd', Option.filter_some, if_pos (by simp; omega)] at hadd
    cases hadd
  | some stop' =>
    obtain ⟨hadd, _⟩ := Option.filter_eq_some_iff.mp hadd
    obtain rfl := Target.checkedAdd_eq_some hadd
    have hs : slice encoded start (start + n) = some field ↔ _ := slice_eq_some hstart
    cases hslice : slice encoded start (start + n) with
    | none =>
      rw [hslice] at hs
      refine iff_of_false (by simp [hslice]) ?_
      rintro ⟨hlen, hpre, -⟩
      cases hs.mpr ⟨hlen, hpre⟩
    | some field' =>
      rw [hslice, Option.some.injEq] at hs
      simp only [hslice, Except.ok.injEq, Prod.mk.injEq]
      rw [hs, and_assoc, eq_comm (a := start + n)]

theorem length_stateEntry (entry : Bytes × Bytes) :
    (stateEntry entry).length = 8 + entry.1.length + entry.2.length := by
  simp [stateEntry]
  omega

/-- An entry is read where it has been written. -/
theorem readStateEntry_frames (target : Target) (h : encoded.length ≤ maxStateBytes) :
    Frames encoded (readStateEntry target encoded) stateEntry fun _ => True where
  reads := by
    intro start hstart entry stop
    obtain ⟨key, value⟩ := entry
    simp only [stateEntry, append_prefix_drop, length_toBeBytes, true_and]
    constructor
    · intro hread
      obtain ⟨⟨keyLength, o₁⟩, h₁, hread⟩ := bind_eq_ok.mp hread
      obtain ⟨hkey, hpre₁, rfl⟩ := (readStateLength_eq_ok h hstart).mp h₁
      have hle₁ := hpre₁.length_le
      rw [length_toBeBytes, length_drop] at hle₁
      obtain ⟨⟨valueLength, o₂⟩, h₂, hread⟩ := bind_eq_ok.mp hread
      obtain ⟨hvalue, hpre₂, rfl⟩ := (readStateLength_eq_ok h (by omega)).mp h₂
      have hle₂ := hpre₂.length_le
      rw [length_toBeBytes, length_drop] at hle₂
      obtain ⟨⟨key', o₃⟩, h₃, hread⟩ := bind_eq_ok.mp hread
      obtain ⟨rfl, hpre₃, rfl⟩ := (readStateField_eq_ok h (by omega)).mp h₃
      have hle₃ := hpre₃.length_le
      rw [length_drop] at hle₃
      obtain ⟨⟨value', o₄⟩, h₄, hread⟩ := bind_eq_ok.mp hread
      obtain ⟨rfl, hpre₄, rfl⟩ := (readStateField_eq_ok h (by omega)).mp h₄
      obtain ⟨⟨rfl, rfl⟩, rfl⟩ : (key' = key ∧ value' = value) ∧ _ = stop := by
        simpa [pure, Except.pure] using hread
      exact ⟨⟨hpre₁, hpre₂, hpre₃, hpre₄⟩, by simp; omega⟩
    · rintro ⟨⟨hpre₁, hpre₂, hpre₃, hpre₄⟩, rfl⟩
      have hle₁ := hpre₁.length_le
      have hle₂ := hpre₂.length_le
      have hle₃ := hpre₃.length_le
      have hle₄ := hpre₄.length_le
      rw [length_toBeBytes, length_drop] at hle₁ hle₂
      rw [length_drop] at hle₃ hle₄
      have hmax : maxStateBytes < 256 ^ 4 := by decide
      refine bind_eq_ok.mpr ⟨_, (readStateLength_eq_ok h hstart).mpr ⟨?_, hpre₁, rfl⟩, ?_⟩
      · omega
      refine bind_eq_ok.mpr ⟨_, (readStateLength_eq_ok h (by omega)).mpr ⟨?_, hpre₂, rfl⟩, ?_⟩
      · omega
      refine bind_eq_ok.mpr ⟨_, (readStateField_eq_ok h (by omega)).mpr ⟨rfl, hpre₃, rfl⟩, ?_⟩
      refine bind_eq_ok.mpr ⟨_, (readStateField_eq_ok h (by omega)).mpr ⟨rfl, hpre₄, rfl⟩, ?_⟩
      simp
      omega

end

/-! ## What is imported -/

theorem admitted_refuseDuplicate_of {seen : List (Bytes × Bytes)} (h : (seen.map Prod.fst).Nodup) :
    Admitted refuseDuplicate seen entries ↔ ((seen ++ entries).map Prod.fst).Nodup := by
  induction entries generalizing seen with
  | nil => simpa [Admitted] using h
  | cons entry entries ih =>
    have hrefuse : refuseDuplicate seen entry = none ↔ entry.1 ∉ seen.map Prod.fst := by
      rw [refuseDuplicate, ite_eq_right_iff]
      simp
    have hseen : ((seen ++ [entry]).map Prod.fst).Nodup ↔ entry.1 ∉ seen.map Prod.fst := by
      rw [map_append, nodup_append_comm, map_singleton, singleton_append,
        nodup_cons]
      exact and_iff_left h
    have happend : seen ++ entry :: entries = seen ++ [entry] ++ entries := by simp
    rw [Admitted, hrefuse, happend]
    constructor
    · rintro ⟨hmem, hadmitted⟩
      exact (ih (hseen.mpr hmem)).mp hadmitted
    · intro hnodup
      have hmem : ((seen ++ [entry]).map Prod.fst).Nodup := by
        rw [map_append] at hnodup
        exact hnodup.of_append_left
      exact ⟨hseen.mp hmem, (ih hmem).mpr hnodup⟩

theorem admitted_refuseDuplicate :
    Admitted refuseDuplicate [] entries ↔ (entries.map Prod.fst).Nodup :=
  admitted_refuseDuplicate_of nodup_nil

theorem length_stateHeader (n : ℕ) : (stateHeader n).length = 10 := by
  simp [stateHeader, stateMagic]

variable {encoded : Bytes}

/-- The header is there where its three parts are. -/
theorem stateHeader_prefix_iff {n : ℕ} (h : 10 ≤ encoded.length) (hn : n < 256 ^ 4) :
    stateHeader n <+: encoded ↔ encoded.take 4 = stateMagic ∧
      fromBeBytes ((encoded.drop 4).take 2) = stateFormatVersion ∧
      fromBeBytes ((encoded.drop 6).take 4) = n := by
  have hmagic : stateMagic <+: encoded ↔ encoded.take 4 = stateMagic := by
    rw [prefix_iff_eq_take]
    exact eq_comm
  have hversion : toBeBytes 2 stateFormatVersion <+: encoded.drop 4 ↔
      fromBeBytes ((encoded.drop 4).take 2) = stateFormatVersion := by
    rw [prefix_iff_eq_take, length_toBeBytes, eq_comm, eq_toBeBytes_iff (by decide)]
    exact and_iff_right (by simp; omega)
  have hcount : toBeBytes 4 n <+: encoded.drop 6 ↔
      fromBeBytes ((encoded.drop 6).take 4) = n := by
    rw [prefix_iff_eq_take, length_toBeBytes, eq_comm, eq_toBeBytes_iff hn]
    exact and_iff_right (by simp; omega)
  have hsplit : stateHeader n <+: encoded.drop 0 ↔ stateMagic <+: encoded.drop 0 ∧
      toBeBytes 2 stateFormatVersion ++ toBeBytes 4 n <+: encoded.drop 4 := append_prefix_drop
  have hsplit' : toBeBytes 2 stateFormatVersion ++ toBeBytes 4 n <+: encoded.drop 4 ↔
      toBeBytes 2 stateFormatVersion <+: encoded.drop 4 ∧ toBeBytes 4 n <+: encoded.drop 6 :=
    append_prefix_drop
  rw [drop_zero] at hsplit
  rw [hsplit, hmagic, hsplit', hversion, hcount]

/-- A protocol state as it is laid out. -/
def stateLayout (entries : List (Bytes × Bytes)) : Bytes :=
  stateHeader entries.length ++ entries.flatMap stateEntry

theorem length_stateLayout (entries : List (Bytes × Bytes)) :
    (stateLayout entries).length =
      10 + (entries.map fun entry => 8 + entry.1.length + entry.2.length).sum := by
  rw [stateLayout, length_append, length_stateHeader, length_flatMap]
  simp only [length_stateEntry]

/-- The limits of a protocol state. -/
structure WithinStateLimits (entries : List (Bytes × Bytes)) : Prop where
  count : entries.length ≤ maxStateEntries
  bytes : (stateLayout entries).length ≤ maxStateBytes

variable {provider : ProtocolProvider}

/-- The checks of the header, and the loop after it. -/
theorem importState_eq_ok_iff_collect (hmax : encoded.length ≤ maxStateBytes)
    (hlen : 10 ≤ encoded.length) :
    importState target encoded = .ok provider ↔
      encoded.take 4 = stateMagic ∧
      fromBeBytes ((encoded.drop 4).take 2) = stateFormatVersion ∧
      fromBeBytes ((encoded.drop 6).take 4) ≤ maxStateEntries ∧
      ∃ entries, collect (readStateEntry target encoded) refuseDuplicate
          (fromBeBytes ((encoded.drop 6).take 4)) [] 10 = .ok (entries, encoded.length) ∧
        provider = { values := StateMap.empty.insertAll entries, poisoned := false } := by
  have hmagic : indexRange (ε := StateError) encoded 0 4 = .ok (encoded.take 4) :=
    indexRange_of_le (by omega) (by omega)
  have hversion : indexRange (ε := StateError) encoded 4 6 = .ok ((encoded.drop 4).take 2) :=
    indexRange_of_le (by omega) (by omega)
  have hcount : indexRange (ε := StateError) encoded 6 10 = .ok ((encoded.drop 6).take 4) :=
    indexRange_of_le (by omega) hlen
  have hword : ((encoded.drop 6).take 4).length = 4 := by simp; omega
  have hexpect : expectU32 (ε := StateError) ((encoded.drop 6).take 4) =
      .ok (fromBeBytes ((encoded.drop 6).take 4)) := if_pos hword
  simp only [importState, ite_error_eq_ok, bind_eq_ok, hmagic, hversion, hcount, hexpect,
    not_lt, not_not, Except.ok.injEq, Prod.exists, exists_eq_left', hmax, hlen, true_and]
  refine and_congr_right fun _ => and_congr_right fun _ => and_congr_right fun _ => ?_
  constructor
  · rintro ⟨entries, _, hcollect, rfl, rfl⟩
    exact ⟨entries, hcollect, rfl⟩
  · rintro ⟨entries, hcollect, rfl⟩
    exact ⟨entries, _, hcollect, rfl, rfl⟩

/-- **What is imported**: a layout of entries with different keys, and nothing else. -/
theorem importState_eq_ok :
    importState target encoded = .ok provider ↔
      ∃ entries, encoded = stateLayout entries ∧ (entries.map Prod.fst).Nodup ∧
        WithinStateLimits entries ∧
        provider = { values := StateMap.empty.insertAll entries, poisoned := false } := by
  by_cases hmax : maxStateBytes < encoded.length
  · refine iff_of_false (by simp [importState, if_pos hmax]) ?_
    rintro ⟨entries, rfl, _, hlimits, _⟩
    exact absurd hlimits.bytes (by omega)
  by_cases hshort : encoded.length < 10
  · refine iff_of_false (by simp [importState, if_neg hmax, if_pos hshort]) ?_
    rintro ⟨entries, rfl, _, _, _⟩
    rw [length_stateLayout] at hshort
    omega
  have hlen : 10 ≤ encoded.length := by omega
  have hframes := readStateEntry_frames target (not_lt.mp hmax)
  rw [importState_eq_ok_iff_collect (not_lt.mp hmax) hlen]
  constructor
  · rintro ⟨hmagic, hversion, hcount, entries, hcollect, rfl⟩
    obtain ⟨xs, hxs, hn, _, hadmitted, hpre, hstop⟩ := (hframes.collect_eq_ok hlen).mp hcollect
    subst hxs
    have hnodup := admitted_refuseDuplicate.mp hadmitted
    have hheader : stateHeader entries.length <+: encoded :=
      (stateHeader_prefix_iff hlen (by rw [hn]; exact hcount.trans_lt (by decide))).mpr
        ⟨hmagic, hversion, hn.symm⟩
    have hrest : encoded.drop 10 = entries.flatMap stateEntry :=
      (prefix_drop_to_end hlen).mp ⟨hpre, hstop.symm⟩
    have hlayout : encoded = stateLayout entries := by
      rw [stateLayout, ← hrest, prefix_iff_eq_take.mp hheader, length_stateHeader,
        take_append_drop]
    exact ⟨entries, hlayout, hnodup, ⟨hn ▸ hcount, hlayout ▸ not_lt.mp hmax⟩, rfl⟩
  · rintro ⟨entries, hlayout, hnodup, hlimits, rfl⟩
    have hcount := hlimits.count
    have hheader : stateHeader entries.length <+: encoded := ⟨_, hlayout.symm⟩
    have hrest : encoded.drop 10 = entries.flatMap stateEntry := by
      rw [hlayout, stateLayout, ← length_stateHeader entries.length, drop_left]
    obtain ⟨hmagic, hversion, hn⟩ :=
      (stateHeader_prefix_iff hlen (hcount.trans_lt (by decide))).mp hheader
    obtain ⟨hpre, hstop⟩ := (prefix_drop_to_end hlen).mpr hrest
    refine ⟨hmagic, hversion, hn.symm ▸ hcount, entries, ?_, rfl⟩
    refine (hframes.collect_eq_ok hlen).mpr ⟨entries, rfl, hn.symm, ?_, ?_, hpre, hstop.symm⟩
    · exact fun _ _ => trivial
    · exact admitted_refuseDuplicate.mpr hnodup

theorem readStateLength_ne_panicked (target : Target) (encoded : Bytes) (offset : ℕ) :
    readStateLength target encoded offset ≠ .error .panicked := by
  rw [readStateLength]
  cases hadd : target.checkedAdd offset 4 with
  | none => simp
  | some stop =>
    cases hslice : slice encoded offset stop with
    | none => simp [hslice]
    | some word =>
      have hlen : word.length = 4 := by
        rw [length_of_slice hslice, Target.checkedAdd_eq_some hadd]
        omega
      simp [hslice, expectU32, if_pos hlen, bind, Except.bind]

theorem readStateField_ne_panicked (target : Target) (encoded : Bytes) (offset length : ℕ) :
    readStateField target encoded offset length ≠ .error .panicked := by
  rw [readStateField]
  cases hadd : (target.checkedAdd offset length).filter (· ≤ maxStateBytes) with
  | none => simp
  | some stop =>
    cases hslice : slice encoded offset stop with
    | none | some => simp [hslice]

theorem readStateEntry_ne_panicked (target : Target) (encoded : Bytes) (offset : ℕ) :
    readStateEntry target encoded offset ≠ .error .panicked := by
  refine bind_ne_error (readStateLength_ne_panicked target encoded offset) fun r₁ _ => ?_
  refine bind_ne_error (readStateLength_ne_panicked target encoded r₁.2) fun r₂ _ => ?_
  refine bind_ne_error (readStateField_ne_panicked target encoded r₂.2 r₁.1) fun r₃ _ => ?_
  exact bind_ne_error (readStateField_ne_panicked target encoded r₃.2 r₂.1) fun _ _ => by simp

/-- **No string makes the import panic**: no index is out of range, whatever the counts and
lengths in it say. -/
theorem importState_ne_panicked (target : Target) (encoded : Bytes) :
    importState target encoded ≠ .error .panicked := by
  by_cases hmax : maxStateBytes < encoded.length
  · simp [importState, if_pos hmax]
  by_cases hshort : encoded.length < 10
  · simp [importState, if_neg hmax, if_pos hshort]
  have hmagic : indexRange (ε := StateError) encoded 0 4 = .ok (encoded.take 4) :=
    indexRange_of_le (by omega) (by omega)
  have hversion : indexRange (ε := StateError) encoded 4 6 = .ok ((encoded.drop 4).take 2) :=
    indexRange_of_le (by omega) (by omega)
  have hcount : indexRange (ε := StateError) encoded 6 10 = .ok ((encoded.drop 6).take 4) :=
    indexRange_of_le (by omega) (by omega)
  have hword : ((encoded.drop 6).take 4).length = 4 := by simp; omega
  have hexpect : expectU32 (ε := StateError) ((encoded.drop 6).take 4) =
      .ok (fromBeBytes ((encoded.drop 6).take 4)) := if_pos hword
  have hloop (n : ℕ) :
      collect (readStateEntry target encoded) refuseDuplicate n [] 10 ≠ .error .panicked := by
    refine collect_ne_error (readStateEntry_ne_panicked target encoded) ?_ n [] 10
    intro seen entry
    rw [refuseDuplicate]
    split <;> simp
  rw [importState, if_neg hmax, if_neg hshort, hmagic]
  refine bind_ne_error (by simp) fun magic _ => ?_
  split
  · simp
  rw [hversion]
  refine bind_ne_error (by simp) fun version _ => ?_
  dsimp only
  split
  · simp
  rw [hcount]
  refine bind_ne_error (by simp) fun word hw => ?_
  rw [← Except.ok.inj hw, hexpect]
  refine bind_ne_error (by simp) fun n _ => ?_
  split
  · simp
  refine bind_ne_error (hloop n) fun r _ => ?_
  split <;> simp

/-! ## What is exported -/

theorem writeStateEntries_eq_ok {b : Bytes} (h : encoded.length ≤ maxStateBytes) :
    writeStateEntries encoded entries = .ok b ↔
      b = encoded ++ entries.flatMap stateEntry ∧ b.length ≤ maxStateBytes := by
  induction entries generalizing encoded with
  | nil =>
    rw [writeStateEntries, Except.ok.injEq, flatMap_nil, append_nil, eq_comm]
    exact (and_iff_left_of_imp (by rintro rfl; exact h)).symm
  | cons entry entries ih =>
    obtain ⟨key, value⟩ := entry
    have hentry : (encoded ++ stateEntry (key, value)).length =
        encoded.length + (8 + key.length + value.length) := by
      rw [length_append, length_stateEntry]
    have hmax : maxStateBytes < 256 ^ 4 := by decide
    rw [writeStateEntries, ite_error_eq_ok, ite_error_eq_ok, flatMap_cons,
      ← append_assoc, hentry]
    constructor
    · rintro ⟨_, hfits, hrest⟩
      exact (ih (by omega)).mp hrest
    · rintro ⟨hb, hfits⟩
      have hle : (encoded ++ stateEntry (key, value)).length ≤ b.length := by
        simp only [hb, length_append]
        omega
      exact ⟨by omega, by omega, (ih (by omega)).mpr ⟨hb, hfits⟩⟩

variable {entries' : List (Bytes × Bytes)}

/-- The limits say nothing about the order of the entries. -/
theorem WithinStateLimits.perm (h : WithinStateLimits entries) (hp : entries.Perm entries') :
    WithinStateLimits entries' where
  count := hp.length_eq ▸ h.count
  bytes := by
    have := h.bytes
    rw [length_stateLayout] at this ⊢
    rwa [← (hp.map fun entry => 8 + entry.1.length + entry.2.length).sum_nat]

/-- **What is exported**: the entries in the order of their keys, unless they are too many. -/
theorem exportState_eq_ok {b : Bytes} :
    exportState provider = .ok b ↔
      provider.poisoned = false ∧ WithinStateLimits provider.values.entries ∧
        b = stateLayout (provider.values.entries.insertionSort keyOrder) := by
  have hp : (provider.values.entries.insertionSort keyOrder).Perm provider.values.entries :=
    perm_insertionSort keyOrder _
  have hheader (n : ℕ) : (stateHeader n).length ≤ maxStateBytes := by
    rw [length_stateHeader]
    decide
  rw [exportState, ite_error_eq_ok, ite_error_eq_ok, writeStateEntries_eq_ok (hheader _),
    not_lt, Bool.not_eq_true]
  refine and_congr_right fun _ => ?_
  constructor
  · rintro ⟨hcount, rfl, hbytes⟩
    have hlimits : WithinStateLimits (provider.values.entries.insertionSort keyOrder) :=
      ⟨hp.length_eq ▸ hcount, hbytes⟩
    exact ⟨hlimits.perm hp, rfl⟩
  · rintro ⟨hlimits, rfl⟩
    exact ⟨hlimits.count, rfl, (hlimits.perm hp.symm).bytes⟩

/-! ## Round trips -/

theorem entries_insertAll_empty (h : (entries.map Prod.fst).Nodup) :
    (StateMap.empty.insertAll entries).entries = entries :=
  StateMap.entries_insertAll h

/-- Entries in the order of their keys are in no other order in it. -/
theorem insertionSort_eq_iff {sorted : List (Bytes × Bytes)} (h : (entries.map Prod.fst).Nodup)
    (hp : sorted.Perm entries) :
    entries.insertionSort keyOrder = sorted ↔ sorted.Pairwise keyOrder := by
  have htotal : Std.Total keyOrder := ⟨fun left right => List.le_total left.1 right.1⟩
  have htrans : IsTrans (Bytes × Bytes) keyOrder := ⟨fun _ _ _ => List.le_trans⟩
  have hsorted := pairwise_insertionSort keyOrder entries
  constructor
  · rintro rfl
    exact hsorted
  · intro hpairwise
    refine List.Perm.eq_of_pairwise ?_ hsorted hpairwise
      ((perm_insertionSort keyOrder entries).trans hp.symm)
    intro left right hleft hright hle hge
    have hkey : left.1 = right.1 := List.le_antisymm hle hge
    exact inj_on_of_nodup_map h ((perm_insertionSort keyOrder entries).subset hleft)
      (hp.subset hright) hkey

theorem length_le_length_stateLayout (entries : List (Bytes × Bytes)) :
    entries.length ≤ (stateLayout entries).length := by
  rw [length_stateLayout]
  induction entries with
  | nil => simp
  | cons entry entries ih =>
    rw [length_cons, map_cons, sum_cons]
    omega

/-- A layout that is within the limits begins with no other layout. -/
theorem stateLayout_inj (h : WithinStateLimits entries)
    (hpre : stateLayout entries' <+: stateLayout entries) :
    entries' = entries := by
  have hbytes := h.bytes
  have hlen : 10 ≤ (stateLayout entries).length := by rw [length_stateLayout]; omega
  have hmax : maxStateBytes < 256 ^ 4 := by decide
  have hle := length_le_length_stateLayout entries
  have hle' := (length_le_length_stateLayout entries').trans hpre.length_le
  rw [← drop_zero (l := stateLayout entries)] at hpre
  obtain ⟨hheader, hfields⟩ := append_prefix_drop.mp hpre
  have hcount : entries'.length = entries.length := by
    have hn := ((stateHeader_prefix_iff hlen (by omega)).mp hheader).2.2
    have hn' := ((stateHeader_prefix_iff hlen (by omega)).mp (prefix_append _ _)).2.2
    exact hn.symm.trans hn'
  have hself : entries.flatMap stateEntry <+: (stateLayout entries).drop 10 := by
    rw [stateLayout, ← length_stateHeader entries.length, drop_left]
  exact (readStateEntry_frames .native64 hbytes).eq_of_prefixes hlen hcount
    (fun _ _ => trivial) (fun _ _ => trivial) hfields hself

/-- **Round trips of the protocol state.**  A map that is within the limits is imported again
from its export.  Any string is refused with an error, or it is the layout of the map that is
imported, and the export of that map just where it has the keys in their order.  An accepted
string begins with no other one. -/
theorem protocol_state_round_trip (target : Target) :
    (∀ values : StateMap, WithinStateLimits values.entries →
      ∃ encoded values', exportState ⟨values, false⟩ = .ok encoded ∧
        importState target encoded = .ok ⟨values', false⟩ ∧ values'.Same values) ∧
    (∀ encoded : Bytes, (∃ err, importState target encoded = .error (.returned err)) ∨
      ∃ provider, importState target encoded = .ok provider ∧
        encoded = stateLayout provider.values.entries ∧
        (exportState provider = .ok encoded ↔
          provider.values.entries.Pairwise fun left right => left.1 ≤ right.1)) ∧
    ∀ encoded longer : Bytes, encoded <+: longer → encoded ≠ longer →
      (∃ provider, importState target longer = .ok provider) →
        ∃ err, importState target encoded = .error (.returned err) := by
  refine ⟨fun values hlimits => ?_, fun encoded => ?_, fun encoded longer hpre hne => ?_⟩
  · have hp := perm_insertionSort keyOrder values.entries
    have hnodup : ((values.entries.insertionSort keyOrder).map Prod.fst).Nodup :=
      (hp.map Prod.fst).nodup_iff.mpr values.nodup
    refine ⟨_, _, exportState_eq_ok.mpr ⟨rfl, hlimits, rfl⟩,
      importState_eq_ok.mpr ⟨_, rfl, hnodup, hlimits.perm hp.symm, rfl⟩, ?_⟩
    rw [StateMap.Same, entries_insertAll_empty hnodup]
    exact hp
  · cases himport : importState target encoded with
    | error fault =>
      cases fault with
      | returned err => exact .inl ⟨err, rfl⟩
      | panicked => exact absurd himport (importState_ne_panicked target encoded)
    | ok provider =>
      obtain ⟨entries, rfl, hnodup, hlimits, rfl⟩ := importState_eq_ok.mp himport
      refine .inr ⟨_, rfl, ?_, ?_⟩
      · rw [entries_insertAll_empty hnodup]
      · rw [exportState_eq_ok, entries_insertAll_empty hnodup]
        refine Iff.trans ?_ (insertionSort_eq_iff hnodup (List.Perm.refl entries))
        constructor
        · rintro ⟨-, -, hlayout⟩
          refine (stateLayout_inj hlimits ?_)
          rw [← hlayout]
        · intro hsorted
          exact ⟨rfl, hlimits, by rw [hsorted]⟩
  · rintro ⟨provider, hlonger⟩
    obtain ⟨entries, rfl, hnodup, hlimits, rfl⟩ := importState_eq_ok.mp hlonger
    cases himport : importState target encoded with
    | error fault =>
      cases fault with
      | returned err => exact ⟨err, rfl⟩
      | panicked => exact absurd himport (importState_ne_panicked target encoded)
    | ok provider' =>
      obtain ⟨entries', rfl, _⟩ := importState_eq_ok.mp himport
      exact absurd (congrArg stateLayout (stateLayout_inj hlimits hpre)) hne

end RedcodeIm
