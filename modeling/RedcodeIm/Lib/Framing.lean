import Mathlib.Data.List.Infix
import Mathlib.Tactic.Ring

/-!
# Length-prefixed framing

Strings of bytes laid out field by field, and readers that go through them by their offset.

* `toBeBytes`, `fromBeBytes` — numbers of a fixed width, the high byte first.
* `slice` — the bytes between two offsets, where they are there.
* `lengthPrefixed` — a field after its length.
* `Frames` — a reader reads what a writer has written, and nothing else.
* `collect` — a counted loop of a reader; `Frames.collect_eq_ok` is what it comes to.
-/

namespace Framing

open List

/-! ## Numbers -/

/-- The low `width` bytes of a number. -/
def toBeBytes : ℕ → ℕ → List UInt8
  | 0, _ => []
  | width + 1, n => toBeBytes width (n / 256) ++ [UInt8.ofNat n]

/-- The number that bytes stand for. -/
def fromBeBytes (bytes : List UInt8) : ℕ := bytes.foldl (fun n b => n * 256 + b.toNat) 0

@[simp] theorem length_toBeBytes (width n : ℕ) : (toBeBytes width n).length = width := by
  induction width generalizing n with
  | zero => rfl
  | succ width ih => simp [toBeBytes, ih]

@[simp] theorem fromBeBytes_append_singleton (bytes : List UInt8) (b : UInt8) :
    fromBeBytes (bytes ++ [b]) = fromBeBytes bytes * 256 + b.toNat := by
  simp [fromBeBytes]

theorem fromBeBytes_lt (bytes : List UInt8) : fromBeBytes bytes < 256 ^ bytes.length := by
  induction bytes using reverseRecOn with
  | nil => simp [fromBeBytes]
  | append_singleton bytes b ih =>
    have hb : b.toNat < 256 := b.toNat_lt
    rw [fromBeBytes_append_singleton, length_append, length_singleton, pow_succ]
    omega

theorem fromBeBytes_toBeBytes {width n : ℕ} (h : n < 256 ^ width) :
    fromBeBytes (toBeBytes width n) = n := by
  induction width generalizing n with
  | zero => simp [toBeBytes, fromBeBytes] at h ⊢; omega
  | succ width ih =>
    have hdiv : n / 256 < 256 ^ width := by omega
    have hmod : (UInt8.ofNat n).toNat = n % 256 := by simp
    rw [toBeBytes, fromBeBytes_append_singleton, ih hdiv, hmod]
    omega

theorem toBeBytes_fromBeBytes (bytes : List UInt8) :
    toBeBytes bytes.length (fromBeBytes bytes) = bytes := by
  induction bytes using reverseRecOn with
  | nil => rfl
  | append_singleton bytes b ih =>
    have hb : b.toNat < 256 := b.toNat_lt
    have hdiv : (fromBeBytes bytes * 256 + b.toNat) / 256 = fromBeBytes bytes := by omega
    have hlow : UInt8.ofNat (fromBeBytes bytes * 256 + b.toNat) = b := by
      apply UInt8.toNat_inj.mp
      simp
    rw [length_append, length_singleton, fromBeBytes_append_singleton, toBeBytes, hdiv,
      ih, hlow]

variable {bytes : List UInt8}

/-- Bytes of the width of a number are that number, written. -/
theorem eq_toBeBytes_iff {width n : ℕ} (h : n < 256 ^ width) :
    bytes = toBeBytes width n ↔ bytes.length = width ∧ fromBeBytes bytes = n := by
  constructor
  · rintro rfl
    exact ⟨length_toBeBytes width n, fromBeBytes_toBeBytes h⟩
  · rintro ⟨hlen, hn⟩
    rw [← hn, ← hlen, toBeBytes_fromBeBytes]

/-! ## Slices -/

/-- The bytes from `start` up to `stop`. -/
def slice (bytes : List UInt8) (start stop : ℕ) : Option (List UInt8) :=
  if start ≤ stop ∧ stop ≤ bytes.length then some ((bytes.drop start).take (stop - start))
  else none

theorem slice_add (bytes : List UInt8) (start n : ℕ) :
    slice bytes start (start + n) =
      if start + n ≤ bytes.length then some ((bytes.drop start).take n) else none := by
  rw [slice, Nat.add_sub_cancel_left]
  exact if_congr (and_iff_right (Nat.le_add_right start n)) rfl rfl

variable {field : List UInt8} {start : ℕ}

theorem slice_eq_some {n : ℕ} (h : start ≤ bytes.length) :
    slice bytes start (start + n) = some field ↔ field.length = n ∧ field <+: bytes.drop start := by
  unfold slice
  constructor
  · intro hs
    obtain ⟨⟨_, hle⟩, hfield⟩ := Option.ite_none_right_eq_some.mp hs
    cases hfield
    refine ⟨by simp; omega, ?_⟩
    exact take_prefix _ _
  · rintro ⟨rfl, hpre⟩
    have hle := hpre.length_le
    rw [length_drop] at hle
    rw [if_pos ⟨by omega, by omega⟩, Nat.add_sub_cancel_left, ← prefix_iff_eq_take.mp hpre]

/-- What is cut off in front of the rest. -/
theorem take_drop_append_drop (bytes : List UInt8) (start n : ℕ) :
    (bytes.drop start).take n ++ bytes.drop (start + n) = bytes.drop start := by
  rw [← drop_drop, take_append_drop]

/-- A string that begins with one part and goes on with another. -/
theorem append_prefix_drop {left right : List UInt8} :
    left ++ right <+: bytes.drop start ↔
      left <+: bytes.drop start ∧ right <+: bytes.drop (start + left.length) := by
  rw [← drop_drop]
  constructor
  · rintro ⟨rest, h⟩
    refine ⟨⟨right ++ rest, by rw [← append_assoc, h]⟩, ⟨rest, ?_⟩⟩
    rw [← h, append_assoc, drop_left]
  · rintro ⟨⟨rest, h⟩, hright⟩
    rw [← h, drop_left] at hright
    obtain ⟨rest', rfl⟩ := hright
    exact ⟨rest', by rw [← h, append_assoc]⟩

/-- A part that reaches to the end is all there is. -/
theorem prefix_drop_to_end (h : start ≤ bytes.length) :
    field <+: bytes.drop start ∧ start + field.length = bytes.length ↔
      bytes.drop start = field := by
  constructor
  · rintro ⟨hpre, hlen⟩
    exact (hpre.eq_of_length (by rw [length_drop]; omega)).symm
  · rintro rfl
    exact ⟨prefix_rfl, by rw [length_drop]; omega⟩

/-! ## Fields -/

/-- A field after its length, a number of four bytes. -/
def lengthPrefixed (field : List UInt8) : List UInt8 := toBeBytes 4 field.length ++ field

@[simp] theorem length_lengthPrefixed (field : List UInt8) :
    (lengthPrefixed field).length = 4 + field.length := by
  simp [lengthPrefixed]

/-- There is a field at an offset where its length is there, and as many bytes after it. -/
theorem lengthPrefixed_prefix_iff :
    lengthPrefixed field <+: bytes.drop start ∧ field.length < 256 ^ 4 ↔
      ∃ word, word.length = 4 ∧ word <+: bytes.drop start ∧
        fromBeBytes word = field.length ∧ field <+: bytes.drop (start + 4) := by
  constructor
  · rintro ⟨hpre, hlt⟩
    obtain ⟨hword, hfield⟩ := append_prefix_drop.mp hpre
    exact ⟨_, length_toBeBytes 4 _, hword, fromBeBytes_toBeBytes hlt, hfield⟩
  · rintro ⟨word, hlen, hword, hn, hfield⟩
    have hlt : field.length < 256 ^ 4 := by
      rw [← hn, ← hlen]
      exact fromBeBytes_lt word
    refine ⟨append_prefix_drop.mpr ?_, hlt⟩
    rw [← (eq_toBeBytes_iff hlt).mpr ⟨hlen, hn⟩, hlen]
    exact ⟨hword, hfield⟩

/-- A reader reads a value at an offset just where it has been written there. -/
structure Frames {ε α : Type} (bytes : List UInt8) (read : ℕ → Except ε (α × ℕ))
    (write : α → List UInt8) (legal : α → Prop) : Prop where
  reads : ∀ {start : ℕ}, start ≤ bytes.length → ∀ {x : α} {stop : ℕ},
    read start = .ok (x, stop) ↔
      legal x ∧ write x <+: bytes.drop start ∧ stop = start + (write x).length

/-- A reader of a field takes its length, and as many bytes. -/
theorem frames_lengthPrefixed {ε : Type} {read : ℕ → Except ε (List UInt8 × ℕ)}
    {legal : List UInt8 → Prop}
    (hread : ∀ start ≤ bytes.length, ∀ n, fromBeBytes ((bytes.drop start).take 4) = n →
      ∀ field stop, read start = .ok (field, stop) ↔
        start + 4 ≤ bytes.length ∧ start + 4 + n ≤ bytes.length ∧ legal field ∧
          field = (bytes.drop (start + 4)).take n ∧ stop = start + 4 + n) :
    Frames bytes read lengthPrefixed fun field => field.length < 256 ^ 4 ∧ legal field where
  reads := by
    intro start hstart field stop
    rw [hread start hstart _ rfl, length_lengthPrefixed]
    constructor
    · rintro ⟨hle, hle', hlegal, hfield, rfl⟩
      have hlen : field.length = fromBeBytes ((bytes.drop start).take 4) := by
        rw [hfield, length_take, length_drop]
        omega
      have hword : ((bytes.drop start).take 4).length = 4 := by
        rw [length_take, length_drop]
        omega
      obtain ⟨hpre, hlt⟩ := lengthPrefixed_prefix_iff.mpr
        ⟨_, hword, take_prefix 4 _, hlen.symm, hfield ▸ take_prefix _ _⟩
      exact ⟨⟨hlt, hlegal⟩, hpre, by omega⟩
    · rintro ⟨⟨hlt, hlegal⟩, hpre, rfl⟩
      obtain ⟨word, hword, hpre, hn, hfield⟩ := lengthPrefixed_prefix_iff.mp ⟨hpre, hlt⟩
      rw [prefix_iff_eq_take, hword] at hpre
      have hle := hfield.length_le
      rw [prefix_iff_eq_take, ← hn, hpre] at hfield
      rw [length_drop] at hle
      rw [hpre, length_take, length_drop] at hword
      rw [hpre] at hn
      exact ⟨by omega, by omega, hlegal, hfield, by omega⟩

/-! ## Counted loops -/

section

variable {ε α β : Type}

variable {x : Except ε α}

theorem bind_eq_ok {f : α → Except ε β} {b : β} :
    x >>= f = .ok b ↔ ∃ a, x = .ok a ∧ f a = .ok b := by
  cases x with
  | error | ok => simp [bind, Except.bind]

theorem ite_error_eq_ok {c : Prop} [Decidable c] {err : ε} {a : α} :
    (if c then .error err else x) = .ok a ↔ ¬ c ∧ x = .ok a := by
  by_cases hc : c
  · simp [hc]
  · simp [hc]

theorem bind_ne_error {f : α → Except ε β} {err : ε} (hx : x ≠ .error err)
    (hf : ∀ a, x = .ok a → f a ≠ .error err) : x >>= f ≠ .error err := by
  cases x with
  | error err' => simpa [bind, Except.bind] using hx
  | ok a => exact hf a rfl

/-- Read `n` values, one after another; `refuse` is what is wrong with a value after those. -/
def collect (read : ℕ → Except ε (α × ℕ)) (refuse : List α → α → Option ε) :
    ℕ → List α → ℕ → Except ε (List α × ℕ)
  | 0, seen, offset => .ok (seen, offset)
  | n + 1, seen, offset =>
    match read offset with
    | .error err => .error err
    | .ok (x, stop) =>
      match refuse seen x with
      | some err => .error err
      | none => collect read refuse n (seen ++ [x]) stop

/-- None of the values is refused after those before it. -/
def Admitted (refuse : List α → α → Option ε) : List α → List α → Prop
  | _, [] => True
  | seen, x :: xs => refuse seen x = none ∧ Admitted refuse (seen ++ [x]) xs

variable {refuse : List α → α → Option ε}

theorem admitted_of_none (h : ∀ seen x, refuse seen x = none) (seen xs : List α) :
    Admitted refuse seen xs := by
  induction xs generalizing seen with
  | nil => trivial
  | cons x xs ih => exact ⟨h seen x, ih _⟩

variable {read : ℕ → Except ε (α × ℕ)}

theorem collect_succ_eq_ok {n offset : ℕ} {seen : List α} {r : List α × ℕ} :
    collect read refuse (n + 1) seen offset = .ok r ↔
      ∃ x stop, read offset = .ok (x, stop) ∧ refuse seen x = none ∧
        collect read refuse n (seen ++ [x]) stop = .ok r := by
  rw [collect]
  cases hread : read offset with
  | error err => simp
  | ok result =>
    obtain ⟨x, stop⟩ := result
    cases hrefuse : refuse seen x with
    | some | none => simp [hrefuse]

/-- A loop ends in no error that its reader and its refusals do not end in. -/
theorem collect_ne_error {err : ε} (hread : ∀ offset, read offset ≠ .error err)
    (hrefuse : ∀ seen x, refuse seen x ≠ some err) (n : ℕ) (seen : List α) (offset : ℕ) :
    collect read refuse n seen offset ≠ .error err := by
  induction n generalizing seen offset with
  | zero => simp [collect]
  | succ n ih =>
    rw [collect]
    cases hr : read offset with
    | error err' =>
      have hne : err' ≠ err := fun h => hread offset (hr.trans (congrArg Except.error h))
      simpa using hne
    | ok result =>
      cases hx : refuse seen result.1 with
      | some err' =>
        have hne : err' ≠ err := fun h => hrefuse seen result.1 (hx.trans (congrArg some h))
        simpa [hx] using hne
      | none =>
        simp only [hx]
        exact ih _ _

/-- **What a counted loop reads**: the values that are laid out one after another. -/
theorem Frames.collect_eq_ok {bytes : List UInt8} {write : α → List UInt8} {legal : α → Prop}
    (h : Frames bytes read write legal) {n start : ℕ} {seen ys : List α} {stop : ℕ}
    (hstart : start ≤ bytes.length) :
    collect read refuse n seen start = .ok (ys, stop) ↔
      ∃ xs, ys = seen ++ xs ∧ xs.length = n ∧ (∀ x ∈ xs, legal x) ∧ Admitted refuse seen xs ∧
        xs.flatMap write <+: bytes.drop start ∧ stop = start + (xs.flatMap write).length := by
  induction n generalizing seen start with
  | zero =>
    rw [collect, Except.ok.injEq, Prod.mk.injEq]
    constructor
    · rintro ⟨rfl, rfl⟩
      exact ⟨[], by simp, rfl, forall_mem_nil _, trivial, nil_prefix, rfl⟩
    · rintro ⟨xs, rfl, hlen, _, _, _, rfl⟩
      obtain rfl := length_eq_zero_iff.mp hlen
      exact ⟨by simp, rfl⟩
  | succ n ih =>
    rw [collect_succ_eq_ok]
    constructor
    · rintro ⟨x, middle, hread, hrefuse, hrest⟩
      obtain ⟨hx, hpre, rfl⟩ := (h.reads hstart).mp hread
      have hle := hpre.length_le
      rw [length_drop] at hle
      obtain ⟨xs, rfl, rfl, hxs, hadmitted, hpres, rfl⟩ := (ih (by omega)).mp hrest
      refine ⟨x :: xs, by simp, rfl, ?_, ⟨hrefuse, hadmitted⟩, ?_, ?_⟩
      · exact forall_mem_cons.mpr ⟨hx, hxs⟩
      · exact append_prefix_drop.mpr ⟨hpre, hpres⟩
      · rw [flatMap_cons, length_append, Nat.add_assoc]
    · rintro ⟨xs, rfl, hlen, hxs, hadmitted, hpre, rfl⟩
      obtain ⟨x, xs, rfl⟩ := exists_cons_of_length_eq_add_one hlen
      obtain ⟨hx, hxs⟩ := forall_mem_cons.mp hxs
      obtain ⟨hpre, hpres⟩ := append_prefix_drop.mp hpre
      have hle := hpre.length_le
      rw [length_drop] at hle
      refine ⟨x, _, (h.reads hstart).mpr ⟨hx, hpre, rfl⟩, hadmitted.1, (ih (by omega)).mpr ?_⟩
      refine ⟨xs, by simp, by simpa using hlen, hxs, hadmitted.2, hpres, ?_⟩
      rw [flatMap_cons, length_append, Nat.add_assoc]

/-- What is laid out at an offset is determined by how much it is. -/
theorem Frames.eq_of_prefixes {bytes : List UInt8} {write : α → List UInt8} {legal : α → Prop}
    (h : Frames bytes read write legal) {start : ℕ} (hstart : start ≤ bytes.length) {xs ys : List α}
    (hlen : xs.length = ys.length) (hxs : ∀ x ∈ xs, legal x) (hys : ∀ y ∈ ys, legal y)
    (hx : xs.flatMap write <+: bytes.drop start) (hy : ys.flatMap write <+: bytes.drop start) :
    xs = ys := by
  have hread (zs : List α) (hn : zs.length = ys.length) (hzs : ∀ z ∈ zs, legal z)
      (hz : zs.flatMap write <+: bytes.drop start) :
      collect read (fun _ _ => none) ys.length [] start =
        .ok (zs, start + (zs.flatMap write).length) :=
    (h.collect_eq_ok hstart).mpr ⟨zs, rfl, hn, hzs, admitted_of_none (fun _ _ => rfl) _ _, hz, rfl⟩
  have heq := (hread xs hlen hxs hx).symm.trans (hread ys rfl hys hy)
  exact (Prod.mk.inj (Except.ok.inj heq)).1

end

end Framing
