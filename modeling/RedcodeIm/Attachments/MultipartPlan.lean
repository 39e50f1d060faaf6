import Mathlib.Tactic.Linarith
import RedcodeIm.Database.Models

/-!
# The plan of a multipart upload

`plan_multipart_upload` of `multipart_upload.rs`: the size of the parts of a file and their
number, in `i64`.

* `planMultipartUpload` — the plan, built with the checks of overflow (`checks`, where an
  overflow panics) or without them (where it wraps).
* `MultipartPlan` — what a plan is for: parts of whole MiB that cover the file and that the
  storage takes.
* `plansUpload_iff` — the sum of the size of a file and that of a part has to be an `i64`.
-/

namespace RedcodeIm

/-! ## `i64` -/

def i64Max : ℤ := 2 ^ 63 - 1

def i32Max : ℤ := 2 ^ 31 - 1

/-- How a computation ends without a value. -/
inductive Halt where
  | error (err : AppError)
  /-- A panic, where overflows are checked for. -/
  | overflow
  /-- The loop has not come to its end. -/
  | unfinished
  deriving DecidableEq

/-- The result of one operation. -/
def i64 (checks : Bool) (n : ℤ) : Except Halt ℤ :=
  if -2 ^ 63 ≤ n ∧ n ≤ i64Max then .ok n
  else if checks then .error .overflow
  else .ok (n.bmod (2 ^ 64))

/-- `n as i32`. -/
def asI32 (n : ℤ) : ℤ := n.bmod (2 ^ 32)

/-! ## The plan -/

def multipartThresholdBytes : ℤ := 5 * 1024 * 1024
def defaultPartSizeBytes : ℤ := 8 * 1024 * 1024
def minPartSizeBytes : ℤ := 1 * 1024 * 1024
def maxParts : ℤ := 10000

def divCeilI64 (checks : Bool) (n d : ℤ) : Except Halt ℤ :=
  if d ≤ 0 then .ok 0
  else do
    let sum ← i64 checks (n + d)
    let sum ← i64 checks (sum - 1)
    i64 checks (sum.tdiv d)

def roundUpToMultiple (checks : Bool) (value multiple : ℤ) : Except Halt ℤ :=
  if multiple ≤ 0 then .ok value
  else do
    let sum ← i64 checks (value + multiple)
    let sum ← i64 checks (sum - 1)
    i64 checks (sum.tdiv multiple * multiple)

/-- `while total_parts > MAX_PARTS`, its condition looked at `fuel` times at most. -/
def enlargeParts (checks : Bool) (fileSize : ℤ) : ℕ → ℤ → ℤ → Except Halt (ℤ × ℤ)
  | 0, _, _ => .error .unfinished
  | fuel + 1, partSize, totalParts =>
    if maxParts < totalParts then do
      let partSize := min (partSize + minPartSizeBytes) i64Max
      let totalParts ← divCeilI64 checks fileSize partSize
      enlargeParts checks fileSize fuel partSize totalParts
    else .ok (partSize, totalParts)

/-- The parts of `partSize` bytes, or else of the least size with which they are not too many. -/
def feasibleParts (checks : Bool) (fileSize partSize : ℤ) : Except Halt (ℤ × ℤ) := do
  let totalParts ← divCeilI64 checks fileSize partSize
  if maxParts < totalParts then do
    let required ← divCeilI64 checks fileSize maxParts
    let partSize ← roundUpToMultiple checks (max required minPartSizeBytes) minPartSizeBytes
    let totalParts ← divCeilI64 checks fileSize partSize
    return (partSize, totalParts)
  else return (partSize, totalParts)

def planMultipartUpload (checks : Bool) (fuel : ℕ) (fileSize : ℤ) : Except Halt (ℤ × ℤ) :=
  if fileSize ≤ 0 then .error (.error (.validationError "file_size 必须大于 0"))
  else if fileSize ≤ multipartThresholdBytes then
    .error (.error (.validationError s!"文件大小 <= {multipartThresholdBytes} 字节，请使用单文件直传（非分片）"))
  else do
    let partSize ← roundUpToMultiple checks (max defaultPartSizeBytes minPartSizeBytes)
      minPartSizeBytes
    let (partSize, totalParts) ← feasibleParts checks fileSize partSize
    let (partSize, totalParts) ← enlargeParts checks fileSize fuel partSize totalParts
    if i32Max < partSize ∨ i32Max < totalParts then
      .error (.error (.validationError "文件过大，无法生成分片上传计划"))
    else .ok (asI32 partSize, asI32 totalParts)

/-! ## What a plan is for -/

/-- Parts of `partSize` bytes, as many as it takes for the file. -/
structure MultipartPlan (fileSize partSize totalParts : ℤ) : Prop where
  positive : 0 < partSize
  whole : minPartSizeBytes ∣ partSize
  isI32 : partSize ≤ i32Max
  some_part : 1 ≤ totalParts
  allowed : totalParts ≤ maxParts
  needed : (totalParts - 1) * partSize < fileSize
  covers : fileSize ≤ totalParts * partSize

/-- A plan, or an error where the file is too small or has no plan. -/
def Planned (fileSize : ℤ) : Except Halt (ℤ × ℤ) → Prop
  | .ok (partSize, totalParts) => MultipartPlan fileSize partSize totalParts
  | .error (.error _) => fileSize ≤ multipartThresholdBytes ∨
      ∀ partSize totalParts, ¬MultipartPlan fileSize partSize totalParts
  | .error .overflow => False
  | .error .unfinished => False

/-- The upload of the file is planned in every build, and the loop ends. -/
def PlansUpload (fileSize : ℤ) : Prop :=
  ∀ checks fuel, 0 < fuel → Planned fileSize (planMultipartUpload checks fuel fileSize)

/-! ## Ceilings -/

section

variable {checks : Bool} {n d m : ℤ}

theorem i64_ok (hn : 0 ≤ n) (h : n ≤ i64Max) : i64 checks n = pure n :=
  if_pos ⟨by omega, h⟩

theorem ceil_le_iff (hd : 0 < d) : (n + d - 1) / d ≤ m ↔ n ≤ m * d := by
  rw [← Int.lt_add_one_iff, Int.ediv_lt_iff_lt_mul hd, add_mul, one_mul]
  omega

theorem divCeilI64_eq (hn : 0 ≤ n) (hd : 0 < d) (h : n + d ≤ i64Max) :
    divCeilI64 checks n d = pure ((n + d - 1) / d) := by
  have hle : (n + d - 1) / d ≤ n := (ceil_le_iff hd).mpr (by nlinarith)
  unfold divCeilI64
  rw [if_neg (by omega), i64_ok (by omega) h, pure_bind, i64_ok (by omega) (by omega),
    pure_bind, Int.tdiv_eq_ediv_of_nonneg (by omega),
    i64_ok (Int.ediv_nonneg (by omega) hd.le) (by omega)]

theorem divCeilI64_overflow (hd : 0 < d) (h : i64Max < n + d) :
    divCeilI64 true n d = .error .overflow := by
  unfold divCeilI64 i64
  rw [if_neg (by omega), if_neg (by omega)]
  rfl

theorem roundUpToMultiple_eq (hn : 0 ≤ n) (hd : 0 < d) (h : n + d ≤ i64Max) :
    roundUpToMultiple checks n d = pure ((n + d - 1) / d * d) := by
  have hle : (n + d - 1) / d * d ≤ n + d - 1 := Int.ediv_mul_le _ hd.ne'
  unfold roundUpToMultiple
  rw [if_neg (by omega), i64_ok (by omega) h, pure_bind, i64_ok (by omega) (by omega),
    pure_bind, Int.tdiv_eq_ediv_of_nonneg (by omega),
    i64_ok (mul_nonneg (Int.ediv_nonneg (by omega) hd.le) hd.le) (by omega)]

end

/-! ## The plan that is made -/

section

variable {checks : Bool} {fuel : ℕ} {fileSize : ℤ}

/-- The least size of the parts, in whole MiB, with which the parts are not too many. -/
def leastPartSize (fileSize : ℤ) : ℤ :=
  (max ((fileSize + maxParts - 1) / maxParts) minPartSizeBytes + minPartSizeBytes - 1)
    / minPartSizeBytes * minPartSizeBytes

/-- The ceiling of the quotient is the number of parts. -/
theorem multipartPlan_ceil {partSize : ℤ} (hsize : 0 < fileSize) (hpos : 0 < partSize)
    (hwhole : minPartSizeBytes ∣ partSize) (hi32 : partSize ≤ i32Max)
    (hparts : fileSize ≤ maxParts * partSize) :
    MultipartPlan fileSize partSize ((fileSize + partSize - 1) / partSize) where
  positive := hpos
  whole := hwhole
  isI32 := hi32
  some_part := by
    by_contra h
    have := (ceil_le_iff (n := fileSize) (m := 0) hpos).mp (by omega)
    omega
  allowed := (ceil_le_iff hpos).mpr hparts
  needed := by
    by_contra h
    have := (ceil_le_iff hpos).mpr (not_lt.mp h)
    omega
  covers := (ceil_le_iff hpos).mp le_rfl

/-- Whoever plans the file takes parts of that size or larger ones. -/
theorem MultipartPlan.leastPartSize_le {partSize totalParts : ℤ}
    (h : MultipartPlan fileSize partSize totalParts) : leastPartSize fileSize ≤ partSize := by
  obtain ⟨k, rfl⟩ := h.whole
  have hsize : fileSize ≤ minPartSizeBytes * k * maxParts :=
    calc fileSize ≤ totalParts * (minPartSizeBytes * k) := h.covers
      _ ≤ maxParts * (minPartSizeBytes * k) := mul_le_mul_of_nonneg_right h.allowed h.positive.le
      _ = minPartSizeBytes * k * maxParts := mul_comm _ _
  have hpos := h.positive
  have hceil := (ceil_le_iff (by decide)).mpr hsize
  rw [mul_comm minPartSizeBytes k] at hceil ⊢
  refine mul_le_mul_of_nonneg_right ((ceil_le_iff (by decide)).mpr (max_le hceil ?_)) (by decide)
  simp only [minPartSizeBytes] at hpos ⊢
  omega

theorem le_maxParts_mul_leastPartSize : fileSize ≤ maxParts * leastPartSize fileSize := by
  simp only [leastPartSize, maxParts, minPartSizeBytes]
  omega

theorem add_leastPartSize_le_iff :
    fileSize + leastPartSize fileSize ≤ i64Max ↔ fileSize ≤ 9222449791874629631 := by
  simp only [leastPartSize, maxParts, minPartSizeBytes, i64Max]
  omega

/-- The size of the parts of a file. -/
def plannedPartSize (fileSize : ℤ) : ℤ :=
  if fileSize ≤ maxParts * defaultPartSizeBytes then defaultPartSizeBytes
  else leastPartSize fileSize

theorem enlargeParts_eq {partSize totalParts : ℤ} (hfuel : 0 < fuel) (h : totalParts ≤ maxParts) :
    enlargeParts checks fileSize fuel partSize totalParts = pure (partSize, totalParts) := by
  obtain ⟨n, rfl⟩ := Nat.exists_eq_succ_of_ne_zero hfuel.ne'
  exact if_neg (not_lt.mpr h)

/-- The size of the parts once the default has been found too small. -/
theorem roundUpToMultiple_least (hsize : 0 < fileSize) (hmax : fileSize ≤ i64Max) :
    roundUpToMultiple checks (max ((fileSize + maxParts - 1) / maxParts) minPartSizeBytes)
      minPartSizeBytes = pure (leastPartSize fileSize) := by
  refine roundUpToMultiple_eq ?_ (by decide) ?_ <;>
    simp only [maxParts, minPartSizeBytes, i64Max] at * <;> omega

/-- The sums stay in `i64`. -/
theorem feasibleParts_eq (hsize : 0 < fileSize)
    (h : fileSize + leastPartSize fileSize ≤ i64Max) :
    feasibleParts checks fileSize defaultPartSizeBytes =
      pure (plannedPartSize fileSize,
        (fileSize + plannedPartSize fileSize - 1) / plannedPartSize fileSize) := by
  have hbound := add_leastPartSize_le_iff.mp h
  have hmax : fileSize + defaultPartSizeBytes ≤ i64Max := by
    simp only [defaultPartSizeBytes, i64Max]
    omega
  unfold feasibleParts plannedPartSize
  rw [divCeilI64_eq hsize.le (by decide) hmax, pure_bind]
  by_cases hfew : fileSize ≤ maxParts * defaultPartSizeBytes
  · rw [if_pos hfew, if_neg (not_lt.mpr ((ceil_le_iff (by decide)).mpr hfew))]
  · have hmany := mt (ceil_le_iff (n := fileSize) (d := defaultPartSizeBytes) (by decide)).mp hfew
    have hleast : 0 < leastPartSize fileSize := by
      simp only [leastPartSize, maxParts, minPartSizeBytes]
      omega
    rw [if_neg hfew, if_pos (not_le.mp hmany), divCeilI64_eq hsize.le (by decide)
      (by simp only [maxParts, i64Max]; omega), pure_bind,
      roundUpToMultiple_least hsize (by omega), pure_bind, divCeilI64_eq hsize.le hleast h,
      pure_bind]

/-- One of the sums does not. -/
theorem feasibleParts_overflow (hsize : 0 < fileSize) (hmax : fileSize ≤ i64Max)
    (h : i64Max < fileSize + leastPartSize fileSize) :
    feasibleParts true fileSize defaultPartSizeBytes = .error .overflow := by
  have hbound := mt add_leastPartSize_le_iff.mpr (not_le.mpr h)
  unfold feasibleParts
  by_cases hfirst : i64Max < fileSize + defaultPartSizeBytes
  · rw [divCeilI64_overflow (by decide) hfirst]
    rfl
  · have hmany : maxParts < (fileSize + defaultPartSizeBytes - 1) / defaultPartSizeBytes := by
      simp only [maxParts, defaultPartSizeBytes]
      omega
    have hleast : 0 < leastPartSize fileSize := by omega
    rw [divCeilI64_eq hsize.le (by decide) (not_lt.mp hfirst), pure_bind, if_pos hmany,
      divCeilI64_eq hsize.le (by decide)
        (by simp only [maxParts, defaultPartSizeBytes] at *; omega),
      pure_bind, roundUpToMultiple_least hsize hmax, pure_bind, divCeilI64_overflow hleast h]
    rfl

theorem planMultipartUpload_eq (hsize : multipartThresholdBytes < fileSize) :
    planMultipartUpload checks fuel fileSize = (do
      let (partSize, totalParts) ← feasibleParts checks fileSize defaultPartSizeBytes
      let (partSize, totalParts) ← enlargeParts checks fileSize fuel partSize totalParts
      if i32Max < partSize ∨ i32Max < totalParts then
        .error (.error (.validationError "文件过大，无法生成分片上传计划"))
      else .ok (asI32 partSize, asI32 totalParts)) := by
  have hround : roundUpToMultiple checks (max defaultPartSizeBytes minPartSizeBytes)
      minPartSizeBytes = pure defaultPartSizeBytes :=
    roundUpToMultiple_eq (by decide) (by decide) (by decide)
  have hpos : 0 < multipartThresholdBytes := by decide
  unfold planMultipartUpload
  rw [if_neg (by omega), if_neg (by omega), hround, pure_bind]

theorem asI32_eq {n : ℤ} (hn : 0 ≤ n) (h : n ≤ i32Max) : asI32 n = n := by
  simp only [i32Max] at h
  exact Int.bmod_eq_of_le (by omega) (by omega)

/-- The size of the parts is one of a plan, if there is any. -/
theorem plannedPartSize_spec :
    0 < plannedPartSize fileSize ∧ minPartSizeBytes ∣ plannedPartSize fileSize ∧
      fileSize ≤ maxParts * plannedPartSize fileSize ∧
      ∀ partSize totalParts, MultipartPlan fileSize partSize totalParts →
        plannedPartSize fileSize ≤ i32Max := by
  unfold plannedPartSize
  split
  · next hfew => exact ⟨by decide, by decide, hfew, fun _ _ _ => by decide⟩
  · refine ⟨?_, Dvd.intro_left _ rfl, le_maxParts_mul_leastPartSize,
      fun _ _ h => h.leastPartSize_le.trans h.isI32⟩
    simp only [leastPartSize, maxParts, minPartSizeBytes]
    omega

/-- A file whose size leaves room for a part is planned. -/
theorem planned_of_le (hfuel : 0 < fuel) (h : fileSize + leastPartSize fileSize ≤ i64Max) :
    Planned fileSize (planMultipartUpload checks fuel fileSize) := by
  by_cases hsmall : fileSize ≤ multipartThresholdBytes
  · unfold planMultipartUpload
    split <;> exact .inl hsmall
  · have hpos : 0 < fileSize := by
      simp only [multipartThresholdBytes] at hsmall
      omega
    obtain ⟨hsome, hwhole, hparts, hleast⟩ := @plannedPartSize_spec fileSize
    have hallowed := (ceil_le_iff hsome).mpr hparts
    rw [planMultipartUpload_eq (not_le.mp hsmall), feasibleParts_eq hpos h, pure_bind]
    simp only
    rw [enlargeParts_eq hfuel hallowed, pure_bind]
    have hi32 : maxParts ≤ i32Max := by decide
    by_cases hlarge : i32Max < plannedPartSize fileSize
    · rw [if_pos (.inl hlarge)]
      exact .inr fun p t hplan => absurd (hleast p t hplan) (not_le.mpr hlarge)
    · have hplan := multipartPlan_ceil hpos hsome hwhole (not_lt.mp hlarge) hparts
      rw [if_neg (by omega), asI32_eq hsome.le hplan.isI32,
        asI32_eq (zero_le_one.trans hplan.some_part) (hallowed.trans hi32)]
      exact hplan

end

/-! ## Every file -/

/-- **A file's upload is planned if the sum of its size and that of a part is an `i64`.** -/
theorem plansUpload_iff (fileSize : Int64) :
    PlansUpload fileSize.toInt ↔ fileSize.toInt ≤ 9222449791874629631 := by
  rw [← add_leastPartSize_le_iff]
  constructor
  · intro h
    by_contra hover
    have hmax : fileSize.toInt ≤ i64Max := Int.le_sub_one_of_lt fileSize.toInt_lt
    have hbound := mt add_leastPartSize_le_iff.mpr hover
    have hplan := h true 1 one_pos
    rw [planMultipartUpload_eq (by simp only [multipartThresholdBytes]; omega),
      feasibleParts_overflow (by omega) hmax (not_le.mp hover)] at hplan
    exact hplan
  · exact fun h _ _ hfuel => planned_of_le hfuel h

/-- The size of the largest file overflows with that of a part: it would be uploaded as one
part of 8 MiB. -/
theorem largest_file_not_planned :
    ¬ PlansUpload Int64.maxValue.toInt ∧
      planMultipartUpload false 1 Int64.maxValue.toInt = .ok (8388608, 1) := by
  refine ⟨fun h => ?_, by decide +kernel⟩
  have hplan := h false 1 one_pos
  rw [show planMultipartUpload false 1 Int64.maxValue.toInt = .ok (8388608, 1) by decide +kernel]
    at hplan
  exact absurd hplan.covers (by decide)

end RedcodeIm
